import ThingOS.Kernel.Graph.Authority
import ThingOS.Kernel.Graph.Watches
import ThingOS.Kernel.Syscall

/-!
# Who sees the changes of a watch

A watch belongs to the bundle whose call registered it, until the id is registered again after the
counter has wrapped around. `poll_watch` is given an id and nothing else, and neither
`export_watch_events` nor `watch_poll` looks at the calling bundle. So a run keeps the watches of
different bundles apart exactly if its polls do.

A change gets into a queue only if the owner of the watch may see it when it is committed, and
authority once given is never taken back while the watch stands.
-/

namespace ThingOS

open Store List

variable {id : WatchId} {owner : BundleId}

namespace Store

def watchOwner (s : Store) (id : WatchId) : Option BundleId := s.watches[id]?.map Watch.owner

/-- A watch stands under the id and has changes waiting. -/
def Pending (s : Store) (id : WatchId) (owner : BundleId) : Prop :=
  ∃ watch, s.watches[id]? = some watch ∧ watch.queue ≠ [] ∧ watch.owner = owner

lemma Pending.watchOwner {s : Store} (h : s.Pending id owner) :
    s.watchOwner id = some owner := by
  obtain ⟨watch, hwatch, -, rfl⟩ := h
  simp [Store.watchOwner, hwatch]

end Store

variable {c : Call} {calls : List Call} {bundle : BundleId}

namespace GraphState

variable (ext : Externs)

/-- A watch that stands after a step was registered by it or stood before. -/
lemma watchOwner_of_step {g : GraphState}
    (hfiled : g.store.WatchesFiled) (h : (step ext g c).store.watchOwner id = some owner) :
    ((perform ext g c).2 = .watch id ∧ c.bundle = owner)
      ∨ ((perform ext g c).2 ≠ .watch id ∧ g.store.watchOwner id = some owner) := by
  have hw := perform_watched ext g c
  unfold step Store.watchOwner at h
  by_cases hc : c.restores
  · simp [watches_of_restored hw hc] at h
  · by_cases hid : (perform ext g c).2 = .watch id
    · rw [hid] at hw
      obtain ⟨pattern, -, hfresh⟩ := getElem?_of_registered hw
      rw [hfresh] at h
      exact .inl ⟨hid, Option.some.inj h⟩
    · rw [getElem?_of_watched hfiled hw hid hc, Option.map_map] at h
      exact .inr ⟨hid, h⟩

/-! ## Who registered a watch -/

/-- The bundle whose call was the last of the run to register the id. -/
def RegisteredBy (calls : List Call) (id : WatchId) (bundle : BundleId) : Prop :=
  ∃ pre c post, calls = pre ++ c :: post ∧ (perform ext (reach ext pre) c).2 = .watch id
    ∧ c.bundle = bundle
    ∧ ∀ mid c' post', post = mid ++ c' :: post' →
      (perform ext (reach ext (pre ++ c :: mid)) c').2 ≠ .watch id

variable {ext}

lemma RegisteredBy.concat (h : RegisteredBy ext calls id bundle)
    (hc : (perform ext (reach ext calls) c).2 ≠ .watch id) :
    RegisteredBy ext (calls ++ [c]) id bundle := by
  obtain ⟨pre, r, post, rfl, hr, hbundle, hlast⟩ := h
  refine ⟨pre, r, post ++ [c], by simp, hr, hbundle, ?_⟩
  intro mid c' post' heq
  -- a later call is the new one or was later in the shorter run already
  cases post' using List.reverseRecOn with
  | nil =>
    obtain ⟨rfl, hcc⟩ := append_inj' heq rfl
    cases hcc
    exact hc
  | append_singleton post' last _ =>
    rw [← cons_append, ← append_assoc] at heq
    exact hlast mid c' post' (append_inj' heq rfl).1

lemma RegisteredBy.unique {b b' : BundleId}
    (h : RegisteredBy ext calls id b) (h' : RegisteredBy ext calls id b') : b = b' := by
  obtain ⟨pre, r, post, rfl, hr, rfl, hlast⟩ := h
  obtain ⟨pre', r', post', heq, hr', rfl, hlast'⟩ := h'
  -- of two different registrations the earlier one is not the last
  rcases append_eq_append_iff.mp heq with ⟨_ | ⟨m, mid⟩, rfl, hmid⟩ | ⟨_ | ⟨m, mid⟩, rfl, hmid⟩
  all_goals cases hmid
  · rfl
  · exact absurd hr' (hlast mid r' post' rfl)
  · rfl
  · exact absurd hr (hlast' mid r post rfl)

/-- In every run, the bundle recorded in a watch is the one that registered it. -/
lemma registeredBy_of_watchOwner (h : (reach ext calls).store.watchOwner id = some owner) :
    RegisteredBy ext calls id owner := by
  induction calls using List.reverseRecOn generalizing owner with
  | nil => simp [Store.watchOwner, new, Store.new] at h
  | append_singleton calls c ih =>
    -- the induction is on the last call, which registers the watch or finds it
    rw [reach_concat] at h
    rcases watchOwner_of_step ext (reach_watchesFiled ext calls) h
      with ⟨hid, hbundle⟩ | ⟨hid, hstood⟩
    · exact ⟨calls, c, [], rfl, hid, hbundle, by simp⟩
    · exact (ih hstood).concat hid

end GraphState

/-! ## What a poll gives away -/

namespace Store

variable (toAllocvec : GraphWatchBatch → Option (List UInt8))

/-- Polling the id hands changes to the caller, or leaves a trace in the store, the caller's memory
or the value returned. -/
def PollTakes (s : Store) (id : WatchId) : Prop :=
  (s.pollWatch id).2 ≠ none
    ∨ ∃ m outPtr outLen, watchPoll toAllocvec s m id outPtr outLen ≠ (s, m, 0)

variable {s : Store}

lemma pollWatch_of_idle (h : ∀ owner, ¬ s.Pending id owner) :
    s.pollWatch id = (s, none) := by
  unfold pollWatch
  split
  · rfl
  · rename_i watch hwatch
    have hqueue : watch.queue = [] := by
      by_contra hqueue
      exact h watch.owner ⟨watch, hwatch, hqueue, rfl⟩
    rw [if_pos (by rw [hqueue]; rfl)]

@[simp] lemma copyOutSlice_nil (m : Memory) (outPtr outLen : ℕ) :
    copyOutSlice [] m outPtr outLen = (m, 0) := by
  simp [copyOutSlice]

/-- A poll gives something away exactly if changes are waiting, whoever owns the watch. -/
lemma pollTakes_iff :
    s.PollTakes toAllocvec id ↔ ∃ owner, s.Pending id owner := by
  constructor
  · intro htakes
    by_contra hidle
    have hpoll := pollWatch_of_idle (not_exists.mp hidle)
    rcases htakes with hbatch | ⟨m, outPtr, outLen, hcall⟩
    · exact hbatch (by rw [hpoll])
    · exact hcall (by simp [watchPoll, exportWatchEvents, hpoll])
  · rintro ⟨owner, watch, hwatch, hqueue, -⟩
    exact .inl (by simp [pollWatch, hwatch, hqueue])

end Store

namespace GraphState

/-- The polls of the run give changes away only to the bundle that registered the watch. -/
def WatchesIsolated (ext : Externs) (toAllocvec : GraphWatchBatch → Option (List UInt8))
    (calls : List Call) : Prop :=
  ∀ pre c post id, calls = pre ++ c :: post → c.op = .pollWatch id →
    (reach ext pre).store.PollTakes toAllocvec id → RegisteredBy ext pre id c.bundle

/-- If the call polls a watch with changes waiting, the watch is its bundle's. -/
def PollsOwn (g : GraphState) (c : Call) : Prop :=
  ∀ id owner, c.op = .pollWatch id → g.store.Pending id owner → owner = c.bundle

/-- In every run, the watches of different bundles are kept apart exactly if every call that polls a
watch with changes waiting comes from the bundle recorded in it. -/
theorem watch_isolation (ext : Externs) (toAllocvec : GraphWatchBatch → Option (List UInt8))
    (calls : List Call) :
    WatchesIsolated ext toAllocvec calls ↔ EachStep (step ext) PollsOwn new calls := by
  constructor
  · intro h pre c post hcalls id owner hop hpending
    have hregistered := registeredBy_of_watchOwner hpending.watchOwner
    have htakes := (pollTakes_iff toAllocvec).mpr ⟨owner, hpending⟩
    exact hregistered.unique (h pre c post id hcalls hop htakes)
  · intro h pre c post id hcalls hop htakes
    obtain ⟨owner, hpending⟩ := (pollTakes_iff toAllocvec).mp htakes
    have hregistered := registeredBy_of_watchOwner hpending.watchOwner
    rwa [h pre c post hcalls id owner hop hpending] at hregistered

/-- One bundle registers a watch for everything and declares a Thing. -/
def watchedRun : List Call :=
  [⟨0xb1, 0, .registerWatchPattern ⟨[], ∅⟩⟩,
   ⟨0xb1, 1, .fiat { id := some 0xd1, kind := Canon.style, labels := [], fields := ∅ }⟩]

/-- Another bundle polls the first watch id and the change is copied into its buffer. -/
theorem foreign_poll_takes :
    ¬ WatchesIsolated crates (some ∘ encodeBatch) (watchedRun ++ [⟨0xb2, 2, .pollWatch 1⟩]) := by
  intro h
  have howner : (reach crates watchedRun).store.watchOwner 1 = some 0xb1 := by decide +kernel
  have hcopied : (watchPoll (some ∘ encodeBatch) (reach crates watchedRun).store (fun _ => 0) 1
      0x1000 0x1000).2.2 ≠ 0 := by decide +kernel
  have htakes : (reach crates watchedRun).store.PollTakes (some ∘ encodeBatch) 1 :=
    .inr ⟨fun _ => 0, 0x1000, 0x1000, fun heq => hcopied (by rw [heq])⟩
  have hregistered := h watchedRun _ [] 1 rfl rfl htakes
  exact absurd ((registeredBy_of_watchOwner howner).unique hregistered) (by decide)

end GraphState

/-! ## What waits in a queue -/

namespace Store

variable {s t : Store}

/-- What waits in a queue passes the test of `change_visible_to` for the owner of the watch. -/
def QueuesVisible (s : Store) : Prop :=
  ∀ (id : WatchId) watch, s.watches[id]? = some watch → ∀ change ∈ watch.queue,
    s.changeVisibleTo watch.owner change = true

/-- Every change that waits in a queue is one the owner of the watch may see: a Thing it can read, a
public one or one of an input kind, an edge with an end it can read or one it made itself. -/
def QueuesReadable (s : Store) : Prop :=
  ∀ (id : WatchId) watch, s.watches[id]? = some watch → ∀ change ∈ watch.queue,
    match change with
    | .thing t =>
      s.canRead watch.owner t.id = true ∨ Canon.public_ ∈ t.labels ∨ t.kind ∈ inputKinds
    | .edge e =>
      s.canRead watch.owner e.src = true ∨ s.canRead watch.owner e.dst = true
        ∨ e.owner = watch.owner

lemma changeVisibleTo_iff (s : Store) (bundle : BundleId) (change : GraphChange) :
    s.changeVisibleTo bundle change = true ↔
      match change with
      | .thing t => s.canRead bundle t.id = true ∨ Canon.public_ ∈ t.labels ∨ t.kind ∈ inputKinds
      | .edge e =>
        s.canRead bundle e.src = true ∨ s.canRead bundle e.dst = true ∨ e.owner = bundle := by
  cases change with
  | thing t =>
    simp only [changeVisibleTo, Bool.or_eq_true, contains_iff_mem,
      Std.ExtTreeSet.contains_iff_mem]
    tauto
  | edge e =>
    simp only [changeVisibleTo, Bool.or_eq_true, beq_iff_eq, or_assoc]

/-- Reading is never lost when the edge list grows. -/
lemma canRead_mono (hs : s.WellFormed) (ht : t.WellFormed) (hgrow : s.edges <+: t.edges)
    {node : Uuid} (h : s.canRead bundle node = true) :
    t.canRead bundle node = true := by
  have hcap : ∀ predicate, s.hasCapability bundle node predicate = true →
      t.hasCapability bundle node predicate = true := by
    intro predicate hpred
    obtain ⟨e, he, hends⟩ := (hs.hasCapability_iff bundle node predicate).mp hpred
    exact (ht.hasCapability_iff bundle node predicate).mpr ⟨e, hgrow.subset he, hends⟩
  simp only [canRead, canWrite, owns, Bool.or_eq_true] at h ⊢
  exact h.imp (Or.imp (Or.imp_right (hcap Canon.owns)) (hcap Canon.canRead))
    (Or.imp (Or.imp_right (hcap Canon.owns)) (hcap Canon.canWrite))

lemma changeVisibleTo_mono (hs : s.WellFormed) (ht : t.WellFormed) (hgrow : s.edges <+: t.edges)
    {change : GraphChange} (h : s.changeVisibleTo bundle change = true) :
    t.changeVisibleTo bundle change = true := by
  rw [changeVisibleTo_iff] at h ⊢
  cases change with
  | thing t => exact h.imp_left (canRead_mono hs ht hgrow)
  | edge e =>
    exact h.imp (canRead_mono hs ht hgrow) (Or.imp_left (canRead_mono hs ht hgrow))

/-- A change that waits after a call waited before it, or was seen in the middle of its commit. -/
lemma mem_queue_watchAfter {ext : Externs} {watch : Watch} {change : GraphChange}
    (h : change ∈ (s.watchAfter ext c watch).queue) :
    change ∈ watch.queue
      ∨ ∃ t, s.notified ext c = some (t, change) ∧ t.changeVisibleTo watch.owner change = true := by
  unfold watchAfter observation at h
  split at h
  · split at h
    · exact absurd h not_mem_nil
    · exact .inl h
  · split at h
    · rename_i t committed hchange
      split at h
      · rename_i hsees
        -- the change that arrives is the only one that was not there
        rcases BoundedQueue.mem_push h with h | rfl
        · exact .inl h
        · exact .inr ⟨t, hchange, (Bool.and_eq_true_iff.mp hsees).1⟩
      · exact .inl h
    · exact .inl h

end Store

namespace GraphState

/-- What waits in the queues after a step was visible, and still is. -/
lemma queuesVisible_step (ext : Externs) {g : GraphState} (hwf : g.store.WellFormed)
    (hfiled : g.store.WatchesFiled) (h : g.store.QueuesVisible) (c : Call) :
    (step ext g c).store.QueuesVisible := by
  have hwf' : (step ext g c).store.WellFormed := by
    obtain ⟨t, hwrote, hgraph⟩ := step_wrote ext g c
    exact (hwf.of_wrote hwrote).of_graph hgraph
  have hw := perform_watched ext g c
  intro id watch hwatch change hmem
  unfold step at hwatch
  by_cases hc : c.restores
  · simp [watches_of_restored hw hc] at hwatch
  by_cases hid : (perform ext g c).2 = .watch id
  · rw [hid] at hw
    obtain ⟨pattern, -, hfresh⟩ := getElem?_of_registered hw
    rw [hfresh] at hwatch
    cases hwatch
    exact absurd hmem not_mem_nil
  · rw [getElem?_of_watched hfiled hw hid hc, Option.map_eq_some_iff] at hwatch
    obtain ⟨before, hbefore, rfl⟩ := hwatch
    rcases mem_queue_watchAfter hmem with hold | ⟨t, hchange, hvisible⟩
    · exact changeVisibleTo_mono hwf hwf' (edges_grow_step ext g hc)
        (h id before hbefore change hold)
    · have hsame := edgesBySrcPred_eq_of_graph (step_graph_of_notified hchange)
      exact (changeVisibleTo_congr hsame _ change).trans hvisible

/-- In every reachable state, what waits in a queue is readable for the owner of the watch. -/
theorem queue_confidentiality (ext : Externs) (calls : List Call) :
    (reach ext calls).store.QueuesReadable := by
  have hvisible : (reach ext calls).store.QueuesVisible := by
    induction calls using List.reverseRecOn with
    | nil => simp [Store.QueuesVisible, new, Store.new]
    | append_singleton calls c ih =>
      rw [reach_concat]
      exact queuesVisible_step ext (reach_wellFormed ext calls) (reach_watchesFiled ext calls) ih c
  intro id watch hwatch change hmem
  exact (changeVisibleTo_iff _ _ _).mp (hvisible id watch hwatch change hmem)

end GraphState

end ThingOS
