import ThingOS.Kernel.Graph.Representation
import ThingOS.Kernel.Graph.Watches

/-!
# What a watch delivers

Between its registration and the end of a run, a watch is a bounded queue: committed changes that
its owner may see and its pattern matches arrive, polls of its id drain it, and no other call
touches it. What the polls returned, followed by what still waits, is the sequence of those changes
with only the most recent `MAX_WATCH_QUEUE` of every interval between polls. It is in increasing
order of revisions, as long as the revision counter has not wrapped around.
-/

namespace ThingOS

open GraphState BoundedQueue Store List Response

variable {id : WatchId}

namespace Store

variable {ext : Externs} {s t : Store} {c : Call} {change : GraphChange}

/-- Below the bound, a committed change carries the last revision issued by its call. -/
lemma Ordered.revision_of_notified (h : s.Ordered)
    (hchange : s.notified ext c = some (t, change)) (hbound : t.issued < u64Size) :
    change.revision = t.issued ∧ s.issued < t.issued := by
  obtain ⟨-, r, hr, hissued, hrevision⟩ := notified_spec hchange
  have hord : r.Ordered ∧ s.issued ≤ r.issued := by
    rcases hr with rfl | ⟨bundle, rfl⟩
    · exact ⟨h, le_rfl⟩
    · exact ⟨h.ensureBundleNode bundle (by omega), issued_le_ensureBundleNode s bundle⟩
  have hnext := hord.1.nextRevision_eq (by omega)
  constructor
  · omega
  · have := hord.2
    omega

/-- A call other than a poll of the id drains nothing; at most one change arrives. -/
lemma observation_of_ne_poll (owner : BundleId) (pattern : NodePattern)
    (hpoll : c.op ≠ .pollWatch id) :
    s.observation ext id owner pattern c = []
      ∨ ∃ t change, s.notified ext c = some (t, change)
        ∧ s.observation ext id owner pattern c = [.arrive change] := by
  unfold observation
  split
  · rename_i polled hop
    exact Or.inl (if_neg fun hid => hpoll (by rw [hop, hid]))
  · grind

end Store

variable {g : GraphState}

namespace GraphState

variable (ext : Externs)

/-- The changes a call hands out from the queue of a watch: those of the batch that a poll of its id
returns. -/
def handedOut (id : WatchId) (g : GraphState) (c : Call) : List GraphChange :=
  match c.op, (perform ext g c).2 with
  | .pollWatch polled, .batch (some events) => if polled = id then events.changes else []
  | _, _ => []

/-- What the calls of a run do to the queue of a watch. -/
def observed (id : WatchId) (owner : BundleId) (pattern : NodePattern) (g : GraphState)
    (calls : List Call) : List (BoundedQueue.Event GraphChange) :=
  outputs (step ext) (fun g c => g.store.observation ext id owner pattern c) g calls

/-- What the polls of a run return from the queue of a watch. -/
def returned (id : WatchId) (g : GraphState) (calls : List Call) : List GraphChange :=
  outputs (step ext) (handedOut ext id) g calls

variable {ext}

variable {c : Call}

lemma handedOut_of_poll {watch : Watch}
    (hwatch : g.store.watches[id]? = some watch) (hop : c.op = .pollWatch id) :
    handedOut ext id g c = watch.queue := by
  simp only [handedOut, perform, hop, pollWatch, hwatch]
  cases hqueue : watch.queue with
  | nil => rfl
  | cons change rest => simp

lemma handedOut_of_ne_poll (hpoll : c.op ≠ .pollWatch id) : handedOut ext id g c = [] := by
  unfold handedOut
  split
  · rename_i polled events hop hresponse
    exact if_neg fun hid => hpoll (by rw [hop, hid])
  · rfl

/-- One call moves the queue of a watch as the observation of the call says, and what a poll takes
out is what it returns. -/
lemma watch_step {watch : Watch}
    (hfiled : g.store.WatchesFiled) (hwatch : g.store.watches[id]? = some watch)
    (hid : (perform ext g c).2 ≠ .watch id) (hc : ¬ c.restores) (taken : List GraphChange) :
    ∃ queue, (step ext g c).store.watches[id]? = some { watch with queue }
      ∧ run (handle maxWatchQueue) ⟨taken, watch.queue⟩
          (g.store.observation ext id watch.owner watch.pattern c)
        = ⟨taken ++ handedOut ext id g c, queue⟩ := by
  have hafter := getElem?_of_watched hfiled (perform_watched ext g c) hid hc
  rw [hwatch, Option.map_some] at hafter
  obtain rfl : watch.id = id := hfiled id watch hwatch
  refine ⟨_, hafter, ?_⟩
  by_cases hpoll : c.op = .pollWatch watch.id
  · rw [observation_of_poll _ _ hpoll, if_pos rfl, handedOut_of_poll hwatch hpoll]
    rfl
  · rw [handedOut_of_ne_poll hpoll, append_nil]
    rcases observation_of_ne_poll watch.owner watch.pattern hpoll with h | ⟨-, change, -, h⟩
    · rw [h]
      rfl
    · rw [h]
      rfl

/-- From its registration on, a watch is a bounded queue fed by what the calls do to it. -/
lemma watch_run {g : GraphState} {id : WatchId} {owner : BundleId} {pattern : NodePattern}
    (hfiled : g.store.WatchesFiled)
    (hfresh : g.store.watches[id]? = some ⟨id, owner, pattern, []⟩) {calls : List Call}
    (hcalls : NoRestore calls)
    (honce : EachStep (step ext) (fun g c => (perform ext g c).2 ≠ .watch id) g calls) :
    ∃ queue, (run (step ext) g calls).store.watches[id]? = some ⟨id, owner, pattern, queue⟩
      ∧ run (handle maxWatchQueue) ⟨[], []⟩ (observed ext id owner pattern g calls)
        = ⟨returned ext id g calls, queue⟩ := by
  induction calls using List.reverseRecOn with
  | nil => exact ⟨[], hfresh, rfl⟩
  | append_singleton calls c ih =>
    obtain ⟨queue, hwatch, hrun⟩ := ih (fun d hd => hcalls d (by simp [hd])) honce.of_append
    have hfiled' : (run (step ext) g calls).store.WatchesFiled :=
      run_invariant (P := fun g : GraphState => g.store.WatchesFiled) calls hfiled
        fun g c h => h.of_watched (perform_watched ext g c)
    obtain ⟨queue', hwatch', hstep⟩ := watch_step hfiled' hwatch honce.last
      (hcalls c (by simp)) (returned ext id g calls)
    refine ⟨queue', by rw [run_concat]; exact hwatch', ?_⟩
    rw [observed, returned, outputs_concat, outputs_concat, run_append]
    exact (congrArg (run (handle maxWatchQueue) · _) hrun).trans hstep

/-- Below the bound, changes arrive in increasing order of revisions. -/
lemma arrivals_increasing {pre post : List Call} (hcalls : NoRestore (pre ++ post))
    (hbound : (reach ext (pre ++ post)).store.issued < u64Size) (id : WatchId) (owner : BundleId)
    (pattern : NodePattern) :
    (arrivals (observed ext id owner pattern (reach ext pre) post)).Pairwise
        (fun a b => a.revision < b.revision)
      ∧ ∀ a ∈ arrivals (observed ext id owner pattern (reach ext pre) post),
        a.revision ≤ (reach ext (pre ++ post)).store.issued := by
  induction post using List.reverseRecOn with
  | nil => simp [observed, outputs, arrivals, intervals]
  | append_singleton post c ih =>
    rw [← append_assoc] at hcalls hbound
    have hpost : NoRestore (pre ++ post) := fun d hd => hcalls d (mem_append_left _ hd)
    have hc : ¬ c.restores := hcalls c (by simp)
    rw [reach_concat] at hbound
    have hle := issued_le_step ext (reach ext (pre ++ post)) hc
    obtain ⟨hincreasing, hissued⟩ := ih hpost (hle.trans_lt hbound)
    have hord := reach_ordered ext hpost (hle.trans_lt hbound)
    have hrun : run (step ext) (reach ext pre) post = reach ext (pre ++ post) :=
      (run_append _ _ _ _).symm
    rw [← append_assoc, reach_concat, observed, outputs_concat, hrun]
    by_cases hpoll : c.op = .pollWatch id
    · rw [observation_of_poll _ _ hpoll, if_pos rfl, arrivals_concat_drain]
      exact ⟨hincreasing, fun a ha => (hissued a ha).trans hle⟩
    · rcases observation_of_ne_poll owner pattern hpoll with h | ⟨t, change, hchange, h⟩
      · rw [h, append_nil]
        exact ⟨hincreasing, fun a ha => (hissued a ha).trans hle⟩
      · -- the new change carries a revision that was issued in this call
        have hstep := issued_eq_of_graph (step_graph_of_notified hchange)
        rw [hstep] at hbound hle ⊢
        obtain ⟨hrevision, hnew⟩ := hord.revision_of_notified hchange hbound
        rw [h, arrivals_concat_arrive]
        constructor
        · refine pairwise_concat.mpr ⟨hincreasing, fun a ha => ?_⟩
          rw [hrevision]
          exact (hissued a ha).trans_lt hnew
        · exact forall_mem_concat.mpr ⟨fun a ha => (hissued a ha).trans hle, hrevision.le⟩

/-- What the polls of a watch returned, followed by what still waits, is the sequence of committed
changes that its owner might see and its pattern matched, with only the last `MAX_WATCH_QUEUE` of
every interval between two polls. Revisions increase along it as long as fewer than `2 ^ 64` were
issued. -/
theorem watch_delivery (ext : Externs) (pre post : List Call) (c : Call) (id : WatchId)
    (hcalls : NoRestore (pre ++ c :: post))
    (hregister : (perform ext (reach ext pre) c).2 = .watch id)
    (honce : EachStep (step ext) (fun g c => (perform ext g c).2 ≠ .watch id)
      (reach ext (pre ++ [c])) post) :
    ∃ watch, (reach ext (pre ++ c :: post)).store.watches[id]? = some watch
      ∧ watch.owner = c.bundle ∧ c.op.watchPattern = some watch.pattern
      ∧ watch.queue.length ≤ maxWatchQueue
      ∧ returned ext id (reach ext (pre ++ [c])) post ++ watch.queue
        = ((intervals (observed ext id watch.owner watch.pattern (reach ext (pre ++ [c])) post)).map
            (List.rtake · maxWatchQueue)).flatten
      ∧ ((reach ext (pre ++ c :: post)).store.issued < u64Size →
        (returned ext id (reach ext (pre ++ [c])) post ++ watch.queue).Pairwise
          fun a b => a.revision < b.revision) := by
  have hbound : 0 < maxWatchQueue := by decide
  have hsplit : pre ++ c :: post = (pre ++ [c]) ++ post := by simp
  rw [hsplit] at hcalls ⊢
  have hw := perform_watched ext (reach ext pre) c
  rw [hregister] at hw
  obtain ⟨pattern, hop, hfresh⟩ := getElem?_of_registered hw
  obtain ⟨queue, hwatch, hrun⟩ := @watch_run ext (reach ext (pre ++ [c])) _ _ _
    (reach_watchesFiled ext _) (by rw [reach_concat]; exact hfresh) _
    (fun d hd => hcalls d (mem_append_right _ hd)) honce
  have hkept := taken_append_queue
    (observed ext id c.bundle pattern (reach ext (pre ++ [c])) post) hbound
  have hlength := length_queue_le
    (observed ext id c.bundle pattern (reach ext (pre ++ [c])) post) hbound
  rw [hrun] at hkept hlength
  have hreach : run (step ext) (reach ext (pre ++ [c])) post = reach ext (pre ++ [c] ++ post) :=
    (run_append _ _ _ _).symm
  rw [hreach] at hwatch
  refine ⟨_, hwatch, rfl, hop, hlength, hkept, fun hissued => ?_⟩
  rw [hkept]
  exact (arrivals_increasing hcalls hissued id c.bundle pattern).1.sublist
    (kept_sublist_arrivals _)

def watchAll : Call := ⟨kernelBundleId, 0, .registerWatchPattern ⟨[], ∅⟩⟩

theorem watch_delivery_declareOne :
    ∃ watch, (reach crates ([] ++ watchAll :: [declareOne, ⟨1, 0, .pollWatch 1⟩, updateOne])).store
        |>.watches[1]? = some watch
      ∧ watch.queue.length ≤ maxWatchQueue
      ∧ (returned crates 1 (reach crates ([] ++ [watchAll]))
          [declareOne, ⟨1, 0, .pollWatch 1⟩, updateOne] ++ watch.queue).Pairwise
        fun a b => a.revision < b.revision := by
  obtain ⟨watch, hwatch, -, -, hlength, -, hincreasing⟩ :=
    watch_delivery crates [] [declareOne, ⟨1, 0, .pollWatch 1⟩, updateOne] watchAll 1
      (by simp [NoRestore, Call.restores, watchAll, declareOne, updateOne]) rfl
      (by simp only [eachStep_cons]
          refine ⟨?_, ?_, ?_, eachStep_nil _⟩ <;> rintro ⟨⟩)
  exact ⟨watch, hwatch, hlength, hincreasing (by decide +kernel)⟩

/-- An update of the Thing `1` by the kernel arrives at every watch for everything, under the
revision that was next. -/
lemma updateOne_arrives (ext : Externs) (hone : g.store.versions 1#128 ≠ [])
    (id : WatchId) :
    (∃ change, g.store.observation ext id kernelBundleId ⟨[], ∅⟩ updateOne = [.arrive change]
        ∧ change.revision = g.store.nextRevision)
      ∧ (step ext g updateOne).store.nextRevision = (g.store.nextRevision + 1) % u64Size
      ∧ (step ext g updateOne).store.versions 1#128 ≠ [] := by
  obtain ⟨current, hcurrent, hstep⟩ := updateOne_graph ext hone
  have hwrite : g.store.canWrite kernelBundleId current.id = true := by simp [canWrite]
  refine ⟨⟨.thing (propsThing current ⟨1#128, ∅⟩ g.store.nextRevision), ?_, rfl⟩, ?_,
    versions_updateOne ext hone⟩
  · rw [observation_of_commits _ _ rfl]
    simp [notified, updateOne, hcurrent, hwrite, sees, changeVisibleTo,
      canRead, changeTarget, matchesPattern]
  · rw [nextRevision_eq_of_graph hstep, commitThing, insertThing_nextRevision,
      takeNextRevision_nextRevision]

lemma perform_watchAll (ext : Externs) (g : GraphState) :
    (perform ext g watchAll).2 = .watch g.store.nextWatchId := rfl

lemma updates_register_nothing (ext : Externs) (g : GraphState) (id : WatchId) :
    EachStep (step ext) (fun g c => (perform ext g c).2 ≠ .watch id) g [updateOne, updateOne] := by
  simp only [eachStep_cons]
  exact ⟨nofun, nofun, eachStep_nil _⟩

/-- A watch registered while the counter stands at the last revision delivers that revision and
after it the revision zero. -/
lemma updates_out_of_order (ext : Externs) (hfiled : g.store.WatchesFiled)
    (hnext : g.store.nextRevision = u64Size - 1) (hone : g.store.versions 1#128 ≠ []) :
    ∃ watch, (run (step ext) (step ext g watchAll)
        [updateOne, updateOne]).store.watches[g.store.nextWatchId]? = some watch
      ∧ ¬ (returned ext g.store.nextWatchId (step ext g watchAll) [updateOne, updateOne]
          ++ watch.queue).Pairwise fun a b => a.revision < b.revision := by
  -- registering changes neither the counter nor the Thing
  obtain ⟨⟨first, hfirst, hrevision⟩, hnext', hone'⟩ :=
    updateOne_arrives ext (g := step ext g watchAll) hone g.store.nextWatchId
  obtain ⟨⟨second, hsecond, hrevision'⟩, -⟩ := updateOne_arrives ext hone' g.store.nextWatchId
  have hfresh : (step ext g watchAll).store.watches[g.store.nextWatchId]?
      = some ⟨g.store.nextWatchId, kernelBundleId, ⟨[], ∅⟩, []⟩ :=
    (getElem?_registerWatchPattern g.store _ _ _).trans (if_pos rfl)
  have honce := updates_register_nothing ext (step ext g watchAll) g.store.nextWatchId
  have hfiled' : (step ext g watchAll).store.WatchesFiled :=
    hfiled.of_watched (perform_watched ext g watchAll)
  obtain ⟨queue, hwatch, hrun⟩ := watch_run hfiled' hfresh
    (by simp [NoRestore, Call.restores, updateOne]) honce
  have hobserved : observed ext g.store.nextWatchId kernelBundleId ⟨[], ∅⟩ (step ext g watchAll)
      [updateOne, updateOne] = [.arrive first, .arrive second] := by
    simp only [observed, outputs, hfirst, hsecond, singleton_append]
  rw [hobserved] at hrun
  obtain ⟨hreturned, hqueue⟩ := State.mk.inj hrun
  refine ⟨_, hwatch, ?_⟩
  rw [← hreturned, ← hqueue]
  -- the first revision is the last one there is
  have hlast : first.revision = u64Size - 1 := hrevision.trans hnext
  have hzero : second.revision = 0 := by
    rw [hrevision', hnext', show (step ext g watchAll).store.nextRevision = _ from hnext]
    decide
  intro h
  have hlt := rel_of_pairwise_cons h (mem_singleton_self second)
  rw [hlast, hzero] at hlt
  exact absurd hlt (Nat.not_lt_zero _)

/-- One declaration and as many updates as it takes to issue all revisions but the last one. -/
def nearWrapRun : List Call := declareOne :: List.replicate (u64Size - 4) updateOne

/-- A watch registered just before the counter wraps delivers changes out of order. -/
theorem delivery_out_of_order :
    ∃ id watch, NoRestore (nearWrapRun ++ watchAll :: [updateOne, updateOne])
      ∧ (perform crates (reach crates nearWrapRun) watchAll).2 = .watch id
      ∧ EachStep (step crates) (fun g c => (perform crates g c).2 ≠ .watch id)
        (reach crates (nearWrapRun ++ [watchAll])) [updateOne, updateOne]
      ∧ (reach crates (nearWrapRun ++ watchAll :: [updateOne, updateOne])).store.watches[id]?
        = some watch
      ∧ ¬ (returned crates id (reach crates (nearWrapRun ++ [watchAll])) [updateOne, updateOne]
          ++ watch.queue).Pairwise fun a b => a.revision < b.revision := by
  obtain ⟨hrestore, -, hnext, hone⟩ := reach_updates (u64Size - 4) (by decide)
  rw [← nearWrapRun] at hrestore hnext hone
  -- the counter stands at the last revision
  have hlast : (reach crates nearWrapRun).store.nextRevision = u64Size - 1 :=
    hnext.trans (by decide)
  obtain ⟨watch, hwatch, horder⟩ := updates_out_of_order crates
    (reach_watchesFiled crates nearWrapRun) hlast hone
  rw [← reach_concat] at hwatch horder
  have hsplit : reach crates (nearWrapRun ++ watchAll :: [updateOne, updateOne])
      = run (step crates) (reach crates (nearWrapRun ++ [watchAll])) [updateOne, updateOne] := by
    rw [append_cons]
    exact run_append _ _ _ _
  rw [← hsplit] at hwatch
  refine ⟨_, watch, ?_, perform_watchAll _ _, updates_register_nothing _ _ _, hwatch, horder⟩
  intro c hc
  simp only [mem_append, mem_cons, not_mem_nil, or_false] at hc
  rcases hc with hc | rfl | rfl | rfl
  · exact hrestore c hc
  all_goals simp [Call.restores, watchAll, updateOne]

end GraphState

end ThingOS
