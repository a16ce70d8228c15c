import ThingOS.Host.WatchMatching

/-!
# What the host's watches deliver

`HostRuntime` of `thing_host/src/lib.rs`, with calls from any number of threads. The store, the
watchers and the counters are each behind a lock or atomic, and a call takes them one after the
other. A declaration or update commits to the store and then pushes the change to the watchers. A
poll reads the pattern and the last revision of its watch, then fetches the Things that match and
are newer, and then merges them into the queue and drains it. Between these steps other threads run.

A change that is fetched between its commit and its push is returned twice. `Permitted` keeps the
windows apart: nothing is committed while a change waits to be pushed or a poll is about to fetch,
no poll starts while a change waits to be pushed, and a watch has one poll at a time. Then the fetch
finds nothing that was committed after the watch was registered, and a change is returned once and
in order.
-/

namespace ThingOS.Host

open List Function Std.ExtTreeMap Nat

/-! ## The runtime -/

structure WatchState where
  pattern : NodePattern
  queue : List GraphChange
  lastRevision : ℕ

/-- How far a thread is in its call. -/
inductive Thread where
  | idle
  /-- The store has the change, the watchers do not. -/
  | committed (change : GraphChange)
  | snapshotted (watch : WatchId) (maxEvents : Option ℕ) (pattern : NodePattern)
      (lastRevision : ℕ)
  | fetched (watch : WatchId) (maxEvents : Option ℕ) (lastRevision : ℕ)
      (changes : List GraphChange)

inductive HostCall where
  | fiat (request : GraphFiatRequest)
  | propsSet (request : GraphPropsRequest)
  | watchRegister (pattern : NodePattern)
  | watchPoll (watch : WatchId) (maxEvents : Option ℕ)

/-- A thread takes the first step of a call or the next one. -/
inductive HostAction where
  | call (c : HostCall)
  | resume

structure HostRuntime where
  store : InMemoryGraphStore
  watchers : Std.ExtTreeMap WatchId WatchState compare
  /-- An `AtomicU64`. -/
  nextWatch : ℕ
  threads : ℕ → Thread
  /-- Ghost: the Things that were committed, in order. -/
  committed : List GraphThing
  /-- Ghost: the next revision of the store at the time a watch was registered. -/
  registered : WatchId → ℕ
  /-- Ghost: the answers of the polls, in order. -/
  answers : List (WatchId × GraphWatchBatch)

def WatchState.push (change : GraphChange) (w : WatchState) : WatchState :=
  if matchChange change w.pattern then
    { w with queue := w.queue ++ [change], lastRevision := change.revision }
  else w

def pushChange (watchers : Std.ExtTreeMap WatchId WatchState compare) (change : GraphChange) :
    Std.ExtTreeMap WatchId WatchState compare :=
  watchers.map fun _ w => w.push change

/-- The Things of the store that match and are newer than the last revision. -/
def fetch (store : InMemoryGraphStore) (pattern : NodePattern) (lastRevision : ℕ) :
    List GraphChange :=
  ((store.get (.pattern pattern)).filter fun thing => decide (lastRevision < thing.revision)).map
    .thing

namespace WatchState

/-- The queue with what was fetched, sorted by revision. -/
def mergedQueue (w : WatchState) (fetched : List GraphChange) : List GraphChange :=
  (w.queue ++ fetched).mergeSort fun a b => decide (a.revision ≤ b.revision)

def latestSeen (w : WatchState) (fetched : List GraphChange) : ℕ :=
  ((w.mergedQueue fetched).map GraphChange.revision ++ [w.lastRevision]).max?.getD w.lastRevision

/-- The last step of a poll: the watch and the answer. -/
def merge (w : WatchState) (maxEvents : Option ℕ) (lastRevision : ℕ)
    (fetched : List GraphChange) : WatchState × GraphWatchBatch :=
  let queue := w.mergedQueue fetched
  let latestSeen := w.latestSeen fetched
  let drainCount := min (maxEvents.getD queue.length) queue.length
  ({ w with queue := queue.drop drainCount, lastRevision := latestSeen },
    { fromRevision := lastRevision
      latestRevision := latestSeen
      changes := queue.take drainCount })

end WatchState

def returnedTo (watch : WatchId) (answers : List (WatchId × GraphWatchBatch)) : List GraphChange :=
  (answers.filter fun answer => answer.1 == watch).flatMap fun answer => answer.2.changes

namespace HostRuntime

def new : HostRuntime where
  store := .new
  watchers := ∅
  nextWatch := 1
  threads _ := .idle
  committed := []
  registered _ := 0
  answers := []

/-- The answer of a poll without a watch. -/
def noEvents : GraphWatchBatch := ⟨0, 0, []⟩

/-- A declaration that names no label gets its kind for one. -/
def labelled (request : GraphFiatRequest) : GraphFiatRequest :=
  { request with
    labels := if request.labels.isEmpty then request.labels ++ [request.kind] else request.labels }

variable (σ : HostRuntime)

def commit (thread : ℕ) (store : InMemoryGraphStore) (thing : GraphThing) : HostRuntime :=
  { σ with
    store
    threads := update σ.threads thread (.committed (.thing thing))
    committed := σ.committed ++ [thing] }

def start (thread : ℕ) : HostCall → HostRuntime
  | .fiat request =>
    let (store, thing) := σ.store.fiat (labelled request)
    σ.commit thread store thing
  | .propsSet request =>
    match σ.store.propsSet request with
    | (store, .ok thing) => σ.commit thread store thing
    | (store, .error _) => { σ with store }
  | .watchRegister pattern =>
    { σ with
      watchers := σ.watchers.insert σ.nextWatch ⟨pattern, [], 0⟩
      nextWatch := (σ.nextWatch + 1) % u64Size
      registered := update σ.registered σ.nextWatch σ.store.revision }
  | .watchPoll watch maxEvents =>
    match σ.watchers[watch]? with
    | some w =>
      { σ with
        threads := update σ.threads thread
          (.snapshotted watch maxEvents w.pattern w.lastRevision) }
    | none => { σ with answers := σ.answers ++ [(watch, noEvents)] }

/-- The further steps of a call. -/
def advance (thread : ℕ) : HostRuntime :=
  match σ.threads thread with
  | .idle => σ
  | .committed change =>
    { σ with
      watchers := pushChange σ.watchers change
      threads := update σ.threads thread .idle }
  | .snapshotted watch maxEvents pattern lastRevision =>
    { σ with
      threads := update σ.threads thread
        (.fetched watch maxEvents lastRevision (fetch σ.store pattern lastRevision)) }
  | .fetched watch maxEvents lastRevision changes =>
    match σ.watchers[watch]? with
    | some w =>
      let (w, batch) := w.merge maxEvents lastRevision changes
      { σ with
        watchers := σ.watchers.insert watch w
        threads := update σ.threads thread .idle
        answers := σ.answers ++ [(watch, batch)] }
    | none =>
      { σ with
        threads := update σ.threads thread .idle
        answers := σ.answers ++ [(watch, noEvents)] }

/-- One step of one thread. A thread in the middle of a call starts no other. -/
def step (i : ℕ × HostAction) : HostRuntime :=
  match i.2, σ.threads i.1 with
  | .call c, .idle => σ.start i.1 c
  | .call _, _ => σ
  | .resume, _ => σ.advance i.1

def returned (watch : WatchId) : List GraphChange :=
  returnedTo watch σ.answers

/-- The watchers do not have a change that the store has. -/
def Pushing : Prop := ∃ thread change, σ.threads thread = .committed change

/-- A poll has read the last revision of its watch and not the store. -/
def Fetching : Prop :=
  ∃ thread watch maxEvents pattern lastRevision,
    σ.threads thread = .snapshotted watch maxEvents pattern lastRevision

end HostRuntime

def Thread.Polls (watch : WatchId) : Thread → Prop
  | .snapshotted other _ _ _ => other = watch
  | .fetched other _ _ _ => other = watch
  | _ => False

namespace HostRuntime

/-- The step opens no window that another thread has open. The counters do not wrap. -/
def Permitted (σ : HostRuntime) (i : ℕ × HostAction) : Prop :=
  match i.2 with
  | .call (.fiat _) | .call (.propsSet _) =>
    σ.store.revision + 1 < u64Size ∧ ¬ σ.Pushing ∧ ¬ σ.Fetching
  | .call (.watchRegister _) => σ.nextWatch + 1 < u64Size
  | .call (.watchPoll watch _) => ¬ σ.Pushing ∧ ∀ thread, ¬ (σ.threads thread).Polls watch
  | .resume => True

end HostRuntime

/-! ## Pushing and merging -/

namespace WatchState

variable {w : WatchState} {thing : GraphThing} {fetched : List GraphChange}

lemma mergedQueue_perm (w : WatchState) (fetched : List GraphChange) :
    (w.mergedQueue fetched).Perm (w.queue ++ fetched) :=
  mergeSort_perm _ _

/-- Changes of different revisions come out in order. -/
lemma mergedQueue_increasing
    (h : (w.queue ++ fetched).Pairwise fun a b => a.revision ≠ b.revision) :
    (w.mergedQueue fetched).Pairwise fun a b => a.revision < b.revision := by
  have hsorted : (w.mergedQueue fetched).Pairwise fun a b => a.revision ≤ b.revision := by
    have hle := @List.pairwise_mergeSort _ (fun a b : GraphChange =>
        decide (a.revision ≤ b.revision))
      (fun a b c hab hbc => decide_eq_true (le_trans (of_decide_eq_true hab)
        (of_decide_eq_true hbc)))
      (fun a b => by simp [le_total]) (w.queue ++ fetched)
    exact hle.imp fun hab => of_decide_eq_true hab
  have hdistinct := ((w.mergedQueue_perm fetched).pairwise_iff fun hab => Ne.symm hab).mpr h
  exact (hsorted.and hdistinct).imp fun hab => lt_of_le_of_ne hab.1 hab.2

lemma latestSeen_spec (w : WatchState) (fetched : List GraphChange) :
    (w.latestSeen fetched = w.lastRevision
        ∨ ∃ c ∈ w.queue ++ fetched, w.latestSeen fetched = c.revision)
      ∧ w.lastRevision ≤ w.latestSeen fetched
      ∧ ∀ c ∈ w.queue ++ fetched, c.revision ≤ w.latestSeen fetched := by
  unfold latestSeen
  obtain ⟨m, hm⟩ : ∃ m, ((w.mergedQueue fetched).map GraphChange.revision
      ++ [w.lastRevision]).max? = some m := by
    rw [← Option.isSome_iff_exists, isSome_max?_iff]
    simp
  rw [hm, Option.getD_some]
  obtain ⟨hmem, hle⟩ := max?_eq_some_iff.mp hm
  refine ⟨?_, hle _ (by simp), fun c hc => hle _ ?_⟩
  · rcases mem_append.mp hmem with hmem | hmem
    · obtain ⟨c, hc, rfl⟩ := mem_map.mp hmem
      exact .inr ⟨c, (w.mergedQueue_perm fetched).mem_iff.mp hc, rfl⟩
    · exact .inl (mem_singleton.mp hmem)
  · exact mem_append_left _
      (mem_map_of_mem ((w.mergedQueue_perm fetched).mem_iff.mpr hc))

/-- A poll returns the front of the merged queue and leaves the rest. -/
lemma merge_split (w : WatchState) (maxEvents : Option ℕ) (lastRevision : ℕ)
    (fetched : List GraphChange) :
    (w.merge maxEvents lastRevision fetched).2.changes
      ++ (w.merge maxEvents lastRevision fetched).1.queue = w.mergedQueue fetched :=
  take_append_drop _ _

/-- A poll without a limit empties the queue. -/
lemma merge_queue_of_none (w : WatchState) (lastRevision : ℕ) (fetched : List GraphChange) :
    (w.merge none lastRevision fetched).1.queue = [] := by
  simp [merge]

end WatchState

/-! ## One watch -/

/-- What a watch has returned and queued, with the store and the Thing that waits to be pushed. The
queue continues what was returned. Of the changes since the watch was registered it has those that
match and were pushed, and the store has no newer Thing for it. -/
structure Watched (things : Things) (committed : List GraphThing) (revision : ℕ)
    (pending : Option GraphThing) (registered : ℕ) (returned : List GraphChange)
    (w : WatchState) : Prop where
  increasing : (returned ++ w.queue).Pairwise fun a b => a.revision < b.revision
  below : ∀ c ∈ returned ++ w.queue, c.revision ≤ w.lastRevision
  last_lt : w.lastRevision < revision
  last_lt_pending : ∀ t, pending = some t → w.lastRevision < t.revision
  current : ∀ (id : Uuid) t, things[id]? = some t → patternMatches t w.pattern = true →
    registered ≤ t.revision → t.revision ≤ w.lastRevision ∨ pending = some t
  account : ∀ c, registered ≤ c.revision → (c ∈ returned ++ w.queue
    ↔ ∃ t ∈ committed, c = .thing t ∧ patternMatches t w.pattern = true ∧ pending ≠ some t)

/-- What a poll has fetched for its watch: Things from before the watch was registered, newer than
all that was returned. -/
structure Fetched (pending : Option GraphThing) (registered : ℕ) (returned : List GraphChange)
    (w : WatchState) (fetched : List GraphChange) : Prop where
  before : ∀ f ∈ fetched, f.revision < registered
  above : ∀ f ∈ fetched, ∀ c ∈ returned, c.revision < f.revision
  apart : ∀ f ∈ fetched, ∀ c ∈ w.queue, c.revision ≠ f.revision
  lt_pending : ∀ f ∈ fetched, ∀ t, pending = some t → f.revision < t.revision
  distinct : fetched.Pairwise fun a b => a.revision ≠ b.revision

section Watch

variable {things : Things} {committed : List GraphThing} {revision registered : ℕ}
  {pending : Option GraphThing} {returned fetched : List GraphChange} {w : WatchState}
  {thing : GraphThing}

lemma watched_register (pattern : NodePattern) (hpos : 0 < revision)
    (hthings : ∀ (id : Uuid) t, things[id]? = some t → t.revision < revision)
    (hcommitted : ∀ t ∈ committed, t.revision < revision)
    (hpending : ∀ t, pending = some t → 0 < t.revision) :
    Watched things committed revision pending revision [] ⟨pattern, [], 0⟩ where
  increasing := List.Pairwise.nil
  below := by simp
  last_lt := hpos
  last_lt_pending := hpending
  current id t ht _ hle := absurd (hthings id t ht) (not_lt.mpr hle)
  account c hle := by
    simp only [append_nil, not_mem_nil, false_iff]
    rintro ⟨t, ht, rfl, -⟩
    exact absurd (hcommitted t ht) (not_lt.mpr hle)

lemma Watched.commit (h : Watched things committed revision none registered returned w)
    (hthing : thing.revision = revision) (hcommitted : ∀ t ∈ committed, t.revision < revision)
    (id : Uuid) :
    Watched (things.insert id thing) (committed ++ [thing]) (revision + 1) (some thing) registered
      returned w where
  __ := h
  last_lt := lt_succ_of_lt h.last_lt
  last_lt_pending t ht := by
    rw [← Option.some.inj ht, hthing]
    exact h.last_lt
  current other t ht hmatch hle := by
    rw [Std.ExtTreeMap.getElem?_insert] at ht
    split at ht
    · exact .inr ht
    · exact .inl ((h.current other t ht hmatch hle).resolve_right (by simp))
  account c hle := by
    rw [h.account c hle]
    constructor
    · grind
    · grind

lemma Watched.push (h : Watched things committed revision (some thing) registered returned w)
    (hthing : thing.revision < revision) (hcommitted : thing ∈ committed) :
    Watched things committed revision none registered returned (w.push (.thing thing)) := by
  have hlast := h.last_lt_pending thing rfl
  by_cases hmatch : patternMatches thing w.pattern = true
  · rw [WatchState.push, matchChange, if_pos hmatch, GraphChange.revision]
    refine ⟨?_, ?_, hthing, by simp, ?_, ?_⟩
    · rw [← append_assoc]
      exact pairwise_concat.mpr ⟨h.increasing, fun c hc => (h.below c hc).trans_lt hlast⟩
    · rw [← append_assoc]
      exact forall_mem_concat.mpr ⟨fun c hc => (h.below c hc).trans hlast.le, le_rfl⟩
    · intro id t ht hmatches hle
      rcases h.current id t ht hmatches hle with hold | hnew
      · exact .inl (hold.trans hlast.le)
      · exact .inl (by rw [Option.some.inj hnew])
    · intro c hle
      rw [← append_assoc, mem_append, h.account c hle, mem_singleton]
      constructor
      · grind
      · grind
  · rw [WatchState.push, matchChange, if_neg hmatch]
    refine ⟨h.increasing, h.below, h.last_lt, by simp, ?_, ?_⟩
    · intro id t ht hmatches hle
      refine .inl ((h.current id t ht hmatches hle).resolve_right ?_)
      rintro heq
      exact hmatch (by rw [Option.some.inj heq]; exact hmatches)
    · intro c hle
      rw [h.account c hle]
      refine exists_congr fun t => and_congr_right fun _ => and_congr_right fun _ =>
        and_congr_right fun hmatches => ?_
      have hne : thing ≠ t := by
        rintro rfl
        exact hmatch hmatches
      simp [hne]

/-- While nothing waits to be pushed, a fetch finds only Things from before the registration. -/
lemma Watched.fetch {store : InMemoryGraphStore}
    (h : Watched store.things committed revision none registered returned w)
    (hdistinct : ∀ (id other : Uuid) t u, store.things[id]? = some t →
      store.things[other]? = some u → t.revision = u.revision → id = other) :
    Fetched none registered returned w (Host.fetch store w.pattern w.lastRevision) := by
  have hfound : ∀ f ∈ Host.fetch store w.pattern w.lastRevision, ∃ (id : Uuid) (t : _), f = .thing t
      ∧ store.things[id]? = some t ∧ patternMatches t w.pattern = true
      ∧ w.lastRevision < t.revision := by
    intro f hf
    obtain ⟨t, ht, rfl⟩ := mem_map.mp hf
    obtain ⟨ht, hnewer⟩ := mem_filter.mp ht
    obtain ⟨ht, hmatch⟩ := mem_filter.mp ht
    rw [mapValues_eq_filterMap] at ht
    obtain ⟨id, -, hid⟩ := mem_filterMap.mp ht
    exact ⟨id, t, rfl, hid, hmatch, of_decide_eq_true hnewer⟩
  refine ⟨?_, ?_, ?_, by simp, ?_⟩
  · intro f hf
    obtain ⟨id, t, rfl, hid, hmatch, hnewer⟩ := hfound f hf
    by_contra hle
    rcases h.current id t hid hmatch (not_lt.mp hle) with hold | hnone
    · exact absurd hnewer (not_lt.mpr hold)
    · cases hnone
  · intro f hf c hc
    obtain ⟨id, t, rfl, -, -, hnewer⟩ := hfound f hf
    exact (h.below c (mem_append_left _ hc)).trans_lt hnewer
  · intro f hf c hc
    obtain ⟨id, t, rfl, -, -, hnewer⟩ := hfound f hf
    exact ((h.below c (mem_append_right _ hc)).trans_lt hnewer).ne
  · unfold Host.fetch InMemoryGraphStore.get
    rw [pairwise_map, mapValues_eq_filterMap]
    refine List.Pairwise.filter _ (List.Pairwise.filter _ ?_)
    rw [pairwise_filterMap]
    refine List.Pairwise.imp ?_ (nodup_keys (t := store.things))
    intro id other hne t ht u hu heq
    exact hne (hdistinct id other t u ht hu heq)

lemma Fetched.commit (h : Fetched none registered returned w fetched)
    (hthing : thing.revision = revision) (hregistered : registered ≤ revision) :
    Fetched (some thing) registered returned w fetched where
  __ := h
  lt_pending f hf t ht := by
    rw [← Option.some.inj ht, hthing]
    exact (h.before f hf).trans_le hregistered

lemma Fetched.push (h : Fetched (some thing) registered returned w fetched) :
    Fetched none registered returned (w.push (.thing thing)) fetched where
  __ := h
  apart f hf := by
    unfold WatchState.push
    split
    · exact forall_mem_concat.mpr ⟨h.apart f hf, (h.lt_pending f hf thing rfl).ne'⟩
    · exact h.apart f hf
  lt_pending := by simp

/-- The fetched Things go between what was returned and what was pushed since. -/
lemma Watched.merge (h : Watched things committed revision pending registered returned w)
    (hfetched : Fetched pending registered returned w fetched)
    (hregistered : registered ≤ revision) (maxEvents : Option ℕ) (lastRevision : ℕ) :
    Watched things committed revision pending registered
      (returned ++ (w.merge maxEvents lastRevision fetched).2.changes)
      (w.merge maxEvents lastRevision fetched).1 := by
  have hsplit : returned ++ (w.merge maxEvents lastRevision fetched).2.changes
      ++ (w.merge maxEvents lastRevision fetched).1.queue = returned ++ w.mergedQueue fetched := by
    rw [append_assoc, w.merge_split]
  have hmem : ∀ c, c ∈ returned ++ w.mergedQueue fetched
      ↔ c ∈ returned ++ w.queue ∨ c ∈ fetched := by
    intro c
    rw [mem_append, (w.mergedQueue_perm fetched).mem_iff, mem_append, mem_append,
      or_assoc]
  obtain ⟨hseen, hlast, hqueue⟩ := w.latestSeen_spec fetched
  have hbound : ∀ bound, w.lastRevision < bound → (∀ f ∈ fetched, f.revision < bound) →
      w.latestSeen fetched < bound := by
    intro bound hw hf
    rcases hseen with heq | ⟨c, hc, heq⟩
    · rwa [heq]
    · rw [heq]
      rcases mem_append.mp hc with hc | hc
      · exact (h.below c (mem_append_right _ hc)).trans_lt hw
      · exact hf c hc
  obtain ⟨hreturned, hqueued, hbetween⟩ := pairwise_append.mp h.increasing
  refine ⟨?_, ?_, ?_, ?_, ?_, ?_⟩
  · rw [hsplit]
    refine pairwise_append.mpr ⟨hreturned, ?_, ?_⟩
    · refine WatchState.mergedQueue_increasing
        (pairwise_append.mpr ⟨?_, hfetched.distinct, ?_⟩)
      · exact hqueued.imp fun hlt => hlt.ne
      · exact fun c hc f hf => hfetched.apart f hf c hc
    · intro c hc d hd
      rcases mem_append.mp ((w.mergedQueue_perm fetched).mem_iff.mp hd) with hd | hd
      · exact hbetween c hc d hd
      · exact hfetched.above d hd c hc
  · intro c hc
    rw [hsplit] at hc
    rcases (hmem c).mp hc with hc | hc
    · exact (h.below c hc).trans hlast
    · exact hqueue c (mem_append_right _ hc)
  · exact hbound revision h.last_lt fun f hf => (hfetched.before f hf).trans_le hregistered
  · intro t ht
    exact hbound _ (h.last_lt_pending t ht) fun f hf => hfetched.lt_pending f hf t ht
  · intro id t ht hmatch hle
    exact (h.current id t ht hmatch hle).imp_left fun hold => hold.trans hlast
  · intro c hle
    have hold : c ∉ fetched := fun hc => absurd (hfetched.before c hc) (not_lt.mpr hle)
    rw [hsplit, hmem, or_iff_left hold]
    exact h.account c hle

end Watch

/-! ## All threads -/

variable {state : Thread} {watch : WatchId}

namespace HostRuntime

variable {σ : HostRuntime} {pending : Option (ℕ × GraphThing)} {thread : ℕ}

/-- What holds of a thread, when `pending` is the thread that is about to push, with its Thing. -/
def ThreadSound (σ : HostRuntime) (pending : Option (ℕ × GraphThing)) (thread : ℕ) : Thread → Prop
  | .idle => ∀ t, pending ≠ some (thread, t)
  | .committed change => ∃ t, pending = some (thread, t) ∧ change = .thing t
  | .snapshotted watch _ pattern lastRevision => pending = none
      ∧ ∃ w, σ.watchers[watch]? = some w ∧ w.pattern = pattern ∧ w.lastRevision = lastRevision
  | .fetched watch _ _ changes => (∀ t, pending ≠ some (thread, t))
      ∧ ∃ w, σ.watchers[watch]? = some w
        ∧ Fetched (pending.map Prod.snd) (σ.registered watch) (σ.returned watch) w changes

def PollsApart (threads : ℕ → Thread) : Prop :=
  ∀ watch a b, (threads a).Polls watch → (threads b).Polls watch → a = b

/-- The windows are apart. -/
structure Sound (σ : HostRuntime) (pending : Option (ℕ × GraphThing)) : Prop where
  positive : 0 < σ.store.revision
  things : ∀ (id : Uuid) t, σ.store.things[id]? = some t → t.revision < σ.store.revision
  distinct : ∀ (id other : Uuid) t u, σ.store.things[id]? = some t →
    σ.store.things[other]? = some u → t.revision = u.revision → id = other
  committed : ∀ t ∈ σ.committed, t.revision < σ.store.revision
  waits : ∀ thread t, pending = some (thread, t) →
    σ.threads thread = .committed (.thing t) ∧ 0 < t.revision ∧ t ∈ σ.committed
  threads : ∀ thread, ThreadSound σ pending thread (σ.threads thread)
  polls : PollsApart σ.threads
  unknown : ∀ watch, σ.nextWatch ≤ watch → σ.watchers[watch]? = none ∧ σ.returned watch = []
  registered : ∀ watch, σ.registered watch ≤ σ.store.revision
  watched : ∀ (watch : WatchId) w, σ.watchers[watch]? = some w →
    Watched σ.store.things σ.committed σ.store.revision (pending.map Prod.snd)
      (σ.registered watch) (σ.returned watch) w

lemma sound_new : Sound new none where
  positive := one_pos
  things := by simp [new, InMemoryGraphStore.new]
  distinct := by simp [new, InMemoryGraphStore.new]
  committed := by simp [new]
  waits := by simp
  threads := by simp [new, ThreadSound]
  polls := by simp [new, PollsApart, Thread.Polls]
  unknown := by simp [new, returned, returnedTo]
  registered := by simp [new]
  watched := by simp [new]

lemma Sound.pending_eq_none (h : Sound σ pending) (hpushing : ¬ σ.Pushing) : pending = none := by
  cases pending with
  | none => rfl
  | some pending => exact absurd ⟨pending.1, _, (h.waits pending.1 pending.2 rfl).1⟩ hpushing

/-- A thread that polls no watch but its own, or one that nobody polls, leaves polls apart. -/
lemma PollsApart.update {threads : ℕ → Thread} (h : PollsApart threads)
    (hstate : ∀ watch, state.Polls watch →
      (threads thread).Polls watch ∨ ∀ other, ¬ (threads other).Polls watch) :
    PollsApart (update threads thread state) := by
  have hother : ∀ watch a, a ≠ thread → state.Polls watch → ¬ (threads a).Polls watch := by
    intro watch a hne hpolls ha
    rcases hstate watch hpolls with hthread | hnone
    · exact hne (h watch a thread ha hthread)
    · exact hnone a ha
  intro watch a b ha hb
  by_cases haeq : a = thread <;> by_cases hbeq : b = thread
  · rw [haeq, hbeq]
  · subst haeq
    rw [update_self] at ha
    rw [update_of_ne hbeq] at hb
    exact absurd hb (hother watch b hbeq ha)
  · subst hbeq
    rw [update_self] at hb
    rw [update_of_ne haeq] at ha
    exact absurd ha (hother watch a haeq hb)
  · rw [update_of_ne haeq] at ha
    rw [update_of_ne hbeq] at hb
    exact h watch a b ha hb

lemma threadSound_update {σ' : HostRuntime} {pending' : Option (ℕ × GraphThing)}
    (hthread : ThreadSound σ' pending' thread state)
    (hothers : ∀ other, other ≠ thread → ThreadSound σ' pending' other (σ.threads other)) :
    ∀ other, ThreadSound σ' pending' other (update σ.threads thread state other) :=
  (forall_update_iff _ _).mpr ⟨hthread, hothers⟩

/-- A thread goes on with its call if the watch that it polls has stayed as it was. -/
lemma ThreadSound.frame {σ' : HostRuntime} (h : ThreadSound σ pending thread state)
    (hsame : ∀ watch w, state.Polls watch → σ.watchers[watch]? = some w →
      σ'.watchers[watch]? = some w ∧ σ'.registered watch = σ.registered watch
        ∧ σ'.returned watch = σ.returned watch) :
    ThreadSound σ' pending thread state := by
  cases state with
  | idle | committed => exact h
  | snapshotted watch maxEvents pattern lastRevision =>
    obtain ⟨hpending, w, hw, hread⟩ := h
    exact ⟨hpending, w, (hsame watch w rfl hw).1, hread⟩
  | fetched watch maxEvents lastRevision changes =>
    obtain ⟨hpending, w, hw, hfetched⟩ := h
    obtain ⟨hw', hregistered, hreturned⟩ := hsame watch w rfl hw
    refine ⟨hpending, w, hw', ?_⟩
    rw [hregistered, hreturned]
    exact hfetched

variable {thing : GraphThing}

lemma distinct_insert {things : Things} {revision : ℕ} (id : Uuid)
    (hbelow : ∀ (a : Uuid) t, things[a]? = some t → t.revision < revision)
    (hdistinct : ∀ (a b : Uuid) t u, things[a]? = some t → things[b]? = some u →
      t.revision = u.revision → a = b)
    (hthing : thing.revision = revision) (a b : Uuid) (t u : GraphThing)
    (ht : (things.insert id thing)[a]? = some t) (hu : (things.insert id thing)[b]? = some u)
    (heq : t.revision = u.revision) : a = b := by
  simp only [Std.ExtTreeMap.getElem?_insert, Std.LawfulEqCmp.compare_eq_iff_eq] at ht hu
  split at ht <;> split at hu <;> rename_i ha hb
  · exact ha.symm.trans hb
  · have := hbelow b u hu
    rw [← Option.some.inj ht] at heq
    omega
  · have := hbelow a t ht
    rw [← Option.some.inj hu] at heq
    omega
  · exact hdistinct a b t u ht hu heq

lemma Sound.commit (h : Sound σ none) (hfetching : ¬ σ.Fetching) {store : InMemoryGraphStore}
    {id : Uuid} (hthing : thing.revision = σ.store.revision)
    (hthings : store.things = σ.store.things.insert id thing)
    (hrevision : store.revision = σ.store.revision + 1) :
    Sound (σ.commit thread store thing) (some (thread, thing)) where
  positive := by
    simp only [HostRuntime.commit, hrevision]
    omega
  things := by
    simp only [HostRuntime.commit, hthings, hrevision]
    refine forall_insert ?_ fun other t _ ht => lt_succ_of_lt (h.things other t ht)
    rw [hthing]
    exact lt_succ_self _
  distinct := by
    simp only [HostRuntime.commit, hthings]
    exact distinct_insert id h.things h.distinct hthing
  committed := by
    simp only [HostRuntime.commit, hrevision]
    exact forall_mem_concat.mpr ⟨fun t ht => lt_succ_of_lt (h.committed t ht),
      hthing ▸ lt_succ_self _⟩
  waits other t ht := by
    cases ht
    exact ⟨update_self _ _ _, hthing ▸ h.positive,
      mem_append_right _ mem_cons_self⟩
  threads := by
    refine threadSound_update ⟨thing, rfl, rfl⟩ fun other hother => ?_
    have hold := h.threads other
    have hne : ∀ t, some (thread, thing) ≠ some (other, t) := by
      rintro t heq
      cases heq
      exact hother rfl
    cases hstate : σ.threads other with
    | idle => exact hne
    | committed change =>
      rw [hstate] at hold
      obtain ⟨t, hnone, -⟩ := hold
      cases hnone
    | snapshotted watch maxEvents pattern lastRevision =>
      exact absurd ⟨other, watch, maxEvents, pattern, lastRevision, hstate⟩ hfetching
    | fetched watch maxEvents lastRevision changes =>
      rw [hstate] at hold
      obtain ⟨-, w, hw, hfetched⟩ := hold
      exact ⟨hne, w, hw, hfetched.commit hthing (h.registered watch)⟩
  polls := h.polls.update fun _ hpolls => hpolls.elim
  unknown := h.unknown
  registered watch := by
    simp only [HostRuntime.commit, hrevision]
    exact le_succ_of_le (h.registered watch)
  watched watch w hw := by
    simp only [HostRuntime.commit, hthings, hrevision]
    exact (h.watched watch w hw).commit hthing h.committed id

lemma getElem?_pushChange (watchers : Std.ExtTreeMap WatchId WatchState compare)
    (change : GraphChange) (watch : WatchId) :
    (pushChange watchers change)[watch]? = watchers[watch]?.map (WatchState.push change) := by
  simp [pushChange]

lemma Sound.push (h : Sound σ (some (thread, thing))) :
    Sound { σ with
      watchers := pushChange σ.watchers (.thing thing)
      threads := update σ.threads thread .idle } none := by
  refine { h with waits := by simp, threads := ?_, polls := ?_, unknown := ?_, watched := ?_ }
  · refine threadSound_update (by simp [ThreadSound]) fun other hother => ?_
    have hold := h.threads other
    cases hstate : σ.threads other with
    | idle => simp [ThreadSound]
    | committed change =>
      rw [hstate] at hold
      obtain ⟨t, heq, -⟩ := hold
      cases heq
      exact absurd rfl hother
    | snapshotted watch maxEvents pattern lastRevision =>
      rw [hstate] at hold
      cases hold.1
    | fetched watch maxEvents lastRevision changes =>
      rw [hstate] at hold
      obtain ⟨-, w, hw, hfetched⟩ := hold
      refine ⟨by simp, w.push (.thing thing), ?_, hfetched.push⟩
      rw [getElem?_pushChange, hw]
      rfl
  · exact h.polls.update fun _ hpolls => hpolls.elim
  · intro watch hwatch
    rw [getElem?_pushChange, (h.unknown watch hwatch).1]
    exact ⟨rfl, (h.unknown watch hwatch).2⟩
  · intro watch w hw
    rw [getElem?_pushChange] at hw
    obtain ⟨v, hv, rfl⟩ := Option.map_eq_some_iff.mp hw
    have hcommitted := (h.waits thread thing rfl).2.2
    exact (h.watched watch v hv).push (h.committed thing hcommitted) hcommitted

lemma Sound.register (h : Sound σ pending) (pattern : NodePattern) :
    Sound { σ with
      watchers := σ.watchers.insert σ.nextWatch ⟨pattern, [], 0⟩
      nextWatch := σ.nextWatch + 1
      registered := update σ.registered σ.nextWatch σ.store.revision } pending := by
  obtain ⟨hnone, hreturned⟩ := h.unknown σ.nextWatch le_rfl
  have hne : ∀ {watch : WatchId} {w}, σ.watchers[watch]? = some w → watch ≠ σ.nextWatch := by
    rintro watch w hw rfl
    cases hnone.symm.trans hw
  have hkeep : ∀ {watch : WatchId}, watch ≠ σ.nextWatch →
      (σ.watchers.insert σ.nextWatch ⟨pattern, [], 0⟩)[watch]? = σ.watchers[watch]? :=
    fun hwatch => getElem?_insert_of_ne hwatch.symm
  refine ⟨h.positive, h.things, h.distinct, h.committed, h.waits, ?_, h.polls, ?_, ?_, ?_⟩
  · intro other
    refine (h.threads other).frame fun watch w _ hw => ⟨(hkeep (hne hw)).trans hw, ?_, rfl⟩
    exact update_of_ne (hne hw) _ _
  · intro watch hwatch
    obtain ⟨hmissing, hempty⟩ := h.unknown watch (le_of_succ_le hwatch)
    exact ⟨(hkeep (ne_of_gt hwatch)).trans hmissing, hempty⟩
  · intro watch
    simp only [update_apply]
    split
    · exact le_rfl
    · exact h.registered watch
  · intro watch w hw
    simp only at hw ⊢
    by_cases hwatch : watch = σ.nextWatch
    · subst hwatch
      rw [getElem?_insert_self, Option.some.injEq] at hw
      subst hw
      have hregister := @watched_register σ.store.things σ.committed σ.store.revision
        (pending.map Prod.snd) pattern h.positive h.things h.committed ?_
      · rw [update_self]
        change Watched _ _ _ _ _ (σ.returned σ.nextWatch) _
        rw [hreturned]
        exact hregister
      · rintro t ht
        obtain ⟨⟨other, u⟩, hpending, rfl⟩ := Option.map_eq_some_iff.mp ht
        exact (h.waits other u hpending).2.1
    · rw [hkeep hwatch] at hw
      rw [update_of_ne hwatch]
      exact h.watched watch w hw

lemma Sound.snapshot (h : Sound σ none) {w : WatchState}
    (hw : σ.watchers[watch]? = some w) (hpolls : ∀ other, ¬ (σ.threads other).Polls watch)
    (maxEvents : Option ℕ) :
    Sound { σ with
      threads := update σ.threads thread
        (.snapshotted watch maxEvents w.pattern w.lastRevision) } none :=
  { h with
    waits := by simp
    threads := threadSound_update ⟨rfl, w, hw, rfl, rfl⟩ fun other _ => h.threads other
    polls := h.polls.update fun other hother => .inr (by
      obtain rfl : watch = other := hother
      exact hpolls) }

lemma Sound.fetch (h : Sound σ pending) {maxEvents : Option ℕ}
    {pattern : NodePattern} {lastRevision : ℕ}
    (hthread : σ.threads thread = .snapshotted watch maxEvents pattern lastRevision) :
    Sound { σ with
      threads := update σ.threads thread
        (.fetched watch maxEvents lastRevision (Host.fetch σ.store pattern lastRevision)) }
      pending := by
  have hsound := h.threads thread
  rw [hthread] at hsound
  obtain ⟨rfl, w, hw, rfl, rfl⟩ := hsound
  refine { h with waits := by simp, threads := ?_, polls := ?_ }
  · refine threadSound_update ⟨by simp, w, hw, ?_⟩ fun other _ => h.threads other
    exact (h.watched watch w hw).fetch h.distinct
  · refine h.polls.update fun other hother => .inl ?_
    rw [hthread]
    exact hother

lemma returnedTo_concat (answers : List (WatchId × GraphWatchBatch)) (watch other : WatchId)
    (batch : GraphWatchBatch) :
    returnedTo other (answers ++ [(watch, batch)])
      = if watch = other then returnedTo other answers ++ batch.changes
        else returnedTo other answers := by
  simp only [returnedTo, filter_append, flatMap_append]
  split
  · rename_i heq
    simp [heq]
  · rename_i hne
    simp [hne]

lemma Sound.merge (h : Sound σ pending) {maxEvents : Option ℕ}
    {lastRevision : ℕ} {changes : List GraphChange} {w : WatchState}
    (hthread : σ.threads thread = .fetched watch maxEvents lastRevision changes)
    (hw : σ.watchers[watch]? = some w) :
    Sound { σ with
      watchers := σ.watchers.insert watch (w.merge maxEvents lastRevision changes).1
      threads := update σ.threads thread .idle
      answers := σ.answers ++ [(watch, (w.merge maxEvents lastRevision changes).2)] } pending := by
  have hsound := h.threads thread
  rw [hthread] at hsound
  obtain ⟨hpending, w', hw', hfetched⟩ := hsound
  obtain rfl : w' = w := Option.some.inj (hw'.symm.trans hw)
  have hkeep : ∀ {other : WatchId}, watch ≠ other →
      (σ.watchers.insert watch (w'.merge maxEvents lastRevision changes).1)[other]?
        = σ.watchers[other]? := getElem?_insert_of_ne
  have hreturned := fun other => returnedTo_concat σ.answers watch other
    (w'.merge maxEvents lastRevision changes).2
  -- no other thread polls this watch
  have hpolls : ∀ other, other ≠ thread → ¬ (σ.threads other).Polls watch := by
    intro other hother hpoll
    exact hother (h.polls watch other thread hpoll (by rw [hthread]; rfl))
  refine ⟨h.positive, h.things, h.distinct, h.committed, ?_, ?_, ?_, ?_, h.registered, ?_⟩
  · grind [h.waits]
  · refine threadSound_update hpending fun other hother => (h.threads other).frame ?_
    intro watch' v hpoll hv
    have hne : watch ≠ watch' := by
      rintro rfl
      exact hpolls other hother hpoll
    exact ⟨(hkeep hne).trans hv, rfl, (hreturned watch').trans (if_neg hne)⟩
  · exact h.polls.update fun _ hpoll => hpoll.elim
  · intro other hother
    obtain ⟨hnone, hempty⟩ := h.unknown other hother
    have hne : watch ≠ other := by
      rintro rfl
      cases hnone.symm.trans hw
    rw [returned, hreturned other, if_neg hne]
    exact ⟨(hkeep hne).trans hnone, hempty⟩
  · intro other v hv
    rw [returned, hreturned other]
    by_cases hother : watch = other
    · subst hother
      rw [getElem?_insert_self, Option.some.injEq] at hv
      subst hv
      rw [if_pos rfl]
      exact (h.watched watch w' hw).merge hfetched (h.registered watch) maxEvents lastRevision
    · rw [hkeep hother] at hv
      rw [if_neg hother]
      exact h.watched other v hv

lemma Sound.noWatch (h : Sound σ pending) (watch : WatchId) :
    Sound { σ with answers := σ.answers ++ [(watch, noEvents)] } pending := by
  have hreturned : ∀ other, returnedTo other (σ.answers ++ [(watch, noEvents)])
      = σ.returned other := by
    intro other
    rw [returnedTo_concat, show noEvents.changes = [] from rfl, append_nil, ite_self]
    rfl
  refine ⟨h.positive, h.things, h.distinct, h.committed, h.waits, ?_, h.polls, ?_, h.registered, ?_⟩
  · intro other
    exact (h.threads other).frame fun watch' w _ hw => ⟨hw, rfl, hreturned watch'⟩
  · intro other hother
    rw [returned, hreturned]
    exact h.unknown other hother
  · intro other w hw
    rw [returned, hreturned]
    exact h.watched other w hw

/-! ## Runs -/

/-- The first step of a call keeps the windows apart. -/
lemma Sound.start (h : Sound σ pending) {c : HostCall}
    (hpermitted : σ.Permitted (thread, .call c)) :
    ∃ pending', Sound (σ.start thread c) pending' := by
  cases c with
  | fiat request =>
    obtain ⟨hbound, hpushing, hfetching⟩ := hpermitted
    obtain rfl := h.pending_eq_none hpushing
    exact ⟨_, h.commit hfetching rfl rfl (mod_eq_of_lt hbound)⟩
  | propsSet request =>
    obtain ⟨hbound, hpushing, hfetching⟩ := hpermitted
    obtain rfl := h.pending_eq_none hpushing
    simp only [HostRuntime.start, InMemoryGraphStore.propsSet]
    cases σ.store.things[request.node]? with
    | some thing => exact ⟨_, h.commit hfetching rfl rfl (mod_eq_of_lt hbound)⟩
    | none => exact ⟨none, h⟩
  | watchRegister pattern =>
    have hnext : (σ.nextWatch + 1) % u64Size = σ.nextWatch + 1 := mod_eq_of_lt hpermitted
    simp only [HostRuntime.start, hnext]
    exact ⟨pending, h.register pattern⟩
  | watchPoll watch maxEvents =>
    obtain ⟨hpushing, hpolls⟩ := hpermitted
    obtain rfl := h.pending_eq_none hpushing
    simp only [HostRuntime.start]
    cases hw : σ.watchers[watch]? with
    | some w => exact ⟨none, h.snapshot hw hpolls maxEvents⟩
    | none => exact ⟨none, h.noWatch watch⟩

/-- So do the further steps. -/
lemma Sound.advance (h : Sound σ pending) (thread : ℕ) :
    ∃ pending', Sound (σ.advance thread) pending' := by
  have hsound := h.threads thread
  unfold HostRuntime.advance
  cases hstate : σ.threads thread with
  | idle => exact ⟨pending, h⟩
  | committed change =>
    rw [hstate] at hsound
    obtain ⟨t, rfl, rfl⟩ := hsound
    exact ⟨none, h.push⟩
  | snapshotted watch maxEvents pattern lastRevision => exact ⟨pending, h.fetch hstate⟩
  | fetched watch maxEvents lastRevision changes =>
    rw [hstate] at hsound
    obtain ⟨-, w, hw, -⟩ := hsound
    simp only [hw]
    exact ⟨pending, h.merge hstate hw⟩

lemma Sound.step (h : Sound σ pending) {i : ℕ × HostAction} (hpermitted : σ.Permitted i) :
    ∃ pending', Sound (σ.step i) pending' := by
  obtain ⟨thread, action⟩ := i
  cases action with
  | resume => exact h.advance thread
  | call c =>
    unfold HostRuntime.step
    cases hstate : σ.threads thread with
    | idle => exact h.start hpermitted
    | committed | snapshotted | fetched => exact ⟨pending, h⟩

/-- A watch has returned changes in increasing revision order, a matching change since its
registration that is not waiting to be pushed stands once in what it has returned and queued, and a
poll without a limit leaves nothing queued. -/
structure Delivers (σ : HostRuntime) (watch : WatchId) (w : WatchState) : Prop where
  increasing : (σ.returned watch).Pairwise fun a b => a.revision < b.revision
  once : ∀ t ∈ σ.committed, σ.registered watch ≤ t.revision →
    matchChange (.thing t) w.pattern = true →
    (∀ thread, σ.threads thread ≠ .committed (.thing t)) →
    (σ.returned watch ++ w.queue).count (.thing t) = 1
  drained : ∀ thread lastRevision changes,
    σ.threads thread = .fetched watch none lastRevision changes →
    ((σ.step (thread, .resume)).watchers[watch]?).map WatchState.queue = some []

/-- In a run in which the windows of the calls are kept apart, every watch delivers. -/
theorem host_watch_delivery (inputs : List (ℕ × HostAction))
    (hsteps : EachStep step Permitted new inputs) (watch : WatchId) (w : WatchState)
    (hw : (run step new inputs).watchers[watch]? = some w) :
    (run step new inputs).Delivers watch w := by
  obtain ⟨pending, h⟩ := run_invariant_of_eachStep (P := fun σ => ∃ pending, Sound σ pending) hsteps
    ⟨none, sound_new⟩ fun _ _ hpermitted ⟨_, h⟩ => h.step hpermitted
  generalize run step new inputs = σ at *
  have hwatched := h.watched watch w hw
  refine ⟨(pairwise_append.mp hwatched.increasing).1, ?_, ?_⟩
  · intro t ht hle hmatch hpushed
    refine count_eq_one_of_mem ?_ ?_
    · exact hwatched.increasing.imp fun hlt heq => absurd (congrArg GraphChange.revision heq) hlt.ne
    · refine (hwatched.account (.thing t) hle).mpr ⟨t, ht, rfl, hmatch, fun hpending => ?_⟩
      obtain ⟨⟨thread, u⟩, heq, rfl⟩ := Option.map_eq_some_iff.mp hpending
      exact hpushed thread (h.waits thread u heq).1
  · intro thread lastRevision changes hthread
    simp only [HostRuntime.step, HostRuntime.advance, hthread, hw]
    rw [getElem?_insert_self, Option.map_some, WatchState.merge_queue_of_none]

/-- The pattern that every Thing matches. -/
def anything : NodePattern := ⟨[], ∅⟩

/-- A watch is registered, the first thread declares a Thing, and then a second one polls. -/
def pollRun : List (ℕ × HostAction) :=
  [(0, .call (.watchRegister anything)), (0, .call (.fiat ⟨some 1#128, Canon.window, [], ∅⟩)),
    (0, .resume), (1, .call (.watchPoll 1 none)), (1, .resume), (1, .resume)]

lemma pollRun_permitted : EachStep step Permitted new pollRun := by
  have hidle : ∀ {σ : HostRuntime}, (∀ thread, σ.threads thread = .idle) →
      ¬ σ.Pushing ∧ ¬ σ.Fetching ∧ ∀ thread watch, ¬ (σ.threads thread).Polls watch := by
    intro σ h
    refine ⟨?_, ?_, ?_⟩
    · rintro ⟨thread, change, hthread⟩
      cases (h thread).symm.trans hthread
    · rintro ⟨thread, watch, maxEvents, pattern, lastRevision, hthread⟩
      cases (h thread).symm.trans hthread
    · intro thread watch
      rw [h thread]
      exact id
  refine eachStep_cons.mpr ⟨show 1 + 1 < u64Size by decide, eachStep_cons.mpr ⟨⟨?_, ?_⟩, ?_⟩⟩
  · decide
  · obtain ⟨hpushing, hfetching, -⟩ := @hidle (new.step (0, .call (.watchRegister anything)))
      fun _ => rfl
    exact ⟨hpushing, hfetching⟩
  · refine eachStep_cons.mpr ⟨trivial, eachStep_cons.mpr ⟨?_, eachStep_cons.mpr
      ⟨trivial, eachStep_cons.mpr ⟨trivial, eachStep_nil _⟩⟩⟩⟩
    obtain ⟨hpushing, -, hpolls⟩ := @hidle (((new.step (0, .call (.watchRegister anything))).step
      (0, .call (.fiat ⟨some 1#128, Canon.window, [], ∅⟩))).step (0, .resume)) fun thread => by
        by_cases h : thread = 0
        · subst h
          rfl
        · exact (update_of_ne h _ _).trans (update_of_ne h _ _)
    exact ⟨hpushing, fun thread => hpolls thread 1⟩

theorem host_watch_delivery_pollRun :
    ∃ w, (run step new pollRun).watchers[(1 : WatchId)]? = some w
      ∧ (run step new pollRun).Delivers 1 w := by
  obtain ⟨w, hw⟩ := Option.isSome_iff_exists.mp (show
    ((run step new pollRun).watchers[(1 : WatchId)]?).isSome = true by decide +kernel)
  exact ⟨w, hw, host_watch_delivery pollRun pollRun_permitted 1 w hw⟩

/-- As before, but the first poll comes between the commit and the push, and there is a second. -/
def raceRun : List (ℕ × HostAction) :=
  [(0, .call (.watchRegister anything)), (0, .call (.fiat ⟨some 1#128, Canon.window, [], ∅⟩)),
    (1, .call (.watchPoll 1 none)), (1, .resume), (1, .resume), (0, .resume),
    (1, .call (.watchPoll 1 none)), (1, .resume), (1, .resume)]

/-- The first poll fetches the Thing and the second finds it in the queue. -/
theorem watch_delivers_twice : ((run step new raceRun).returned 1).map GraphChange.revision = [1, 1]
      ∧ ∀ w, ¬ (run step new raceRun).Delivers 1 w := by
  have hreturned : ((run step new raceRun).returned 1).map GraphChange.revision = [1, 1] := by
    decide +kernel
  refine ⟨hreturned, fun w h => ?_⟩
  have hincreasing := pairwise_map.mpr h.increasing
  rw [hreturned] at hincreasing
  simp at hincreasing

end HostRuntime

end ThingOS.Host
