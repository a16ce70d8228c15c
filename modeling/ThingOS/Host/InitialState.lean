import ThingOS.Host.Pagination
import ThingOS.Host.WatchDelivery

/-!
# The initial state of a watch

A watch is registered with the last revision zero, so that its first poll fetches every Thing of the
store that matches. But `push_change` sets the last revision to that of each change that is queued.
A change that is committed before the first poll therefore moves it past the Things that were there
when the watch was registered, and the poll fetches none of them.

Calls are taken to run one after the other, as those of one thread do.
-/

namespace ThingOS.Host

open List

inductive Commit where
  | fiat (request : GraphFiatRequest)
  | propsSet (request : GraphPropsRequest)
  | link (request : GraphLinkRequest)

/-- The store after a call, and the change that is pushed to the watchers. -/
def Commit.apply (s : InMemoryGraphStore) : Commit → InMemoryGraphStore × Option GraphChange
  | .fiat request =>
    let (s, thing) := s.fiat (HostRuntime.labelled request)
    (s, some (.thing thing))
  | .propsSet request =>
    match s.propsSet request with
    | (s, .ok thing) => (s, some (.thing thing))
    | (s, .error _) => (s, none)
  | .link request =>
    let (s, edge) := s.link request
    (s, some (.edge edge))

namespace InMemoryGraphStore

variable (s : InMemoryGraphStore)

def commit (c : Commit) : InMemoryGraphStore := (c.apply s).1

def changes (commits : List Commit) : List GraphChange :=
  outputs commit (fun s c => (c.apply s).2.toList) s commits

/-- The watch after a sequence of calls. -/
def watching (pattern : NodePattern) (commits : List Commit) : WatchState :=
  (s.changes commits).foldl (fun w change => w.push change) ⟨pattern, [], 0⟩

/-- What the first poll of a watch returns, after some commits since it was registered. -/
def firstPoll (pattern : NodePattern) (commits : List Commit) : GraphWatchBatch :=
  let w := s.watching pattern commits
  (w.merge none w.lastRevision (fetch (run commit s commits) w.pattern w.lastRevision)).2

/-- A Thing that matched when the watch was registered and is still as it was. -/
def Initial (pattern : NodePattern) (commits : List Commit) (thing : GraphThing) : Prop :=
  ∃ id : Uuid, s.things[id]? = some thing ∧ patternMatches thing pattern = true
    ∧ (run commit s commits).things[id]? = some thing

/-! ## What the first poll returns -/

/-- The revision of the last change that matches, zero if none does. -/
def lastMatching (pattern : NodePattern) (changes : List GraphChange) : ℕ :=
  ((changes.filter (matchChange · pattern)).getLast?.map GraphChange.revision).getD 0

variable {s : InMemoryGraphStore} {pattern : NodePattern} {commits : List Commit}

/-- The watch has queued the changes that match, and its last revision is that of the last one. -/
lemma watching_eq (s : InMemoryGraphStore) (pattern : NodePattern) (commits : List Commit) :
    s.watching pattern commits
      = ⟨pattern, (s.changes commits).filter (matchChange · pattern),
        lastMatching pattern (s.changes commits)⟩ := by
  unfold watching
  induction s.changes commits using List.reverseRecOn with
  | nil => rfl
  | append_singleton changes change ih =>
    rw [foldl_append, ih, foldl_cons, foldl_nil, WatchState.push]
    cases hmatch : matchChange change pattern with
    | true => simp [lastMatching, hmatch]
    | false => simp [lastMatching, hmatch]

lemma mem_fetch {thing : GraphThing} {lastRevision : ℕ} :
    .thing thing ∈ fetch s pattern lastRevision
      ↔ (∃ id : Uuid, s.things[id]? = some thing) ∧ patternMatches thing pattern = true
        ∧ lastRevision < thing.revision := by
  have hget (t : GraphThing) : t ∈ (s.get (.pattern pattern)).filter
        (fun thing => decide (lastRevision < thing.revision))
      ↔ (∃ id : Uuid, s.things[id]? = some t) ∧ patternMatches t pattern = true
        ∧ lastRevision < t.revision := by
    rw [mem_filter, get, mem_filter, mem_mapValues, decide_eq_true_eq, and_assoc]
  constructor
  · intro h
    obtain ⟨t, ht, ⟨⟩⟩ := mem_map.mp h
    exact (hget _).mp ht
  · exact fun h => mem_map_of_mem ((hget thing).mpr h)

/-- An initial Thing is returned if it is newer than the last change that matched. -/
lemma mem_firstPoll {thing : GraphThing} (h : s.Initial pattern commits thing) :
    .thing thing ∈ (s.firstPoll pattern commits).changes
      ↔ .thing thing ∈ s.changes commits
        ∨ lastMatching pattern (s.changes commits) < thing.revision := by
  obtain ⟨id, -, hmatch, hthing⟩ := h
  have hall : ∀ (w : WatchState) lastRevision fetched,
      (w.merge none lastRevision fetched).2.changes = w.mergedQueue fetched := by
    intro w lastRevision fetched
    rw [← w.merge_split none lastRevision fetched, w.merge_queue_of_none, append_nil]
  unfold firstPoll
  rw [hall, (WatchState.mergedQueue_perm _ _).mem_iff, watching_eq, mem_append, mem_fetch,
    mem_filter]
  constructor
  · rintro (⟨hmem, -⟩ | ⟨-, -, hnewer⟩)
    · exact .inl hmem
    · exact .inr hnewer
  · rintro (hmem | hnewer)
    · exact .inl ⟨hmem, hmatch⟩
    · exact .inr ⟨⟨id, hthing⟩, hmatch, hnewer⟩

/-! ## Revisions before the counter wraps -/

/-- The revisions of the Things lie between zero and the counter. -/
structure Dated (s : InMemoryGraphStore) : Prop where
  counter : 0 < s.revision
  things : ∀ (id : Uuid) t, s.things[id]? = some t → 0 < t.revision ∧ t.revision < s.revision

lemma dated_new : new.Dated := ⟨Nat.one_pos, by simp [new]⟩

/-- A store with one more Thing, which has the revision of the counter. -/
lemma Dated.insert (h : s.Dated) (id : Uuid) {thing : GraphThing} (hthing : thing.revision
    = s.revision) (uuids : BitVec 64) :
    Dated { s with things := s.things.insert id thing, revision := s.revision + 1, uuids } := by
  refine ⟨Nat.succ_pos _, forall_insert ?_ fun other t _ ht => ?_⟩
  · rw [hthing]
    exact ⟨h.counter, Nat.lt_succ_self _⟩
  · obtain ⟨hpos, hlt⟩ := h.things other t ht
    exact ⟨hpos, Nat.lt_succ_of_lt hlt⟩

lemma Dated.commit (h : s.Dated) (hbound : s.revision + 1 < u64Size) (c : Commit) :
    (s.commit c).Dated ∧ s.revision ≤ (s.commit c).revision
      ∧ (s.commit c).revision ≤ s.revision + 1
      ∧ ∀ change ∈ (c.apply s).2, change.revision = s.revision := by
  have hnext : (s.revision + 1) % u64Size = s.revision + 1 := Nat.mod_eq_of_lt hbound
  cases c with
  | fiat request =>
    simp only [InMemoryGraphStore.commit, Commit.apply, fiat, nextRevision, hnext,
      Option.mem_some_iff, forall_eq']
    exact ⟨h.insert _ rfl _, Nat.le_succ _, le_rfl, rfl⟩
  | link request =>
    simp only [InMemoryGraphStore.commit, Commit.apply, link, nextRevision, hnext,
      Option.mem_some_iff, forall_eq']
    refine ⟨⟨Nat.succ_pos _, fun id t ht => ?_⟩, Nat.le_succ _, le_rfl, rfl⟩
    obtain ⟨hpos, hlt⟩ := h.things id t ht
    exact ⟨hpos, Nat.lt_succ_of_lt hlt⟩
  | propsSet request =>
    cases hthing : s.things[request.node]? with
    | none =>
      simp only [InMemoryGraphStore.commit, Commit.apply, propsSet, hthing]
      exact ⟨h, le_rfl, Nat.le_succ _, by simp⟩
    | some old =>
      simp only [InMemoryGraphStore.commit, Commit.apply, propsSet, hthing, nextRevision, hnext,
        Option.mem_some_iff, forall_eq']
      exact ⟨h.insert _ rfl s.uuids, Nat.le_succ _, le_rfl, rfl⟩

/-- Along a sequence of calls. -/
lemma Dated.run (h : s.Dated) (commits : List Commit)
    (hbound : s.revision + commits.length < u64Size) :
    (run InMemoryGraphStore.commit s commits).Dated
      ∧ (run InMemoryGraphStore.commit s commits).revision ≤ s.revision + commits.length
      ∧ ∀ change ∈ s.changes commits, s.revision ≤ change.revision := by
  induction commits generalizing s with
  | nil => exact ⟨h, le_rfl, by simp [changes, outputs]⟩
  | cons c commits ih =>
    rw [length_cons] at hbound
    obtain ⟨hdated, hle, hge, hchange⟩ := h.commit (by omega) c
    obtain ⟨hend, hless, hlater⟩ := ih hdated (by omega)
    refine ⟨hend, ?_, fun change hmem => ?_⟩
    · rw [run_cons, length_cons]
      omega
    · rw [changes, outputs, mem_append, Option.mem_toList] at hmem
      rcases hmem with hmem | hmem
      · exact (hchange change hmem).ge
      · exact hle.trans (hlater change hmem)

/-! ## Delivery -/

/-- The first poll returns every initial Thing exactly if each of them is newer than the last change
that was committed since and matches. In a store that was filled by fewer than `2 ^ 64` calls none
is: the initial Things are returned exactly if no change matches, or there are none. -/
theorem initial_state_iff (s : InMemoryGraphStore) (pattern : NodePattern)
    (commits : List Commit) :
    ((∀ thing, s.Initial pattern commits thing →
        .thing thing ∈ (s.firstPoll pattern commits).changes)
      ↔ ∀ thing, s.Initial pattern commits thing →
        .thing thing ∈ s.changes commits
          ∨ lastMatching pattern (s.changes commits) < thing.revision)
    ∧ ∀ filled : List Commit, s = run commit new filled →
      filled.length + commits.length + 1 < u64Size →
      ((∀ thing, s.Initial pattern commits thing →
          .thing thing ∈ (s.firstPoll pattern commits).changes)
        ↔ (∀ change ∈ s.changes commits, matchChange change pattern = false)
          ∨ ∀ thing, ¬ s.Initial pattern commits thing) := by
  refine ⟨forall_congr' fun thing => forall_congr' fun h => mem_firstPoll h, ?_⟩
  intro filled hs hbound
  have hnew : new.revision = 1 := rfl
  obtain ⟨hdated, hrevision, -⟩ := dated_new.run filled (by omega)
  rw [← hs] at hdated hrevision
  obtain ⟨-, -, hchanges⟩ := hdated.run commits (by omega)
  -- an initial Thing is older than every change since
  have hbefore : ∀ thing, s.Initial pattern commits thing →
      0 < thing.revision ∧ thing.revision < s.revision := fun thing ⟨id, hthing, _⟩ =>
    hdated.things id thing hthing
  constructor
  · intro hall
    by_contra hneither
    rw [not_or] at hneither
    obtain ⟨hsome, hinitial⟩ := hneither
    simp only [not_forall, Bool.not_eq_false] at hsome hinitial
    obtain ⟨change, hchange, hmatch⟩ := hsome
    obtain ⟨thing, hthing⟩ := hinitial
    have hthing := not_not.mp hthing
    have holder := (hbefore thing hthing).2
    rcases (mem_firstPoll hthing).mp (hall thing hthing) with hmem | hlast
    · exact absurd (hchanges _ hmem) (Nat.not_le.mpr holder)
    · have hne : (s.changes commits).filter (matchChange · pattern) ≠ [] :=
        ne_nil_of_mem (mem_filter.mpr ⟨hchange, hmatch⟩)
      have hlater := hchanges _ (mem_filter.mp (getLast_mem hne)).1
      rw [lastMatching, getLast?_eq_some_getLast hne, Option.map_some, Option.getD_some]
        at hlast
      omega
  · rintro (hnone | hnone) thing hthing
    · refine (mem_firstPoll hthing).mpr (.inr ?_)
      have hempty : (s.changes commits).filter (matchChange · pattern) = [] :=
        filter_eq_nil_iff.mpr fun change hchange => by simp [hnone change hchange]
      rw [lastMatching, hempty]
      exact (hbefore thing hthing).1
    · exact absurd hthing (hnone thing)

/-- A window is declared, a watch on windows is registered, and another window is declared. -/
def twoWindows : Commit × Commit :=
  (.fiat ⟨some 1#128, Canon.window, [], ∅⟩, .fiat ⟨some 2#128, Canon.window, [], ∅⟩)

theorem initial_window_missed :
    let s := run commit new [twoWindows.1]
    let pattern : NodePattern := ⟨[Canon.window], ∅⟩
    s.things[(1#128 : Uuid)]?.map (patternMatches · pattern) = some true
      ∧ (run commit s [twoWindows.2]).things[(1#128 : Uuid)]? = s.things[(1#128 : Uuid)]?
      ∧ (s.firstPoll pattern [twoWindows.2]).changes.map GraphChange.revision = [2]
      ∧ (s.firstPoll pattern []).changes.map GraphChange.revision = [1] := by
  decide +kernel

end InMemoryGraphStore

/-! ## The calls of a thread -/

namespace HostRuntime

def Commits (call : HostCall) : Commit → Prop
  | .fiat request => call = .fiat request
  | .propsSet request => call = .propsSet request
  | .link _ => False

variable {σ : HostRuntime} {thread : ℕ}

/-- The thread has made the commits, and the watch was told of the changes. -/
structure Made (thread : ℕ) (watch : WatchId) (w : WatchState) (commits : List Commit)
    (σ τ : HostRuntime) : Prop where
  idle : τ.threads thread = .idle
  store : τ.store = run InMemoryGraphStore.commit σ.store commits
  watched : τ.watchers[watch]?
    = some ((σ.store.changes commits).foldl (fun w change => w.push change) w)
  answers : τ.answers = σ.answers

variable {watch : WatchId} {w : WatchState}

lemma made_commit (hidle : σ.threads thread = .idle) {call : HostCall} {c : Commit}
    (hcall : Commits call c) (hwatch : σ.watchers[watch]? = some w) :
    Made thread watch w [c] σ (run step σ [(thread, .call call), (thread, .resume)]) := by
  have hpush (change : GraphChange) :
      (pushChange σ.watchers change)[watch]? = some (w.push change) := by
    simp [pushChange, hwatch]
  cases c with
  | link request => exact hcall.elim
  | fiat request =>
    cases hcall
    constructor <;> simp [run, step, hidle, start, commit, advance, InMemoryGraphStore.commit,
      InMemoryGraphStore.changes, outputs, Commit.apply, hpush]
  | propsSet request =>
    cases hcall
    cases hthing : σ.store.things[request.node]? <;> constructor <;>
      simp [run, step, hidle, start, commit, advance, InMemoryGraphStore.commit,
        InMemoryGraphStore.changes, outputs, Commit.apply, InMemoryGraphStore.propsSet, hthing,
        hwatch, hpush]

lemma made_commits {calls : List HostCall} {commits : List Commit}
    (hcalls : List.Forall₂ Commits calls commits) (hidle : σ.threads thread = .idle)
    (hwatch : σ.watchers[watch]? = some w) :
    Made thread watch w commits σ
      (run step σ (calls.flatMap fun call => [(thread, .call call), (thread, .resume)])) := by
  induction hcalls generalizing σ w with
  | nil => exact ⟨hidle, rfl, hwatch, rfl⟩
  | @cons call c calls commits hcall _ ih =>
    have hfirst := made_commit hidle hcall hwatch
    have hrest := ih hfirst.idle hfirst.watched
    rw [flatMap_cons, run_append]
    refine ⟨hrest.idle, ?_, ?_, hrest.answers.trans hfirst.answers⟩
    · rw [hrest.store, hfirst.store]
      rfl
    · rw [hrest.watched, hfirst.store]
      simp [InMemoryGraphStore.changes, outputs]

/-- A thread registers a watch, commits and polls: the answer is `firstPoll`. -/
theorem answers_firstPoll (hidle : σ.threads thread = .idle) (pattern : NodePattern)
    {calls : List HostCall} {commits : List Commit} (hcalls : List.Forall₂ Commits calls commits) :
    (run step σ ((thread, .call (.watchRegister pattern))
        :: (calls.flatMap fun call => [(thread, .call call), (thread, .resume)])
        ++ [(thread, .call (.watchPoll σ.nextWatch none)), (thread, .resume),
          (thread, .resume)])).answers
      = σ.answers ++ [(σ.nextWatch, σ.store.firstPoll pattern commits)] := by
  obtain ⟨hready, hwatching, hstore, hanswers⟩ :
      let ρ := step σ (thread, .call (.watchRegister pattern))
      ρ.threads thread = .idle ∧ ρ.watchers[σ.nextWatch]? = some ⟨pattern, [], 0⟩
        ∧ ρ.store = σ.store ∧ ρ.answers = σ.answers := by
    simp [step, hidle, start]
  have hmade := made_commits hcalls hready hwatching
  rw [cons_append, run_cons, run_append]
  generalize run step (step σ (thread, .call (.watchRegister pattern))) _ = τ at *
  obtain ⟨hidle', hstore', hwatch, hanswers'⟩ := hmade
  rw [hstore] at hstore' hwatch
  have hwatch : τ.watchers[σ.nextWatch]? = some (σ.store.watching pattern commits) := hwatch
  simp [run, step, hidle', start, advance, hwatch, hanswers'.trans hanswers, hstore',
    InMemoryGraphStore.firstPoll]

/-- The second window is declared by a thread of a new runtime. -/
theorem answers_firstPoll_window :
    let pattern : NodePattern := ⟨[Canon.window], ∅⟩
    (run step new [(0, .call (.watchRegister pattern)),
        (0, .call (.fiat ⟨some 2#128, Canon.window, [], ∅⟩)), (0, .resume),
        (0, .call (.watchPoll new.nextWatch none)), (0, .resume), (0, .resume)]).answers
      = [(new.nextWatch, new.store.firstPoll pattern [InMemoryGraphStore.twoWindows.2])] :=
  answers_firstPoll (σ := new) rfl _ (.cons (by exact rfl) .nil)

end HostRuntime

end ThingOS.Host
