import ThingOS.Host.Pagination

/-!
# Revisions under concurrent writers

`InMemoryGraphStore` of `thing_host/src/store.rs` with any number of threads. A declaration takes
its revision from the counter first and locks the map of Things only to insert; another thread may
write the same id with a later revision in between. An update takes its revision while it holds the
lock, so taking and writing are one step.

A write is overtaken if its id was written before with a larger revision. The revisions of the store
never go back exactly as long as no write is overtaken.
-/

namespace ThingOS.Host

structure Writers where
  store : InMemoryGraphStore
  /-- What a thread has numbered and not inserted. -/
  pending : ℕ → Option GraphThing
  /-- Ghost: how many revisions were taken. -/
  taken : ℕ
  /-- Ghost: what was written, in order. -/
  written : List GraphThing

/-- A step of a thread: a declaration takes its revision, it inserts, or an update runs. -/
inductive WriteAction where
  | fiat (request : GraphFiatRequest)
  | insert
  | propsSet (request : GraphPropsRequest)

variable {σ : Writers}

namespace Writers

def new : Writers where
  store := .new
  pending _ := none
  taken := 0
  written := []

/-- The first step of `fiat`. -/
def take (σ : Writers) (thread : ℕ) (request : GraphFiatRequest) : Writers :=
  let (id, uuids) := idOrNext request.id σ.store.uuids
  let (revision, store) := σ.store.nextRevision
  { σ with
    store := { store with uuids }
    pending := Function.update σ.pending thread
      (some (InMemoryGraphStore.fiatThing id request revision))
    taken := σ.taken + 1 }

/-- The second step of `fiat`. -/
def insert (σ : Writers) (thread : ℕ) (thing : GraphThing) : Writers :=
  { σ with
    store := { σ.store with things := σ.store.things.insert thing.id thing }
    pending := Function.update σ.pending thread none
    written := σ.written ++ [thing] }

def propsSet (σ : Writers) (request : GraphPropsRequest) : Writers :=
  match σ.store.propsSet request with
  | (store, .ok thing) =>
    { σ with store, taken := σ.taken + 1, written := σ.written ++ [thing] }
  | (store, .error _) => { σ with store }

/-- One step of one thread. A thread in the middle of a declaration starts nothing else. -/
def step (σ : Writers) (i : ℕ × WriteAction) : Writers :=
  match i.2, σ.pending i.1 with
  | .fiat request, none => σ.take i.1 request
  | .insert, some thing => σ.insert i.1 thing
  | .propsSet request, none => σ.propsSet request
  | _, _ => σ

def writes (σ : Writers) (i : ℕ × WriteAction) : Option (Uuid × ℕ) :=
  match i.2, σ.pending i.1 with
  | .insert, some thing => some (thing.id, thing.revision)
  | .propsSet request, none => σ.store.things[request.node]?.map fun _ =>
      (request.node, σ.store.revision)
  | _, _ => none

/-- The step does not write an id that was written with a larger revision. -/
def InOrder (σ : Writers) (i : ℕ × WriteAction) : Prop :=
  ∀ id revision, σ.writes i = some (id, revision) →
    ∀ w ∈ σ.written, w.id = id → w.revision ≤ revision

/-! ## What a step does -/

/-- A step writes one Thing, under the id and the revision it announces, or none. -/
lemma step_cases (hfiled : Filed σ.store.things) (i : ℕ × WriteAction) :
    (σ.writes i = none ∧ (σ.step i).store.things = σ.store.things
        ∧ (σ.step i).written = σ.written)
      ∨ ∃ thing, σ.writes i = some (thing.id, thing.revision)
        ∧ (σ.step i).store.things = σ.store.things.insert thing.id thing
        ∧ (σ.step i).written = σ.written ++ [thing] := by
  obtain ⟨thread, action⟩ := i
  cases hpending : σ.pending thread with
  | some thing =>
    cases action with
    | insert => exact .inr ⟨thing, by simp [writes, step, hpending, insert]⟩
    | fiat | propsSet => exact .inl (by simp [writes, step, hpending])
  | none =>
    cases action with
    | fiat request =>
      exact .inl (by simp [writes, step, hpending, take, InMemoryGraphStore.nextRevision])
    | insert => exact .inl (by simp [writes, step, hpending])
    | propsSet request =>
      cases hthing : σ.store.things[request.node]? with
      | none =>
        exact .inl (by simp [writes, step, hpending, propsSet, InMemoryGraphStore.propsSet, hthing])
      | some old =>
        refine .inr ⟨{ old with
          fields := InMemoryGraphStore.extend old.fields request.props
          revision := σ.store.revision }, ?_⟩
        simp [writes, step, hpending, propsSet, InMemoryGraphStore.propsSet,
          InMemoryGraphStore.nextRevision, hthing, hfiled request.node old hthing]

/-- Each Thing of the store was written, and is filed under its id. -/
structure Stored (σ : Writers) : Prop where
  filed : Filed σ.store.things
  written : ∀ (id : Uuid) t, σ.store.things[id]? = some t → t ∈ σ.written

lemma stored_new : new.Stored := ⟨filed_empty, by simp [new, InMemoryGraphStore.new]⟩

lemma Stored.step (h : σ.Stored) (i : ℕ × WriteAction) : (σ.step i).Stored := by
  rcases step_cases h.filed i with ⟨-, hthings, hwritten⟩ | ⟨thing, -, hthings, hwritten⟩
  · exact ⟨hthings ▸ h.filed, by rw [hthings, hwritten]; exact h.written⟩
  · refine ⟨hthings ▸ Filed.insert h.filed rfl, fun id t ht => ?_⟩
    rw [hthings] at ht
    rw [hwritten]
    by_cases heq : thing.id = id
    · rw [heq, Std.ExtTreeMap.getElem?_insert_self] at ht
      cases ht
      exact List.mem_append_right _ (List.mem_singleton_self _)
    · rw [getElem?_insert_of_ne heq] at ht
      exact List.mem_append_left _ (h.written id t ht)

/-! ## The largest revision -/

/-- Under every id that was written stands the Thing with the largest revision of those written
there. -/
def Latest (σ : Writers) : Prop :=
  ∀ w ∈ σ.written, ∃ t, σ.store.things[w.id]? = some t ∧ t ∈ σ.written ∧ w.revision ≤ t.revision

/-- The step takes no Thing away and no revision back. -/
def NotBack (σ : Writers) (i : ℕ × WriteAction) : Prop :=
  ∀ (id : Uuid) t, σ.store.things[id]? = some t →
    ∃ t', (σ.step i).store.things[id]? = some t' ∧ t.revision ≤ t'.revision

/-- A step that takes no revision back keeps the largest ones in place. -/
lemma Latest.of_notBack (hstored : σ.Stored) (h : σ.Latest) {i : ℕ × WriteAction}
    (hback : σ.NotBack i) : (σ.step i).Latest := by
  intro w hw
  have hold (hw : w ∈ σ.written) : ∃ t, (σ.step i).store.things[w.id]? = some t
      ∧ t ∈ (σ.step i).written ∧ w.revision ≤ t.revision := by
    obtain ⟨t, ht, -, hle⟩ := h w hw
    obtain ⟨t', ht', hle'⟩ := hback w.id t ht
    exact ⟨t', ht', (hstored.step i).written w.id t' ht', hle.trans hle'⟩
  rcases step_cases hstored.filed i with ⟨-, -, hwritten⟩ | ⟨thing, -, hthings, hwritten⟩
  · rw [hwritten] at hw
    exact hold hw
  · grind

/-- Where the largest revisions stand, a step takes none back exactly if it writes in order. -/
lemma latest_step_iff (hstored : σ.Stored) (h : σ.Latest) (i : ℕ × WriteAction) :
    (σ.step i).Latest ↔ σ.InOrder i := by
  rcases step_cases hstored.filed i with ⟨hnone, hthings, hwritten⟩
    | ⟨thing, hwrites, hthings, hwritten⟩
  · refine iff_of_true ?_ fun id revision hsome => ?_
    · unfold Latest
      rw [hthings, hwritten]
      exact h
    · rw [hnone] at hsome
      cases hsome
  constructor
  · intro hlatest id revision hsome w hw hid
    rw [hwrites] at hsome
    cases hsome
    obtain ⟨t, ht, -, hle⟩ := hlatest w (hwritten ▸ List.mem_append_left _ hw)
    rw [hthings, hid, Std.ExtTreeMap.getElem?_insert_self] at ht
    cases ht
    exact hle
  · intro horder
    refine h.of_notBack hstored fun id t ht => ?_
    rw [hthings]
    by_cases heq : thing.id = id
    · subst heq
      refine ⟨thing, Std.ExtTreeMap.getElem?_insert_self, ?_⟩
      exact horder _ _ hwrites t (hstored.written _ t ht) (hstored.filed _ t ht)
    · exact ⟨t, by rw [getElem?_insert_of_ne heq]; exact ht, le_rfl⟩

/-! ## The counter -/

/-- No revision is larger than their number. -/
structure Numbered (σ : Writers) : Prop where
  counter : σ.store.revision = (σ.taken + 1) % u64Size
  written : ∀ w ∈ σ.written, w.revision ≤ σ.taken
  pending : ∀ thread thing, σ.pending thread = some thing → thing.revision ≤ σ.taken

lemma numbered_new : new.Numbered := ⟨rfl, by simp [new], by simp [new]⟩

lemma Numbered.step (h : σ.Numbered) (i : ℕ × WriteAction) : (σ.step i).Numbered := by
  have hrevision : σ.store.revision ≤ σ.taken + 1 := h.counter ▸ Nat.mod_le _ _
  have hnext : (σ.store.revision + 1) % u64Size = (σ.taken + 1 + 1) % u64Size := by
    rw [h.counter, Nat.mod_add_mod]
  obtain ⟨thread, action⟩ := i
  cases hpending : σ.pending thread with
  | some thing =>
    cases action with
    | fiat | propsSet => simpa only [Writers.step, hpending] using h
    | insert =>
      simp only [Writers.step, hpending, insert]
      refine ⟨h.counter, forall_mem_concat.mpr ⟨h.written, h.pending thread thing hpending⟩,
        fun other t ht => ?_⟩
      · by_cases heq : other = thread
        · subst heq
          simp at ht
        · simp only [Function.update_of_ne heq] at ht
          exact h.pending other t ht
  | none =>
    cases action with
    | insert => simpa only [Writers.step, hpending] using h
    | fiat request =>
      simp only [Writers.step, hpending, take, InMemoryGraphStore.nextRevision]
      refine ⟨hnext, fun w hw => (h.written w hw).trans (Nat.le_succ _), fun other t ht => ?_⟩
      by_cases heq : other = thread
      · subst heq
        simp only [Function.update_self, Option.some.injEq] at ht
        subst ht
        exact hrevision
      · simp only [Function.update_of_ne heq] at ht
        exact (h.pending other t ht).trans (Nat.le_succ _)
    | propsSet request =>
      simp only [Writers.step, hpending, propsSet, InMemoryGraphStore.propsSet]
      cases σ.store.things[request.node]? with
      | none => exact h
      | some old =>
        exact ⟨hnext, forall_mem_concat.mpr ⟨fun w hw => (h.written w hw).trans (Nat.le_succ _),
          hrevision⟩, fun other t ht => (h.pending other t ht).trans (Nat.le_succ _)⟩

/-- Before the counter wraps, an update takes a revision larger than all that were written. -/
lemma Numbered.inOrder_propsSet (h : σ.Numbered) (hbound : σ.taken + 1 < u64Size)
    (thread : ℕ) (request : GraphPropsRequest) : σ.InOrder (thread, .propsSet request) := by
  intro id revision hsome w hw _
  have hrevision : revision = σ.store.revision := by
    grind [writes]
  rw [hrevision, h.counter, Nat.mod_eq_of_lt hbound]
  exact (h.written w hw).trans (Nat.le_succ _)

/-! ## Whole runs -/

lemma latest_of_notBack {actions : List (ℕ × WriteAction)}
    (h : EachStep step NotBack new actions) : (run step new actions).Latest := by
  have hboth : (run step new actions).Stored ∧ (run step new actions).Latest :=
    run_invariant_of_eachStep (P := fun σ => σ.Stored ∧ σ.Latest) h
      ⟨stored_new, by simp [Latest, new]⟩
      fun _ i hback hσ => ⟨hσ.1.step i, hσ.2.of_notBack hσ.1 hback⟩
  exact hboth.2

/-- In every interleaving, the revision stored for an id never goes back and the Thing left under it
is the one with the largest revision of those written there, exactly if every write is in order.
Only a declaration can be out of order, as long as fewer than `2 ^ 64` revisions were taken. -/
theorem revisions_monotone_iff (actions : List (ℕ × WriteAction)) :
    (EachStep step NotBack new actions ∧ (run step new actions).Latest
        ↔ EachStep step InOrder new actions)
      ∧ ∀ pre thread request post, actions = pre ++ (thread, .propsSet request) :: post →
        (run step new pre).taken + 1 < u64Size →
        (run step new pre).InOrder (thread, .propsSet request) := by
  have hstored : ∀ pre, (run step new pre).Stored := fun pre =>
    run_invariant pre stored_new fun _ i h => h.step i
  have hthroughout : (∀ pre post, actions = pre ++ post → (run step new pre).Latest)
      ↔ EachStep step InOrder new actions :=
    throughout_iff_eachStep (V := Stored) stored_new (by simp [Latest, new])
      (fun _ i h => h.step i) fun _ i hs h => latest_step_iff hs h i
  refine ⟨⟨fun ⟨hback, _⟩ => hthroughout.mp ?_, fun horder => ?_⟩, ?_⟩
  · rintro pre post rfl
    exact latest_of_notBack hback.of_append
  · have hlatest := hthroughout.mpr horder
    refine ⟨fun pre i post heq id t ht => ?_, hlatest actions [] (by simp)⟩
    have hnext := hlatest (pre ++ [i]) post (by simp [heq])
    rw [run_concat] at hnext
    have hmem : t ∈ (step (run step new pre) i).written := by
      rcases step_cases (hstored pre).filed i with ⟨-, -, hwritten⟩ | ⟨thing, -, -, hwritten⟩
      · exact hwritten ▸ (hstored pre).written id t ht
      · exact hwritten ▸ List.mem_append_left _ ((hstored pre).written id t ht)
    obtain ⟨t', ht', -, hle⟩ := hnext t hmem
    rw [(hstored pre).filed id t ht] at ht'
    exact ⟨t', ht', hle⟩
  · rintro pre thread request post - hbound
    have hnumbered : (run step new pre).Numbered :=
      run_invariant pre numbered_new fun _ i h => h.step i
    exact hnumbered.inOrder_propsSet hbound thread request

/-- Two threads declare one id, and the one that took its revision first inserts last. -/
def insertedLate : List (ℕ × WriteAction) :=
  [(0, .fiat ⟨some 7#128, Canon.window, [], ∅⟩), (1, .fiat ⟨some 7#128, Canon.window, [], ∅⟩),
    (1, .insert), (0, .insert)]

theorem revision_goes_back :
    let before := run step new insertedLate.dropLast
    let after := run step new insertedLate
    before.store.things[(7#128 : Uuid)]?.map GraphThing.revision = some 2
      ∧ after.store.things[(7#128 : Uuid)]?.map GraphThing.revision = some 1
      ∧ after.written.map GraphThing.revision = [2, 1] := by
  decide +kernel

end Writers

end ThingOS.Host
