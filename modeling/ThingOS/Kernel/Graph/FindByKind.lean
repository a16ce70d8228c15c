import ThingOS.Common.Paging
import ThingOS.Kernel.Graph.Authority

/-!
# The pages of `find_by_kind`

`find_by_kind` is an instance of the paging library: its entries are the ids of the kind index, and
a bundle sees of an entry the current version if it may read it. So its pages are complete, and they
are free of repetitions exactly if they are aligned in the sense of the library.
-/

namespace ThingOS

open GraphState Paging

variable {s : Store}

namespace Store

/-- The current version of an entry of the kind index, if the bundle may read it. -/
def readThing (s : Store) (owner : BundleId) (id : Uuid) : Option GraphThing :=
  (s.latest id).filter fun thing => s.canRead owner thing.id

lemma nodup_toList (ids : Std.ExtTreeSet Uuid compare) : ids.toList.Nodup := by
  simpa [List.Nodup] using Std.ExtTreeSet.distinct_toList (t := ids)

lemma findLoop_skip (s : Store) (owner : BundleId) (cursor : ℕ) (ids : List Uuid)
    (skipped count : ℕ) (results : List GraphThing) (h : skipped ≤ cursor) :
    s.findLoop owner cursor ids skipped count results
      = s.findLoop owner cursor (ids.drop (cursor - skipped)) cursor count results := by
  induction ids generalizing skipped with
  | nil => simp [findLoop]
  | cons id ids ih =>
    rcases Nat.lt_or_eq_of_le h with hlt | rfl
    · rw [findLoop, if_pos hlt, ih (skipped + 1) hlt,
        show cursor - skipped = (cursor - (skipped + 1)) + 1 by omega, List.drop_succ_cons]
    · simp

lemma findLoop_of_unread {owner : BundleId} {id : Uuid} (hread : s.readThing owner id = none)
    (cursor : ℕ) (ids : List Uuid) {count : ℕ} (results : List GraphThing)
    (hcount : count < maxResults) :
    s.findLoop owner cursor (id :: ids) cursor count results
      = s.findLoop owner cursor ids cursor count results := by
  rw [findLoop, if_neg (lt_irrefl cursor), if_neg (Nat.not_le.mpr hcount)]
  cases hlatest : s.latest id with
  | none => rfl
  | some thing =>
    have hcan : s.canRead owner thing.id = false := by simpa [readThing, hlatest] using hread
    simp [hcan]

lemma findLoop_of_read {owner : BundleId} {id : Uuid} {thing : GraphThing}
    (hread : s.readThing owner id = some thing) (cursor : ℕ) (ids : List Uuid) {count : ℕ}
    (results : List GraphThing) (hcount : count < maxResults) :
    s.findLoop owner cursor (id :: ids) cursor count results
      = s.findLoop owner cursor ids cursor (count + 1) (results ++ [thing]) := by
  rw [findLoop, if_neg (lt_irrefl cursor), if_neg (Nat.not_le.mpr hcount)]
  obtain ⟨hlatest, hcan⟩ := Option.filter_eq_some_iff.mp hread
  simp [hlatest, hcan]

section

variable (s : Store) (owner : BundleId)

/-- After that it collects readable Things until the page is full, and reports a next cursor if it
meets another entry then. -/
lemma findLoop_fill (cursor : ℕ) (ids : List Uuid) (count : ℕ)
    (results : List GraphThing) (hcount : count ≤ maxResults) :
    s.findLoop owner cursor ids cursor count results
      = (results ++ (ids.filterMap (s.readThing owner)).take (maxResults - count),
        if ids ≠ [] ∧ maxResults - count ≤ (ids.dropLast.filterMap (s.readThing owner)).length
        then cursor + maxResults else 0) := by
  induction ids generalizing count results with
  | nil => simp [findLoop]
  | cons id ids ih =>
    -- a full page ends the loop at the next entry, whether that is readable or not
    rcases Nat.lt_or_eq_of_le hcount with hlt | rfl
    · cases hread : s.readThing owner id with
      | none =>
        rw [findLoop_of_unread hread cursor ids results hlt, ih count results hcount,
          List.filterMap_cons_none hread]
        cases ids with
        | nil => simp [Nat.sub_eq_zero_iff_le, Nat.not_le.mpr hlt]
        | cons id' ids => simp [List.filterMap_cons_none hread]
      | some thing =>
        rw [findLoop_of_read hread cursor ids results hlt, ih (count + 1) _ hlt,
          List.filterMap_cons_some hread,
          show maxResults - count = (maxResults - (count + 1)) + 1 by omega, List.take_succ_cons]
        cases ids with
        | nil => simp
        | cons id' ids => simp [List.filterMap_cons_some hread]
    · simp [findLoop]

/-- `find_by_kind` serves pages of the kind index. -/
lemma findByKind_eq_page {kind : String} {symbol : Symbol}
    (hkind : Canon.fromStr kind = some symbol) :
    s.findByKind owner kind
      = page maxResults (s.readThing owner) (s.kindIds symbol).toList := by
  funext cursor
  have hloop : s.findLoop owner cursor (s.kindIds symbol).toList 0 0 []
      = page maxResults (s.readThing owner) (s.kindIds symbol).toList cursor := by
    rw [findLoop_skip s owner cursor _ 0 0 [] (Nat.zero_le _), findLoop_fill _ _ _ _ _ _
      (Nat.zero_le _), page, Nat.sub_zero, Nat.sub_zero, List.nil_append]
    have hmore : ∀ ids : List Uuid,
        (ids ≠ [] ∧ maxResults ≤ (ids.dropLast.filterMap (s.readThing owner)).length)
          ↔ Paging.More maxResults (s.readThing owner) ids := by
      intro ids
      refine ⟨fun h => h.2, fun h => ⟨?_, h⟩⟩
      rintro rfl
      exact absurd h (by simp [Paging.More, maxResults])
    simp only [hmore]
  rw [← hloop]
  cases hindex : s.kindIndex[symbol]? with
  | none =>
    simp only [findByKind, hkind, hindex, kindIds, Option.getD_none]
    rfl
  | some ids => simp [findByKind, hkind, hindex, kindIds]

/-- A next cursor is a hundred further on. -/
lemma findByKind_next (kind : String) (cursor : ℕ) : (s.findByKind owner kind cursor).2 = 0
      ∨ (s.findByKind owner kind cursor).2 = cursor + maxResults := by
  cases hkind : Canon.fromStr kind with
  | none => simp [findByKind, hkind]
  | some symbol =>
    rw [findByKind_eq_page s owner hkind, page]
    by_cases hmore :
        Paging.More maxResults (s.readThing owner) ((s.kindIds symbol).toList.drop cursor)
    · exact Or.inr (if_pos hmore)
    · exact Or.inl (if_neg hmore)

/-- Following the cursors ends, and returns every Thing of the index that the bundle may read
exactly once if and only if its pages are aligned. -/
lemma follow_findByKind {kind : String} {symbol : Symbol}
    (hkind : Canon.fromStr kind = some symbol) :
    ∃ pages, follow (s.findByKind owner kind) ((s.kindIds symbol).size + 1) 0 = some pages
      ∧ (pages.flatten.Perm ((s.kindIds symbol).toList.filterMap (s.readThing owner))
        ↔ Paging.Aligned maxResults (s.readThing owner) (s.kindIds symbol).toList) := by
  rw [findByKind_eq_page s owner hkind, ← Std.ExtTreeSet.length_toList]
  obtain ⟨pages, hpages⟩ : ∃ pages, follow
      (page maxResults (s.readThing owner) (s.kindIds symbol).toList)
      ((s.kindIds symbol).toList.length + 1) 0 = some pages :=
    follow_page_isSome (by decide) _ _ 0 (by omega)
  exact ⟨pages, hpages, by
    simpa using follow_page_perm_iff (by decide : 0 < maxResults) hpages⟩

/-- Every client of `find_by_kind` that follows the cursors is served in finitely many calls. It
gets every Thing of the index that it may read exactly once if and only if each block of a hundred
entries, from which a hundred readable ones can be taken with an entry to spare, is readable
throughout. -/
theorem kernel_pagination (kind : String) (symbol : Symbol)
    (hkind : Canon.fromStr kind = some symbol) :
    ∃ calls pages, follow (s.findByKind owner kind) calls 0 = some pages
      ∧ (pages.flatten.Perm ((s.kindIds symbol).toList.filterMap (s.readThing owner))
        ↔ Paging.Aligned maxResults (s.readThing owner) (s.kindIds symbol).toList) :=
  ⟨_, s.follow_findByKind owner hkind⟩

end

end Store

namespace GraphState

/-- The kernel declares the Thing `0` and the bundle `0xb1` declares `count` more of the same kind.
-/
def hiddenFirstRun (count : ℕ) : List Call :=
  ⟨kernelBundleId, 0, .fiat ⟨some 0#128, Canon.style, [], ∅⟩⟩
    :: (List.range count).map fun i =>
      ⟨0xb1#128, 0, .fiat ⟨some (BitVec.ofNat 128 (i + 1)), Canon.style, [], ∅⟩⟩

theorem kernel_pagination_style :
    ∃ calls pages,
      follow ((reach crates (hiddenFirstRun 2)).store.findByKind 0xb1#128 "style") calls 0
        = some pages
      ∧ (pages.flatten.Perm
          (((reach crates (hiddenFirstRun 2)).store.kindIds Canon.style).toList.filterMap
            ((reach crates (hiddenFirstRun 2)).store.readThing 0xb1#128))
        ↔ Paging.Aligned Store.maxResults
          ((reach crates (hiddenFirstRun 2)).store.readThing 0xb1#128)
          ((reach crates (hiddenFirstRun 2)).store.kindIds Canon.style).toList) :=
  Store.kernel_pagination _ 0xb1#128 "style" Canon.style (by decide)

/-- One unreadable entry in front of 101 readable ones makes the second page repeat a Thing. -/
theorem pagination_repeats :
    (follow ((reach crates (hiddenFirstRun 101)).store.findByKind 0xb1#128 "style") 3 0).map
      (fun pages => (pages.flatten.map GraphThing.id).count 100#128) = some 2 := by
  decide +kernel

end GraphState

end ThingOS
