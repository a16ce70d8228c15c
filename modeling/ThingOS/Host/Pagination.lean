import ThingOS.Userland.FindByKind

/-!
# Paging through the host's store

The host sorts the Things of a kind anew for each page, skips to the cursor and takes one Thing more
than fits, to see whether a page follows. As long as the store does not change, a cursor is a
position in one sorted list, and the pages are stretches of it that follow on each other.
-/

namespace ThingOS.Host

open List

variable {things : Things} {kind : String} {symbol : Symbol}

def Filed (things : Things) : Prop := ∀ (id : Uuid) thing, things[id]? = some thing → thing.id = id

lemma Filed.insert (h : Filed things) {id : Uuid} {thing : GraphThing} (hid : thing.id = id) :
    Filed (things.insert id thing) :=
  forall_insert hid fun id' thing' _ => h id' thing'

lemma filed_empty : Filed ∅ := by simp [Filed]

lemma mem_mapValues {thing : GraphThing} :
    thing ∈ mapValues things ↔ ∃ id : Uuid, things[id]? = some thing := by
  rw [mapValues, mem_map]
  constructor
  · rintro ⟨entry, hentry, rfl⟩
    exact ⟨entry.1, Std.ExtTreeMap.mem_toList_iff_getElem?_eq_some.mp hentry⟩
  · rintro ⟨id, hid⟩
    exact ⟨(id, thing), Std.ExtTreeMap.mem_toList_iff_getElem?_eq_some.mpr hid, rfl⟩

lemma mem_ofKind {thing : GraphThing} :
    thing ∈ ofKind things symbol
      ↔ (∃ id : Uuid, things[id]? = some thing) ∧ thing.kind = symbol := by
  rw [ofKind, (mergeSort_perm _ _).mem_iff, mem_filter, beq_iff_eq, mem_mapValues]

lemma nodup_ids (hfiled : Filed things) : ((mapValues things).map GraphThing.id).Nodup := by
  have hkeys : (mapValues things).map GraphThing.id = things.toList.map Prod.fst := by
    rw [mapValues, map_map]
    refine map_congr_left fun entry hentry => ?_
    exact hfiled entry.1 entry.2 (Std.ExtTreeMap.mem_toList_iff_getElem?_eq_some.mp hentry)
  rw [hkeys, List.Nodup, pairwise_map]
  refine Std.ExtTreeMap.distinct_keys_toList.imp fun {a b} hne heq => ?_
  exact hne (heq ▸ Std.ReflCmp.compare_self)

/-- The sorted list ascends strictly: no two Things have the same id. -/
lemma pairwise_ofKind (hfiled : Filed things) (symbol : Symbol) :
    (ofKind things symbol).Pairwise fun a b => a.id < b.id := by
  have hsorted : (ofKind things symbol).Pairwise fun a b => a.id ≤ b.id := by
    refine (pairwise_mergeSort ?_ ?_ _).imp of_decide_eq_true
    · intro a b c hab hbc
      exact decide_eq_true (BitVec.le_trans (of_decide_eq_true hab) (of_decide_eq_true hbc))
    · intro a b
      simpa using BitVec.le_total a.id b.id
  have hnodup : ((ofKind things symbol).map GraphThing.id).Nodup := by
    rw [ofKind, ((mergeSort_perm _ _).map _).nodup_iff]
    exact (nodup_ids hfiled).sublist (filter_sublist.map _)
  rw [List.Nodup, pairwise_map] at hnodup
  exact hsorted.imp₂ (fun a b hle hne => BitVec.lt_of_le_ne hle hne) hnodup

/-- The answer to a cursor: what is left of the list if it fits, else a page of it. -/
lemma findByKind_eq (things : Things) (hsymbol : symbolFromStr kind = some symbol)
    (cursor : Option ℕ) :
    findByKind things kind cursor
      = if ((ofKind things symbol).drop (cursor.getD 0)).length ≤ findPageSize then
          ((ofKind things symbol).drop (cursor.getD 0), none)
        else
          (((ofKind things symbol).drop (cursor.getD 0)).take findPageSize,
            some (cursor.getD 0 + findPageSize)) := by
  simp only [findByKind, hsymbol]
  generalize cursor.getD 0 = skip
  generalize hleft : (ofKind things symbol).drop skip = left
  have hlength : left.length = (ofKind things symbol).length - skip := by
    rw [← hleft, length_drop]
  by_cases hend : (ofKind things symbol).length ≤ skip
  · have hnil : left = [] := eq_nil_of_length_eq_zero (by omega)
    rw [if_pos hend, hnil]
    rfl
  · rw [if_neg hend, length_take]
    by_cases hfits : left.length ≤ findPageSize
    · rw [if_pos hfits, if_neg (by omega), take_of_length_le (by omega)]
    · have hslice : min (findPageSize + 1) left.length - 1 = findPageSize := by omega
      rw [if_neg hfits, if_pos (by omega), dropLast_eq_take, length_take, hslice,
        take_take, min_eq_left (Nat.le_succ _)]

/-- From any cursor on, the loop collects what is left of the list. -/
lemma findByKindLoop_host_eq (hsymbol : symbolFromStr kind = some symbol) (fuel : ℕ)
    (asked : List ℕ) (cursor : Option ℕ) (results : List GraphThing)
    (hfuel : ((ofKind things symbol).drop (cursor.getD 0)).length < fuel) :
    ∃ asked', findByKindLoop (hostCall things kind) fuel asked cursor results
      = some ⟨asked', results ++ (ofKind things symbol).drop (cursor.getD 0)⟩ := by
  induction fuel generalizing asked cursor results with
  | zero => omega
  | succ fuel ih =>
    have hpage := findByKind_eq things hsymbol cursor
    by_cases hfits : ((ofKind things symbol).drop (cursor.getD 0)).length ≤ findPageSize
    · rw [if_pos hfits] at hpage
      simp only [findByKindLoop, hostCall, hpage]
      exact ⟨_, rfl⟩
    · rw [if_neg hfits] at hpage
      -- The next cursor stands where this page ends.
      have hnext : (ofKind things symbol).drop (cursor.getD 0 + findPageSize)
          = ((ofKind things symbol).drop (cursor.getD 0)).drop findPageSize := by
        rw [drop_drop]
      have hless : ((ofKind things symbol).drop
          ((some (cursor.getD 0 + findPageSize)).getD 0)).length < fuel := by
        rw [Option.getD_some, hnext, length_drop]
        simp only [findPageSize] at hfits ⊢
        omega
      obtain ⟨asked', hrest⟩ := ih (asked ++ [cursor.getD 0]) _ (results ++ _) hless
      refine ⟨asked', ?_⟩
      simp only [findByKindLoop, hostCall, hpage, Option.isNone_some, Bool.false_eq_true, if_false]
      rw [hrest, Option.getD_some, hnext, append_assoc, take_append_drop]

end ThingOS.Host

namespace ThingOS

open Host

/-- The client's query of the host's store ends, and returns the Things of the kind in ascending
order of their ids, each once. -/
theorem host_pagination_exact (things : Things) (hfiled : Filed things) (kind : String)
    (symbol : Symbol) (hsymbol : symbolFromStr kind = some symbol) :
    ∃ fuel query, (Runtime.host things : Runtime kind).findByKind fuel = some query
      ∧ (query.things.Pairwise fun a b => a.id < b.id)
      ∧ ∀ thing, thing ∈ query.things
        ↔ (∃ id : Uuid, things[id]? = some thing) ∧ thing.kind = symbol := by
  have hfuel : ((ofKind things symbol).drop ((none : Option ℕ).getD 0)).length
      < (ofKind things symbol).length + 1 := by simp
  obtain ⟨asked, hquery⟩ := findByKindLoop_host_eq hsymbol _ [] none [] hfuel
  refine ⟨(ofKind things symbol).length + 1, ⟨asked, ofKind things symbol⟩, hquery, ?_, ?_⟩
  · exact pairwise_ofKind hfiled symbol
  · exact fun thing => mem_ofKind

def windows : ℕ → Things
  | 0 => ∅
  | n + 1 => (windows n).insert (.ofNat 128 n) ⟨.ofNat 128 n, Canon.window, ∅, ∅, 0#128, 1⟩

lemma filed_windows : (n : ℕ) → Filed (windows n)
  | 0 => filed_empty
  | n + 1 => (filed_windows n).insert rfl

theorem host_pagination_exact_windows :
    ∃ fuel query, (Runtime.host (windows 65) : Runtime "window").findByKind fuel = some query
      ∧ (query.things.Pairwise fun a b => a.id < b.id)
      ∧ ∀ thing, thing ∈ query.things
        ↔ (∃ id : Uuid, (windows 65)[id]? = some thing) ∧ thing.kind = Canon.window :=
  host_pagination_exact _ (filed_windows 65) "window" Canon.window (by decide)

end ThingOS
