import Mathlib

/-!
# Paging through a filtered list

A server lists entries of which a client sees some: `view a` is what it gets for the entry `a`, if
anything. A page starts at the cursor, a position among *all* entries, and takes the first `n`
visible ones from there. When another entry follows, visible or not, the next cursor is `n` further
on; otherwise it is zero, for the end.

Following the cursors always ends and never misses a visible entry, but a page that had to look past
its own `n` entries repeats what the next page returns. `follow_page_perm_iff` says exactly when
this does not happen.
-/

namespace ThingOS.Paging

open List

variable {α β : Type*}

/-- Ask for pages, starting at a cursor, until the next cursor is zero. -/
def follow (fetch : ℕ → List β × ℕ) : (fuel cursor : ℕ) → Option (List (List β))
  | 0, _ => none
  | fuel + 1, cursor =>
    if (fetch cursor).2 = 0 then some [(fetch cursor).1]
    else (follow fetch fuel (fetch cursor).2).map ((fetch cursor).1 :: ·)

variable (n : ℕ) (view : α → Option β)

/-- An entry follows the first `n` visible ones: there are `n` before the last entry. -/
def More (l : List α) : Prop := n ≤ (l.dropLast.filterMap view).length

instance (l : List α) : Decidable (More n view l) := by
  unfold More
  infer_instance

def page (l : List α) (cursor : ℕ) : List β × ℕ :=
  (((l.drop cursor).filterMap view).take n,
    if More n view (l.drop cursor) then cursor + n else 0)

/-- Every page that is not the last one sees all of its `n` entries. -/
def Aligned (l : List α) : Prop :=
  ∀ k, More n view (l.drop (n * k)) → ∀ a ∈ (l.drop (n * k)).take n, (view a).isSome = true

variable {n view} {l : List α}

lemma More.length_lt (h : More n view l) (hn : 0 < n) : n < l.length := by
  have hfilter := length_filterMap_le view l.dropLast
  rw [length_dropLast] at hfilter
  unfold More at h
  omega

lemma More.of_drop {k : ℕ} (h : More n view (l.drop k)) : More n view l := by
  have hsub : ((l.drop k).dropLast.filterMap view).Sublist (l.dropLast.filterMap view) := by
    apply List.Sublist.filterMap
    rw [dropLast_drop_eq_drop_dropLast]
    exact drop_sublist _ _
  exact h.trans hsub.length_le

/-- The last page holds everything visible that is left. -/
lemma length_le_of_not_more (h : ¬ More n view l) : (l.filterMap view).length ≤ n := by
  rcases eq_nil_or_concat l with rfl | ⟨xs, x, rfl⟩
  · simp
  · simp only [More, concat_eq_append, dropLast_concat, not_le] at h
    have hone : ([x].filterMap view).length ≤ 1 := length_filterMap_le _ _
    rw [concat_eq_append, filterMap_append, length_append]
    omega

lemma More.le_length (h : More n view l) : n ≤ (l.filterMap view).length :=
  h.trans ((dropLast_sublist l).filterMap view).length_le

lemma filterMap_eq_append (n : ℕ) (view : α → Option β) (l : List α) :
    l.filterMap view = (l.take n).filterMap view ++ (l.drop n).filterMap view := by
  rw [← filterMap_append, take_append_drop]

lemma aligned_of_not_more (h : ¬ More n view l) : Aligned n view l :=
  fun _ hmore => absurd hmore.of_drop h

/-- Alignment is a matter of the first page and of the rest. -/
lemma aligned_iff : Aligned n view l ↔
    (More n view l → ∀ a ∈ l.take n, (view a).isSome = true) ∧ Aligned n view (l.drop n) := by
  constructor
  · intro h
    refine ⟨by simpa using h 0, fun k => ?_⟩
    rw [drop_drop, Nat.add_comm, ← Nat.mul_succ]
    exact h (k + 1)
  · rintro ⟨hfirst, hrest⟩ k
    cases k with
    | zero => simpa using hfirst
    | succ k =>
      have := hrest k
      rwa [drop_drop, Nat.add_comm, ← Nat.mul_succ] at this

/-! ## Following the cursors -/

variable {fuel cursor : ℕ} {pages : List (List β)}

section Follow

variable (hn : 0 < n)
include hn

/-- The cursor moves on with every page, so the end is reached. -/
lemma follow_page_isSome (l : List α) (fuel cursor : ℕ) (hfuel : l.length - cursor < fuel) :
    ∃ pages, follow (page n view l) fuel cursor = some pages := by
  induction fuel generalizing cursor with
  | zero => omega
  | succ fuel ih =>
    rw [follow]
    by_cases hmore : More n view (l.drop cursor)
    · have hlength := hmore.length_lt hn
      rw [length_drop] at hlength
      have hnext : (page n view l cursor).2 = cursor + n := if_pos hmore
      obtain ⟨pages, hpages⟩ := ih (cursor + n) (by omega)
      rw [hnext, if_neg (by omega), hpages]
      exact ⟨_, rfl⟩
    · have hnext : (page n view l cursor).2 = 0 := if_neg hmore
      rw [hnext, if_pos rfl]
      exact ⟨_, rfl⟩

lemma follow_page_succ (h : follow (page n view l) (fuel + 1) cursor = some pages) :
    ¬ More n view (l.drop cursor) ∧ pages = [(l.drop cursor).filterMap view]
    ∨ More n view (l.drop cursor) ∧ ∃ rest, follow (page n view l) fuel (cursor + n) = some rest
      ∧ pages = ((l.drop cursor).filterMap view).take n :: rest := by
  rw [follow] at h
  by_cases hmore : More n view (l.drop cursor)
  · right
    have hnext : (page n view l cursor).2 = cursor + n := if_pos hmore
    rw [hnext, if_neg (by omega)] at h
    obtain ⟨rest, hrest, rfl⟩ := Option.map_eq_some_iff.mp h
    exact ⟨hmore, rest, hrest, rfl⟩
  · left
    have hnext : (page n view l cursor).2 = 0 := if_neg hmore
    rw [hnext, if_pos rfl] at h
    refine ⟨hmore, ?_⟩
    rw [← Option.some.inj h]
    simp only [page, take_of_length_le (length_le_of_not_more hmore)]

/-- The pages hold at least as many entries as are visible. -/
lemma length_le_of_follow (h : follow (page n view l) fuel cursor = some pages) :
    ((l.drop cursor).filterMap view).length ≤ pages.flatten.length := by
  induction fuel generalizing cursor pages with
  | zero => cases h
  | succ fuel ih =>
    rcases follow_page_succ hn h with ⟨-, rfl⟩ | ⟨hmore, rest, hrest, rfl⟩
    · simp
    · -- a full page holds at least what its own stretch of the list shows
      have hvisible := hmore.le_length
      have hfirst := length_filterMap_le view ((l.drop cursor).take n)
      have hlength := length_take_le n (l.drop cursor)
      have hrest := ih hrest
      rw [flatten_cons, length_append, length_take, min_eq_left hvisible]
      rw [filterMap_eq_append n view (l.drop cursor), length_append, drop_drop]
      omega

/-- Following the cursors returns every visible entry exactly once if and only if every page that is
not the last one sees all of its entries. -/
lemma follow_page_perm_iff (h : follow (page n view l) fuel cursor = some pages) :
    pages.flatten.Perm ((l.drop cursor).filterMap view) ↔ Aligned n view (l.drop cursor) := by
  induction fuel generalizing cursor pages with
  | zero => cases h
  | succ fuel ih =>
    rcases follow_page_succ hn h with ⟨hlast, rfl⟩ | ⟨hmore, rest, hrest, rfl⟩
    · simpa using aligned_of_not_more hlast
    · rw [aligned_iff, drop_drop, ← ih hrest, flatten_cons]
      by_cases hall : ∀ a ∈ (l.drop cursor).take n, (view a).isSome = true
      · -- the page is its own `n` entries, and the rest is the rest
        have hlength : (((l.drop cursor).take n).filterMap view).length = n := by
          rw [filterMap_length_eq_length.mpr hall, length_take]
          exact min_eq_left (hmore.length_lt hn).le
        rw [filterMap_eq_append n view (l.drop cursor), take_left' hlength,
          perm_append_left_iff, drop_drop]
        exact ⟨fun hperm => ⟨fun _ => hall, hperm⟩, fun hperm => hperm.2⟩
      · -- the page took an entry from beyond, which the rest holds as well
        refine iff_of_false (fun hperm => ?_) fun haligned => hall (haligned.1 hmore)
        have hvisible := hmore.le_length
        have hfirst : (((l.drop cursor).take n).filterMap view).length < n := by
          refine lt_of_lt_of_le (lt_of_le_of_ne (length_filterMap_le _ _) ?_)
            (length_take_le n (l.drop cursor))
          exact fun heq => hall (filterMap_length_eq_length.mp heq)
        have hrest := length_le_of_follow hn hrest
        have hcount := hperm.length_eq
        rw [length_append, length_take, min_eq_left hvisible,
          filterMap_eq_append n view (l.drop cursor), length_append, drop_drop] at hcount
        omega

end Follow

/-! ## Two servers that show the same -/

lemma filterMap_drop (view : α → Option β) (l : List α) (cursor : ℕ) :
    (l.drop cursor).filterMap view
      = (l.filterMap view).drop ((l.take cursor).filterMap view).length := by
  conv_rhs => rw [filterMap_eq_append cursor view l]
  rw [drop_left]

/-- Two positions of a list without repetitions start the same page only if they are equal. -/
lemma eq_of_take_drop_eq {v : List β} (hn : 0 < n) (hnodup : v.Nodup) {i j : ℕ}
    (hi : i ≤ v.length) (hj : j ≤ v.length) (h : (v.drop i).take n = (v.drop j).take n) :
    i = j := by
  -- a page is told by its first entry, or by having none
  have hhead : v[i]? = v[j]? := by
    have := congrArg (fun page : List β => page[0]?) h
    simpa [getElem?_take, hn] using this
  rcases Nat.lt_or_eq_of_le hi with hlt | rfl
  · exact (getElem?_inj hlt hnodup).mp hhead
  · rw [getElem?_eq_none le_rfl] at hhead
    exact le_antisymm (getElem?_eq_none_iff.mp hhead.symm) hj

/-- Two servers that show a client the same entries, among others it cannot see, answer a cursor
alike if and only if equally many visible entries stand before it and both go on or both end. -/
lemma page_eq_page_iff (hn : 0 < n) {view' : α → Option β} {l' : List α}
    (hview : l.filterMap view = l'.filterMap view') (hnodup : (l.filterMap view).Nodup)
    (cursor : ℕ) :
    page n view l cursor = page n view' l' cursor
      ↔ ((l.take cursor).filterMap view).length = ((l'.take cursor).filterMap view').length
        ∧ (More n view (l.drop cursor) ↔ More n view' (l'.drop cursor)) := by
  rw [page, page, Prod.mk.injEq, filterMap_drop view, filterMap_drop view', ← hview]
  refine and_congr ⟨fun h => ?_, fun h => by rw [h]⟩ ?_
  · refine eq_of_take_drop_eq hn hnodup ?_ ?_ h
    · exact ((take_sublist _ _).filterMap view).length_le
    · rw [hview]
      exact ((take_sublist _ _).filterMap view').length_le
  · by_cases h : More n view (l.drop cursor) <;> by_cases h' : More n view' (l'.drop cursor) <;>
      simp [h, h'] <;> omega

end ThingOS.Paging
