import Mathlib

/-!
# Tables row by row

A table stored row by row in one list: reading an entry of it, filling it in order, and putting it
together from its entries.
-/

namespace ThingOS.RowMajor

open List

variable {α : Type*}

lemma index_lt {row col w h : ℕ} (hrow : row < h) (hcol : col < w) : row * w + col < h * w := by
  have hrows : (row + 1) * w ≤ h * w := Nat.mul_le_mul_right w hrow
  rw [Nat.succ_mul] at hrows
  omega

lemma getElem?_flatten {rows : List (List α)} {n j : ℕ} (hrows : ∀ row ∈ rows, row.length = n)
    (hj : j < n) (r : ℕ) : rows.flatten[r * n + j]? = rows[r]?.bind (·[j]?) := by
  induction rows generalizing r with
  | nil => simp
  | cons row rows ih =>
    obtain ⟨hrow, hrest⟩ := forall_mem_cons.mp hrows
    rw [flatten_cons]
    cases r with
    | zero => simp [getElem?_append_left, hrow, hj]
    | succ r =>
      have hindex : (r + 1) * n + j = row.length + (r * n + j) := by rw [hrow]; ring
      rw [hindex, getElem?_append_right (Nat.le_add_right _ _), Nat.add_sub_cancel_left,
        ih hrest, getElem?_cons_succ]

/-- The next write to a table that is filled in order. -/
lemma set_length_append (done : List α) (zero a : α) (k : ℕ) :
    (done ++ List.replicate (k + 1) zero).set done.length a
      = (done ++ [a]) ++ List.replicate k zero := by
  simp [replicate_succ]

/-- A table is given by its entries. -/
lemma flatMap_range_eq {l : List α} {w h : ℕ} (hlength : l.length = w * h) (f : ℕ → ℕ → α)
    (hentry : ∀ row < h, ∀ col < w, l[row * w + col]? = some (f row col)) :
    (List.range h).flatMap (fun row => (List.range w).map (f row)) = l := by
  refine ext_getElem? fun i => ?_
  by_cases hi : i < w * h
  · have hw : 0 < w := Nat.pos_of_ne_zero fun hw => by simp [hw] at hi
    have hrow : i / w < h := Nat.div_lt_of_lt_mul hi
    have hcol : i % w < w := Nat.mod_lt i hw
    have hsplit : i / w * w + i % w = i := Nat.div_add_mod' i w
    have hrows : ∀ row ∈ (List.range h).map fun row => (List.range w).map (f row),
        row.length = w := by
      simp
    rw [← hsplit, hentry _ hrow _ hcol, flatMap_def, getElem?_flatten hrows hcol]
    simp [hrow, hcol]
  · have hlen : ((List.range h).flatMap fun row => (List.range w).map (f row)).length = w * h := by
      simp [length_flatMap, Nat.mul_comm]
    rw [getElem?_eq_none (hlen ▸ Nat.not_lt.mp hi),
      getElem?_eq_none (hlength ▸ Nat.not_lt.mp hi)]

end ThingOS.RowMajor
