import Mathlib

/-!
# Equal cells

A length cut into cells of one size with gaps between them. The last cell takes what the division
leaves over. The cells that fit are inside the length and come one after another.
-/

namespace ThingOS

/-- A length, the number of its cells and the gap between two of them. -/
structure EqualCells where
  size : ℕ
  count : ℕ
  gap : ℕ

namespace EqualCells

variable (c : EqualCells)

def gaps : ℕ := (c.count - 1) * c.gap

def item : ℕ := (c.size - c.gaps) / c.count

/-- The size of a cell, where the last one takes the rest. -/
def extent (i : ℕ) : ℕ :=
  if i = c.count - 1 then c.size - c.item * (c.count - 1) - c.gaps else c.item

/-- Where a cell starts. -/
def offset (i : ℕ) : ℕ := i * (c.item + c.gap)

lemma item_le : c.item ≤ c.size :=
  (Nat.div_le_self _ _).trans (Nat.sub_le _ _)

lemma extent_le (i : ℕ) : c.extent i ≤ c.size := by
  unfold extent
  split
  · omega
  · exact c.item_le

variable {c}

/-- Cells that have a size leave room for the gaps. -/
lemma item_mul_add_le (hcount : 0 < c.count) :
    c.item = 0 ∨ c.item * (c.count - 1) + c.item + c.gaps ≤ c.size := by
  have hdiv : c.item * c.count ≤ c.size - c.gaps := Nat.div_mul_le_self _ _
  have hsplit : c.item * c.count = c.item * (c.count - 1) + c.item := by
    rw [← Nat.mul_succ, Nat.succ_eq_add_one, Nat.sub_add_cancel hcount]
  omega

lemma items_le (hcount : 0 < c.count) : c.item * (c.count - 1) ≤ c.size - c.gaps := by
  rcases item_mul_add_le hcount with hzero | hle
  · simp [hzero]
  · omega

lemma offset_last_add_extent (hcount : 0 < c.count) (hgaps : c.gaps ≤ c.size) :
    c.offset (c.count - 1) + c.extent (c.count - 1) = c.size := by
  have hitems := items_le hcount
  rw [offset, extent, if_pos rfl, Nat.mul_add, Nat.mul_comm (c.count - 1) c.item, ← gaps]
  omega

/-- A cell whose gaps fit is inside. -/
lemma offset_add_extent_le {i : ℕ} (hi : i < c.count) (hgap : i * c.gap ≤ c.size) :
    c.offset i + c.extent i ≤ c.size := by
  by_cases hlast : i = c.count - 1
  · subst hlast
    exact (offset_last_add_extent (by omega) hgap).le
  · have hitems : (i + 1) * c.item ≤ c.item * (c.count - 1) := by
      rw [Nat.mul_comm]
      exact Nat.mul_le_mul_left _ (by omega)
    have hgaps : i * c.gap ≤ c.gaps := Nat.mul_le_mul_right _ (by omega)
    rw [offset, extent, if_neg hlast, Nat.mul_add]
    rw [Nat.succ_mul] at hitems
    rcases item_mul_add_le (Nat.zero_lt_of_lt hi) with hzero | hle
    · simp only [hzero, Nat.mul_zero] at *
      omega
    · omega

/-- A cell ends before the next ones start. -/
lemma offset_add_extent_le_offset {i j : ℕ} (hij : i < j) (hj : j < c.count) :
    c.offset i + c.extent i ≤ c.offset j := by
  have hstep : (i + 1) * (c.item + c.gap) ≤ j * (c.item + c.gap) := Nat.mul_le_mul_right _ hij
  rw [Nat.succ_mul] at hstep
  rw [offset, offset, extent, if_neg (by omega)]
  omega

lemma separated_of_ne {i j : ℕ} (hne : i ≠ j) (hi : i < c.count) (hj : j < c.count) :
    c.offset i + c.extent i ≤ c.offset j ∨ c.offset j + c.extent j ≤ c.offset i :=
  hne.lt_or_gt.imp (offset_add_extent_le_offset · hj) (offset_add_extent_le_offset · hi)

end EqualCells

end ThingOS
