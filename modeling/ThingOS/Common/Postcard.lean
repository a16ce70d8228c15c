import Mathlib

/-!
# The postcard wire format

The variable-length integers of the `postcard` format, little-endian in groups of seven bits with a
continuation bit, and the signed integers mapped onto them. An integer of `w` bits takes at most `⌈w
/ 7⌉` bytes. A byte below 128 ends a number wherever it stands.
-/

namespace ThingOS.Postcard

/-- The most bytes a `u32` takes. -/
def maxU32 : ℕ := 5

/-- The most bytes a `u64` or a `usize` takes. -/
def maxU64 : ℕ := 10

/-- The encoding of a number in at most `max` bytes. -/
def varint : (max n : ℕ) → List UInt8
  | 0, _ => []
  | max + 1, n =>
    if n < 128 then [UInt8.ofNat n] else UInt8.ofNat (n % 128 + 128) :: varint max (n / 128)

/-- Interleave the non-negative and the negative integers. -/
def zigzag (i : ℤ) : ℕ := if 0 ≤ i then 2 * i.toNat else 2 * (-i - 1).toNat + 1

/-- A byte string with its length in front. -/
def bytes (bs : List UInt8) : List UInt8 := varint maxU64 bs.length ++ bs

/-! ## Reading a number -/

/-- Read the rest of a `u64` of which `i` bytes were read: the number, shifted to its place, and the
bytes behind it. An encoding may take ten bytes and its tenth may only hold one bit. -/
def takeFrom : (i : ℕ) → List UInt8 → Option (ℕ × List UInt8)
  | _, [] => none
  | i, b :: bs =>
    if maxU64 ≤ i then none
    else if b.toNat < 128 then
      if i = maxU64 - 1 ∧ 1 < b.toNat then none else some (b.toNat * 2 ^ (7 * i), bs)
    else (takeFrom (i + 1) bs).map fun r => ((b.toNat - 128) * 2 ^ (7 * i) + r.1, r.2)

/-- Read a `u64` from the front of a byte string. -/
def takeU64 (bs : List UInt8) : Option (ℕ × List UInt8) := takeFrom 0 bs

/-- What is read from a byte string does not depend on what follows it. -/
lemma takeFrom_append {i : ℕ} {bs rest : List UInt8} {n : ℕ}
    (h : takeFrom i bs = some (n, rest)) (more : List UInt8) :
    takeFrom i (bs ++ more) = some (n, rest ++ more) := by
  induction bs generalizing i n with
  | nil => simp [takeFrom] at h
  | cons b bs ih =>
    rw [List.cons_append]
    rw [takeFrom] at h ⊢
    by_cases hi : maxU64 ≤ i
    · rw [if_pos hi] at h
      cases h
    · rw [if_neg hi] at h ⊢
      by_cases hb : b.toNat < 128
      · rw [if_pos hb] at h ⊢
        by_cases hlast : i = maxU64 - 1 ∧ 1 < b.toNat
        · rw [if_pos hlast] at h
          cases h
        · rw [if_neg hlast] at h ⊢
          cases h
          rfl
      · rw [if_neg hb] at h ⊢
        obtain ⟨r, hr, heq⟩ := Option.map_eq_some_iff.mp h
        cases heq
        rw [ih hr]
        rfl

/-- A byte below 128 among the first nine ends a number there at the latest. -/
lemma exists_takeFrom {i j : ℕ} {bs : List UInt8} {b : UInt8} (hb : bs[j]? = some b)
    (hsmall : b.toNat < 128) (hij : i + j < maxU64 - 1) :
    ∃ n k, 0 < k ∧ k ≤ j + 1 ∧ takeFrom i bs = some (n, bs.drop k) := by
  induction bs generalizing i j with
  | nil => simp at hb
  | cons a bs ih =>
    have hi : ¬ maxU64 ≤ i := by omega
    by_cases ha : a.toNat < 128
    · refine ⟨a.toNat * 2 ^ (7 * i), 1, one_pos, by omega, ?_⟩
      rw [takeFrom, if_neg hi, if_pos ha, if_neg (by omega)]
      rfl
    · -- the first byte continues, so the small byte stands further on
      cases j with
      | zero =>
        obtain rfl : a = b := by simpa using hb
        exact absurd hsmall ha
      | succ j =>
        obtain ⟨n, k, hk, hkj, htake⟩ := ih (i := i + 1) (j := j) (by simpa using hb) (by omega)
        refine ⟨(a.toNat - 128) * 2 ^ (7 * i) + n, k + 1, Nat.succ_pos k, by omega, ?_⟩
        rw [takeFrom, if_neg hi, if_neg ha, htake]
        rfl

end ThingOS.Postcard
