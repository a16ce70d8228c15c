import Mathlib

/-!
# Four bytes in a word

A word of 32 bits that is put together of four numbers, and the bytes of a word.
-/

namespace ThingOS.Packed

/-- Four numbers side by side, the first one highest. -/
def pack (a r g b : ℕ) : BitVec 32 :=
  BitVec.ofNat 32 a <<< 24 ||| BitVec.ofNat 32 r <<< 16 ||| BitVec.ofNat 32 g <<< 8
    ||| BitVec.ofNat 32 b

/-- A byte of a word, the lowest first. -/
def component (p : BitVec 32) (k : ℕ) : ℕ := ((p >>> (8 * k)) &&& 0xFF).toNat

variable {a r g b : ℕ}

lemma component_eq (p : BitVec 32) (k : ℕ) : component p k = p.toNat / 2 ^ (8 * k) % 256 := by
  rw [component, BitVec.toNat_and, BitVec.toNat_ushiftRight, Nat.shiftRight_eq_div_pow]
  exact Nat.and_two_pow_sub_one_eq_mod _ 8

lemma component_lt (p : BitVec 32) (k : ℕ) : component p k < 256 := by
  rw [component_eq]
  exact Nat.mod_lt _ (by decide)

section Bytes

variable (ha : a < 256) (hr : r < 256) (hg : g < 256) (hb : b < 256)

include ha hr hg hb

/-- Bytes do not overlap, so they add up. -/
lemma toNat_pack : (pack a r g b).toNat = 2 ^ 24 * a + (2 ^ 16 * r + (2 ^ 8 * g + b)) := by
  have hlow := Nat.two_pow_add_eq_or_of_lt (i := 8) hb g
  have hmid := Nat.two_pow_add_eq_or_of_lt (i := 16) (b := 2 ^ 8 * g + b) (by omega) r
  have hhigh := Nat.two_pow_add_eq_or_of_lt (i := 24) (b := 2 ^ 16 * r + (2 ^ 8 * g + b))
    (by omega) a
  rw [hhigh, hmid, hlow]
  simp only [pack, BitVec.toNat_or, BitVec.toNat_shiftLeft, BitVec.toNat_ofNat, Nat.shiftLeft_eq]
  simp (disch := omega) only [Nat.mod_eq_of_lt, Nat.or_assoc, Nat.mul_comm a, Nat.mul_comm r,
    Nat.mul_comm g]

lemma component_pack :
    component (pack a r g b) 3 = a ∧ component (pack a r g b) 2 = r
      ∧ component (pack a r g b) 1 = g ∧ component (pack a r g b) 0 = b := by
  simp only [component_eq, toNat_pack ha hr hg hb]
  omega

end Bytes

/-- A word is made of its bytes. -/
lemma pack_component (p : BitVec 32) :
    pack (component p 3) (component p 2) (component p 1) (component p 0) = p := by
  have hp := p.isLt
  apply BitVec.eq_of_toNat_eq
  rw [toNat_pack (component_lt ..) (component_lt ..) (component_lt ..) (component_lt ..)]
  simp only [component_eq]
  omega

/-- Ones over the highest byte. -/
lemma or_eq_pack (p : BitVec 32) :
    0xFF000000#32 ||| p = pack 255 (component p 2) (component p 1) (component p 0) := by
  have hones : ∀ a < 256, 0xFF000000#32 ||| BitVec.ofNat 32 a <<< 24 = 0xFF000000#32 := by
    decide +kernel
  conv_lhs => rw [← pack_component p, pack]
  rw [← BitVec.or_assoc, ← BitVec.or_assoc, ← BitVec.or_assoc, hones _ (component_lt p 3)]
  rfl

end ThingOS.Packed
