import ThingOS.Common.Postcard

/-!
# Reading the postcard wire format

A reader takes a value from the front of a byte string, or fails. `Reads r bs a` says that `r` finds
`a` in `bs` whatever follows, so that readers of parts make up readers of records. Each writer of
the format has a reader that finds what it has written.
-/

namespace ThingOS.Postcard

open List Option

/-- A computation that consumes bytes. -/
abbrev Reader (α : Type) := StateT (List UInt8) Option α

variable {α β : Type} {r : Reader α} {bs cs : List UInt8} {a : α}

/-- The reader finds `a` in `bs`, and leaves what follows. -/
def Reads (r : Reader α) (bs : List UInt8) (a : α) : Prop :=
  ∀ rest, r (bs ++ rest) = some (a, rest)

lemma Reads.pure (a : α) : Reads (Pure.pure a) [] a := fun _ => rfl

lemma Reads.bind_apply (hr : Reads r bs a) (f : α → Reader β) (rest : List UInt8) :
    (r >>= f) (bs ++ rest) = f a rest := by
  show (r (bs ++ rest)).bind (fun p => f p.1 p.2) = _
  rw [hr rest]
  rfl

lemma Reads.bind {f : α → Reader β} {b : β} (hr : Reads r bs a) (hf : Reads (f a) cs b) :
    Reads (r >>= f) (bs ++ cs) b := by
  intro rest
  rw [append_assoc, hr.bind_apply]
  exact hf rest

/-- The last part of a record is followed by nothing but the record itself. -/
lemma Reads.map {f : α → β} (hr : Reads r bs a) : Reads (f <$> r) bs (f a) := by
  intro rest
  show (r (bs ++ rest)).bind (fun p => some (f p.1, p.2)) = _
  rw [hr rest]
  rfl

/-- A value found in the whole of a byte string. -/
lemma Reads.run (hr : Reads r bs a) : r bs = some (a, []) := by
  have h := hr []
  rwa [append_nil] at h

def fail : Reader α := fun _ => none

def byte : Reader UInt8
  | [] => none
  | b :: bs => some (b, bs)

lemma reads_byte (b : UInt8) : Reads byte [b] b := fun _ => rfl

def take (n : ℕ) : Reader (List UInt8) := fun bs =>
  if n ≤ bs.length then some (bs.take n, bs.drop n) else none

lemma reads_take (bs : List UInt8) : Reads (take bs.length) bs bs := by
  intro rest
  rw [take, if_pos (by rw [length_append]; exact Nat.le_add_right _ _), take_left,
    drop_left]

/-- `n` values, one after the other. -/
def many (r : Reader α) : ℕ → Reader (List α)
  | 0 => pure []
  | n + 1 => do
    let a ← r
    let as ← many r n
    return a :: as

lemma reads_many {encode : α → List UInt8} {as : List α} (h : ∀ a ∈ as, Reads r (encode a) a) :
    Reads (many r as.length) (as.flatMap encode) as := by
  induction as with
  | nil => exact Reads.pure []
  | cons a as ih =>
    rw [flatMap_cons]
    refine (h a mem_cons_self).bind ?_
    exact (ih fun b hb => h b (mem_cons_of_mem a hb)).map

/-- An option: the byte 0, or the byte 1 and a value. -/
def option (r : Reader α) : Reader (Option α) := do
  let tag ← byte
  if tag = 0 then return none
  else if tag = 1 then some <$> r
  else fail

def bool : Reader Bool := do
  let tag ← byte
  if tag = 0 then return false
  else if tag = 1 then return true
  else fail

lemma reads_bool (b : Bool) : Reads bool [if b then 1 else 0] b := by
  intro rest
  cases b <;> rfl

/-! ## Numbers -/

/-- Read a number of at most `max` bytes, the last of which may not exceed `top`, when `i` bytes of
it were read. -/
def varintFrom (max top : ℕ) : (i : ℕ) → Reader ℕ
  | _, [] => none
  | i, b :: bs =>
    if max ≤ i then none
    else if b.toNat < 128 then if i = max - 1 ∧ top < b.toNat then none else some (b.toNat, bs)
    else (varintFrom max top (i + 1) bs).map fun r => (b.toNat - 128 + 128 * r.1, r.2)

/-- The `u64` reader is the one with ten bytes, of which the last holds one bit. -/
lemma takeFrom_eq (i : ℕ) (bs : List UInt8) :
    takeFrom i bs = (varintFrom maxU64 1 i bs).map fun r => (r.1 * 2 ^ (7 * i), r.2) := by
  induction bs generalizing i with
  | nil => rfl
  | cons b bs ih =>
    rw [takeFrom, varintFrom]
    split
    · rfl
    · split
      · split <;> rfl
      · rw [ih (i + 1), Option.map_map, Option.map_map]
        congr 1
        funext r
        simp only [Function.comp_apply, Prod.mk.injEq, and_true]
        rw [Nat.mul_add, Nat.pow_add]
        ring

/-- A number takes at least one byte. -/
lemma length_lt_of_varintFrom {max top i : ℕ} {rest : List UInt8} {n : ℕ}
    (h : varintFrom max top i bs = some (n, rest)) : rest.length < bs.length := by
  induction bs generalizing i n with
  | nil => cases h
  | cons b bs ih =>
    rw [varintFrom] at h
    split at h
    · cases h
    split at h
    · split at h
      · cases h
      · cases h
        exact Nat.lt_succ_self _
    · obtain ⟨r, hr, heq⟩ := map_eq_some_iff.mp h
      cases heq
      exact (ih hr).trans (Nat.lt_succ_self _)

def u64 : Reader ℕ := takeU64

def u32 : Reader ℕ := varintFrom maxU32 15 0

lemma length_lt_of_u64 {rest : List UInt8} {n : ℕ} (h : u64 bs = some (n, rest)) :
    rest.length < bs.length := by
  rw [u64, takeU64, takeFrom_eq] at h
  obtain ⟨r, hr, heq⟩ := map_eq_some_iff.mp h
  cases heq
  exact length_lt_of_varintFrom hr

lemma toNat_ofNat {n : ℕ} (h : n < 256) : (UInt8.ofNat n).toNat = n := UInt8.toNat_ofNat_of_lt' h

/-- What is written is read back, from any place of the number on. -/
lemma reads_varintFrom {max top i n : ℕ} (hi : i < max) (htop : top < 128)
    (hn : n < (top + 1) * 128 ^ (max - 1 - i)) :
    Reads (varintFrom max top i) (varint (max - i) n) n := by
  intro rest
  obtain ⟨k, hk⟩ : ∃ k, max - i = k + 1 := ⟨max - i - 1, by omega⟩
  induction k generalizing i n with
  | zero =>
    -- the last byte there is room for
    have hlast : max - 1 - i = 0 := by omega
    rw [hlast, Nat.pow_zero, Nat.mul_one] at hn
    have hbyte : (UInt8.ofNat n).toNat = n := toNat_ofNat (by omega)
    rw [hk, varint, if_pos (by omega), singleton_append, varintFrom, hbyte,
      if_neg (Nat.not_le.mpr hi), if_pos (by omega), if_neg (by omega)]
  | succ k ih =>
    rw [hk, varint]
    by_cases hsmall : n < 128
    · have hbyte : (UInt8.ofNat n).toNat = n := toNat_ofNat (by omega)
      rw [if_pos hsmall, singleton_append, varintFrom, hbyte, if_neg (Nat.not_le.mpr hi),
        if_pos hsmall, if_neg (by omega)]
    · have hbyte : (UInt8.ofNat (n % 128 + 128)).toNat = n % 128 + 128 :=
        toNat_ofNat (by omega)
      have hdiv : n / 128 < (top + 1) * 128 ^ (max - 1 - (i + 1)) := by
        rw [Nat.div_lt_iff_lt_mul (by decide)]
        have hexp : max - 1 - i = max - 1 - (i + 1) + 1 := by omega
        rw [hexp, Nat.pow_succ, ← Nat.mul_assoc] at hn
        exact hn
      have hrest := ih (i := i + 1) (n := n / 128) (by omega) hdiv (by omega)
      have hlen : max - (i + 1) = k + 1 := by omega
      rw [hlen] at hrest
      rw [if_neg hsmall, cons_append, varintFrom, hbyte, if_neg (Nat.not_le.mpr hi),
        if_neg (by omega), hrest]
      simp only [map_some, Option.some.injEq, Prod.mk.injEq, and_true]
      omega

lemma reads_u64 {n : ℕ} (hn : n < 2 ^ 64) : Reads u64 (varint maxU64 n) n := by
  intro rest
  have h := @reads_varintFrom maxU64 1 0 n (by decide) (by decide)
    (hn.trans_le (by decide)) rest
  rw [Nat.sub_zero] at h
  rw [u64, takeU64, takeFrom_eq, h]
  simp

lemma reads_u32 {n : ℕ} (hn : n < 2 ^ 32) : Reads u32 (varint maxU32 n) n :=
  @reads_varintFrom maxU32 _ 0 n (by decide) (by decide) (hn.trans_le (by decide))

/-- Take the non-negative and the negative integers apart again. -/
def unzigzag (n : ℕ) : ℤ := if n % 2 = 0 then (n / 2 : ℕ) else -((n / 2 : ℕ) : ℤ) - 1

@[simp] lemma unzigzag_zigzag (i : ℤ) : unzigzag (zigzag i) = i := by
  unfold zigzag unzigzag
  split
  · rw [if_pos (Nat.mul_mod_right 2 _)]
    omega
  · rw [if_neg (by omega)]
    omega

lemma zigzag_lt {i : ℤ} (hlow : -2 ^ 63 ≤ i) (hhigh : i < 2 ^ 63) : zigzag i < 2 ^ 64 := by
  unfold zigzag
  split <;> omega

/-! ## Byte strings -/

def byteString : Reader (List UInt8) := do
  let n ← u64
  take n

lemma reads_byteString (h : bs.length < 2 ^ 64) : Reads byteString (bytes bs) bs :=
  (reads_u64 h).bind (reads_take bs)

/-- A byte string takes more bytes than it has. -/
lemma length_lt_of_byteString {rest taken : List UInt8} (h : byteString bs = some (taken, rest)) :
    taken.length < bs.length := by
  obtain ⟨⟨n, behind⟩, hn, htake⟩ := bind_eq_some_iff.mp
    (show (u64 bs).bind (fun p => take p.1 p.2) = some (taken, rest) from h)
  have hless := length_lt_of_u64 hn
  simp only [take, ite_none_right_eq_some, Option.some.injEq, Prod.mk.injEq] at htake
  rw [← htake.2.1, length_take]
  omega

def string : Reader String := do
  let bs ← byteString
  match String.fromUTF8? ⟨bs.toArray⟩ with
  | some s => return s
  | none => fail

lemma reads_string {s : String} (h : s.toUTF8.data.toList.length < 2 ^ 64) :
    Reads string (bytes s.toUTF8.data.toList) s := by
  have hstring : String.fromUTF8? ⟨s.toUTF8.data.toList.toArray⟩ = some s := by
    rw [Array.toArray_toList]
    exact dif_pos s.isValidUTF8
  rw [← append_nil (bytes _)]
  refine (reads_byteString h).bind ?_
  intro rest
  rw [hstring]
  rfl

end ThingOS.Postcard
