import ThingOS.Kernel.Syscall

/-!
# What the client writes and what the kernel reads

Two requests of `userland/src/runtime.rs` that are not read as they were written. A link is written
as a `GraphThatRequest` and read as a `GraphLinkRequest`. A query by kind is passed as the record
itself, three words in memory, and read as three variable-length numbers.
-/

namespace ThingOS

open Postcard List

/-! ## Links -/

/-- `AbiRequest::Link`. -/
structure LinkCall where
  id : Option Uuid
  from_ : Uuid
  pred : String
  to_ : Uuid
  props : Map

namespace LinkCall

/-- The request that `call` makes of it. -/
def thatRequest (link : LinkCall) : GraphThatRequest where
  src := link.from_
  pred := link.pred
  dst := link.to_
  revisionHint := 0
  props := link.props

/-- The bytes that are sent. -/
def payload (link : LinkCall) : List UInt8 := encodeThatRequest link.thatRequest

/-- The kernel reads a request with the same ends, predicate and properties. -/
def Agrees (link : LinkCall) : Prop :=
  ∃ request, fromBytes readLinkRequest link.payload = some request
    ∧ request.from_ = link.from_ ∧ request.pred = link.pred ∧ request.to_ = link.to_
    ∧ request.props = link.props

lemma encodeUuid_eq (id : Uuid) : encodeUuid id = 16 :: Sha1.toBytes 16 id.toNat := by
  rw [encodeUuid, bytes, length_toBytes]
  rfl

/-- The length of the first UUID stands where the kernel looks for the tag of an option. -/
lemma fromBytes_payload (link : LinkCall) : fromBytes readLinkRequest link.payload = none := by
  rw [payload, encodeThatRequest, encodeUuid_eq, cons_append]
  rfl

theorem never_agrees (link : LinkCall) : ¬ link.Agrees := by
  rintro ⟨request, hrequest, -⟩
  rw [fromBytes_payload] at hrequest
  cases hrequest

def composedBy : LinkCall := ⟨none, 0x57#128, "COMPOSED_BY", 0xC0#128, ∅⟩

theorem composedBy_not_read : composedBy.payload.head? = some 16
    ∧ (fromBytes readLinkRequest composedBy.payload).isNone
    ∧ (fromBytes readLinkRequest (encodeLinkRequest
      (GraphState.thatLinkRequest composedBy.thatRequest))).isSome := by
  decide +kernel

end LinkCall

/-! ## Queries by kind -/

/-- The `k` low bytes of a number, least significant first. -/
def leDigits : (k n : ℕ) → List UInt8
  | 0, _ => []
  | k + 1, n => UInt8.ofNat n :: leDigits k (n / 256)

lemma leBytes_eq (n : ℕ) : leBytes n = leDigits 8 n := by
  simp [leBytes, leDigits, range_succ, Nat.div_div_eq_div_mul]

/-- Read a variable-length number where the bytes of a word stand. If it ends within the word, it is
at most the word, and less if it took more than one byte. Otherwise every byte of the word was one
to go on from, and the bytes behind it make the high bits. -/
lemma varintFrom_leDigits {max top i k w n : ℕ} {more rest : List UInt8}
    (h : varintFrom max top i (leDigits k w ++ more) = some (n, rest)) :
    (∃ j, 0 < j ∧ j ≤ k ∧ i + j ≤ max ∧ rest = leDigits (k - j) (w / 256 ^ j) ++ more
        ∧ n ≤ w ∧ (n = w → j = 1 ∧ w < 128))
      ∨ ∃ low high, varintFrom max top (i + k) more = some (high, rest)
        ∧ low < 128 ^ k ∧ n = low + 128 ^ k * high ∧ (0 < k → 128 * 256 ^ (k - 1) ≤ w) := by
  induction k generalizing i w n with
  | zero => exact .inr ⟨0, n, h, by decide, by omega, fun h => absurd h (Nat.lt_irrefl 0)⟩
  | succ k ih =>
    have hbyte : (UInt8.ofNat w).toNat = w % 256 := UInt8.toNat_ofNat'
    rw [leDigits, cons_append, varintFrom, hbyte] at h
    split at h
    case isTrue => cases h
    case isFalse hi =>
    split at h
    case isTrue hsmall =>
      split at h
      case isTrue => cases h
      case isFalse =>
        cases h
        refine .inl ⟨1, one_pos, by omega, by omega, ?_, by omega, fun heq => ⟨rfl, by omega⟩⟩
        rw [Nat.add_sub_cancel, Nat.pow_one]
    case isFalse hlarge =>
      obtain ⟨⟨n', rest'⟩, htail, heq⟩ := Option.map_eq_some_iff.mp h
      cases heq
      rcases ih htail with ⟨j, hj, hjk, himax, hrest, hle, -⟩ | ⟨low, high, hmore, hlow, hn, hfull⟩
      · refine .inl ⟨j + 1, Nat.succ_pos j, by omega, by omega, ?_, by omega, fun heq => by omega⟩
        rw [hrest, Nat.add_sub_add_right, Nat.div_div_eq_div_mul, ← Nat.pow_succ']
      · rw [Nat.add_assoc, Nat.add_comm 1 k] at hmore
        refine .inr ⟨w % 256 - 128 + 128 * low, high, hmore, ?_, ?_, fun _ => ?_⟩
        · rw [Nat.pow_succ']
          omega
        · dsimp only at hn ⊢
          rw [hn, Nat.pow_succ']
          ring
        · rw [Nat.add_sub_cancel]
          cases k with
          | zero => omega
          | succ k =>
            have hpow := hfull (Nat.succ_pos k)
            rw [Nat.add_sub_cancel] at hpow
            rw [Nat.pow_succ']
            omega

lemma takeU64_eq (bs : List UInt8) :
    takeU64 bs = varintFrom maxU64 1 0 bs := by
  rw [takeU64, takeFrom_eq]
  simp

/-- The high bits of a number that goes on behind a word lie behind the word; a number without any
is too small to fill the word. -/
lemma high_ne_zero {j k w low high : ℕ} (hjk : j + k = 8) (hk : 0 < k) (hlow : low < 128 ^ k)
    (hw : w = low + 128 ^ k * high) (hfull : 128 * 256 ^ (k - 1) ≤ w / 256 ^ j) : high ≠ 0 := by
  rintro rfl
  rw [Nat.mul_zero, Nat.add_zero] at hw
  rw [Nat.le_div_iff_mul_le (Nat.pow_pos (by decide)), Nat.mul_assoc, ← Nat.pow_add] at hfull
  have hexp : k - 1 + j = 7 := by omega
  have hpow : (128 : ℕ) ^ k ≤ 128 ^ 8 := Nat.pow_le_pow_right (by decide) (by omega)
  rw [hexp] at hfull
  omega

/-- A word that is read from its own higher bytes is zero. -/
lemma eq_zero_of_read {j k w : ℕ} {more rest : List UInt8} (hj : 0 < j)
    (h : takeU64 (leDigits k (w / 256 ^ j) ++ more) = some (w, rest))
    (hmore : ∀ high, varintFrom maxU64 1 k more = some (high, rest) →
      ∀ low, low < 128 ^ k → w = low + 128 ^ k * high →
        (0 < k → 128 * 256 ^ (k - 1) ≤ w / 256 ^ j) → w = 0) : w = 0 := by
  rw [takeU64_eq] at h
  rcases varintFrom_leDigits h with ⟨_, -, -, -, -, hle, -⟩ | ⟨low, high, hread, hlow, hw, hfull⟩
  · by_contra hne
    have hlt : w / 256 ^ j < w :=
      Nat.div_lt_self (Nat.pos_of_ne_zero hne) (Nat.one_lt_pow hj.ne' (by decide))
    omega
  · rw [Nat.zero_add] at hread
    exact hmore high hread low hlow hw hfull

lemma cursor_eq_zero {j k cursor : ℕ} {rest : List UInt8} (hj : 0 < j)
    (h : takeU64 (leDigits k (cursor / 256 ^ j)) = some (cursor, rest)) : cursor = 0 := by
  rw [← append_nil (leDigits _ _)] at h
  exact eq_zero_of_read hj h fun _ hread => by cases hread

lemma kindLen_eq_zero {j k len cursor : ℕ} {rest₂ rest₃ : List UInt8} (hj : 0 < j)
    (hjk : j + k = 8) (hk : 0 < k)
    (hlen : takeU64 (leDigits k (len / 256 ^ j) ++ leDigits 8 cursor) = some (len, rest₂))
    (hcursor : takeU64 rest₂ = some (cursor, rest₃)) : len = 0 := by
  refine eq_zero_of_read hj hlen fun high hread low hlow hw hfull => ?_
  rw [← append_nil (leDigits 8 cursor)] at hread
  rcases varintFrom_leDigits hread with ⟨i, hi, -, -, rfl, hle, -⟩ | ⟨_, _, hread, -⟩
  · rw [append_nil] at hcursor
    have hzero := cursor_eq_zero hi hcursor
    exact absurd (Nat.le_zero.mp (hle.trans_eq hzero)) (high_ne_zero hjk hk hlow hw (hfull hk))
  · cases hread

/-- The kernel reads a request as it was passed exactly if its address is below 128 and its length
and cursor are zero. -/
theorem find_request_agrees_iff (request : GraphFindByKind) :
    GraphFindByKind.fromBytes request.rawBytes = some request
      ↔ request.kindPtr < 128 ∧ request.kindLen = 0 ∧ request.cursor = 0 := by
  obtain ⟨ptr, len, cursor⟩ := request
  rw [GraphFindByKind.fromBytes, GraphFindByKind.rawBytes, leBytes_eq, leBytes_eq, leBytes_eq,
    append_assoc]
  constructor
  · intro h
    obtain ⟨⟨ptr', rest₁⟩, hptr, h⟩ := Option.bind_eq_some_iff.mp h
    obtain ⟨⟨len', rest₂⟩, hlen, h⟩ := Option.bind_eq_some_iff.mp h
    obtain ⟨⟨cursor', rest₃⟩, hcursor, h⟩ := Option.bind_eq_some_iff.mp h
    cases h
    have hfirst := hptr
    rw [takeU64_eq] at hfirst
    rcases varintFrom_leDigits hfirst
      with ⟨j, -, -, -, rfl, -, heq⟩ | ⟨low, high, hread, hlow, hw, hfull⟩
    · -- the address is one byte, and the others are zeros
      obtain ⟨rfl, hsmall⟩ := heq rfl
      have hzero : ptr / 256 ^ 1 = 0 := Nat.div_eq_of_lt (hsmall.trans (by decide))
      rw [hzero] at hlen
      cases hlen
      cases hcursor
      exact ⟨hsmall, rfl, rfl⟩
    · -- the address goes on into the length, which is then read from its own higher bytes
      exfalso
      rw [Nat.zero_add] at hread
      rcases varintFrom_leDigits hread with ⟨j, hj, -, hmax, rfl, hle, -⟩ | ⟨_, _, hread, -⟩
      · have hmax : 8 + j ≤ 10 := hmax
        have hzero := kindLen_eq_zero hj (by omega) (by omega) hlen hcursor
        have hpow := hfull (by decide)
        have hhigh : high = 0 := Nat.le_zero.mp (hle.trans_eq hzero)
        exact high_ne_zero (j := 0) rfl (by decide) hlow hw (by simpa using hpow) hhigh
      · rw [leDigits, varintFrom, if_pos (by decide)] at hread
        cases hread
  · rintro ⟨hsmall, rfl, rfl⟩
    have hbyte : (UInt8.ofNat ptr).toNat = ptr := toNat_ofNat (hsmall.trans (by decide))
    have hzero : ptr / 256 = 0 := Nat.div_eq_of_lt (hsmall.trans (by decide))
    have hptr : takeU64 (leDigits 8 ptr ++ (leDigits 8 0 ++ leDigits 8 0))
        = some (ptr, leDigits 7 0 ++ (leDigits 8 0 ++ leDigits 8 0)) := by
      rw [takeU64_eq, leDigits, cons_append, varintFrom, hbyte, hzero,
        if_neg (by decide), if_pos hsmall, if_neg fun h => by cases h.1]
    rw [hptr]
    rfl

/-- A string at `0x400000` of six bytes is read as an empty string at 0, with the cursor 64. -/
theorem find_request_misread :
    (GraphFindByKind.fromBytes (GraphFindByKind.rawBytes ⟨0x400000, 6, 0⟩)).map
      (fun request => (request.kindPtr, request.kindLen, request.cursor)) = some (0, 0, 64) := by
  decide +kernel

end ThingOS
