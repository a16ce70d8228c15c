import ThingOS.Kernel.Graph.Store

/-!
# System calls that hand graph data to user memory

From `kernel/src/arch/x86_64/syscall.rs` and `kernel/src/graph/api.rs`: the checks on user ranges,
`copy_out_slice`, `watch_poll` and `graph_find_by_kind`. User memory is a function from addresses to
bytes. What `postcard` writes for a batch of watch events is a parameter.
-/

namespace ThingOS

open Postcard List

/-- The first address that is not a user address. -/
def userLimit : ℕ := 2 ^ 47

def validUserSlice (ptr len : ℕ) : Bool :=
  if ptr = 0 then len == 0
  else if len = 0 then true
  else if userLimit ≤ ptr then false
  else decide (ptr + len < userLimit)

abbrev Memory := ℕ → UInt8

def Memory.write (m : Memory) (ptr : ℕ) (bytes : List UInt8) : Memory := fun a =>
  if ptr ≤ a then bytes.getD (a - ptr) (m a) else m a

@[simp] lemma Memory.write_nil (m : Memory) (ptr : ℕ) : m.write ptr [] = m := by
  funext a
  simp [write]

/-- The value `!0` that a system call returns when it fails. -/
def syscallFailed : ℕ := u64Size - 1

def copyOutSlice (buf : List UInt8) (m : Memory) (outPtr outLen : ℕ) : Memory × ℕ :=
  if !validUserSlice outPtr outLen then (m, buf.length)
  else if outLen < buf.length then (m, buf.length)
  else (m.write outPtr buf, buf.length)

/-! ## What the caller can tell from the size

The answer is the size of the payload, whether it was copied or not. A caller takes a size that fits
for success, but a range that is not the user's gets the same answer as one that is. -/

/-- Only user addresses of the range change; a size that fits means that the payload is there, and
one that does not that nothing was written. -/
structure CopyOutContract (buf : List UInt8) (m : Memory) (outPtr outLen : ℕ) : Prop where
  inside : ∀ a, (copyOutSlice buf m outPtr outLen).1 a ≠ m a →
    outPtr ≤ a ∧ a < outPtr + outLen ∧ a < userLimit
  copied : (copyOutSlice buf m outPtr outLen).2 ≤ outLen →
    ∀ i < (copyOutSlice buf m outPtr outLen).2,
      buf[i]? = some ((copyOutSlice buf m outPtr outLen).1 (outPtr + i))
  untouched : outLen < (copyOutSlice buf m outPtr outLen).2 →
    (copyOutSlice buf m outPtr outLen).1 = m

def Memory.Holds (m : Memory) (ptr : ℕ) (bytes : List UInt8) : Prop :=
  ∀ i < bytes.length, bytes[i]? = some (m (ptr + i))

lemma Memory.holds_write (m : Memory) (ptr : ℕ) (bytes : List UInt8) :
    (m.write ptr bytes).Holds ptr bytes := by
  intro i hi
  rw [write, if_pos (Nat.le_add_right _ _), Nat.add_sub_cancel_left, getD_eq_getElem?_getD,
    getElem?_eq_getElem hi, Option.getD_some]

lemma Memory.write_of_outside {m : Memory} {ptr a : ℕ} {bytes : List UInt8}
    (h : a < ptr ∨ ptr + bytes.length ≤ a) : m.write ptr bytes a = m a := by
  unfold write
  split
  · rw [getD_eq_getElem?_getD, getElem?_eq_none (by omega), Option.getD_none]
  · rfl

/-- A range that is accepted and not empty ends below the limit. -/
lemma lt_userLimit_of_validUserSlice {ptr len : ℕ} (h : validUserSlice ptr len = true)
    (hlen : len ≠ 0) : ptr + len < userLimit := by
  unfold validUserSlice at h
  split at h
  · exact absurd (beq_iff_eq.mp h) hlen
  · split at h
    · cases h
    · exact of_decide_eq_true h

/-- The contract holds exactly if the range is the user's, or the payload does not fit, or the
payload stands there already. -/
theorem copy_out_contract_iff (buf : List UInt8) (m : Memory) (outPtr outLen : ℕ) :
    CopyOutContract buf m outPtr outLen
      ↔ validUserSlice outPtr outLen = true ∨ outLen < buf.length ∨ m.Holds outPtr buf := by
  cases hvalid : validUserSlice outPtr outLen with
  | false =>
    have hcopy : copyOutSlice buf m outPtr outLen = (m, buf.length) := by
      simp [copyOutSlice, hvalid]
    constructor
    · intro h
      have hcopied := h.copied
      rw [hcopy] at hcopied
      exact .inr (Nat.lt_or_ge outLen buf.length |>.imp_right hcopied)
    · intro h
      refine ⟨?_, ?_, ?_⟩ <;> rw [hcopy]
      · exact fun a hne => absurd rfl hne
      · intro hfits
        rcases h with h | h | h
        · cases h
        · exact absurd h (Nat.not_lt.mpr hfits)
        · exact h
      · exact fun _ => rfl
  | true =>
    refine iff_of_true ?_ (.inl rfl)
    by_cases hfits : outLen < buf.length
    · have hcopy : copyOutSlice buf m outPtr outLen = (m, buf.length) := by
        simp [copyOutSlice, hvalid, hfits]
      refine ⟨?_, ?_, ?_⟩ <;> rw [hcopy]
      · exact fun a hne => absurd rfl hne
      · exact fun hle => absurd hfits (Nat.not_lt.mpr hle)
      · exact fun _ => rfl
    · have hcopy : copyOutSlice buf m outPtr outLen = (m.write outPtr buf, buf.length) := by
        simp [copyOutSlice, hvalid, hfits]
      refine ⟨?_, ?_, ?_⟩ <;> rw [hcopy]
      · intro a hne
        have hinside : outPtr ≤ a ∧ a < outPtr + buf.length := by
          by_contra hout
          exact hne (Memory.write_of_outside (by omega))
        have hlimit := lt_userLimit_of_validUserSlice hvalid (by omega)
        omega
      · exact fun _ => m.holds_write outPtr buf
      · exact fun hlt => absurd hlt hfits

/-- One byte for the null pointer: the size fits, and nothing was written. -/
theorem null_pointer_reports_success :
    ¬ CopyOutContract [1] (fun _ => 0) 0 1
      ∧ (copyOutSlice [1] (fun _ => 0) 0 1).2 = 1
      ∧ (copyOutSlice [1] (fun _ => 0) 0 1).1 0 = 0 := by
  refine ⟨fun h => ?_, rfl, rfl⟩
  have hbyte := h.copied (by decide) 0 (by decide)
  revert hbyte
  decide

/-! ## Watches -/

section Watches

variable (toAllocvec : GraphWatchBatch → Option (List UInt8))

/-- The events are taken from the watch before they are serialised. -/
def exportWatchEvents (s : Store) (id : WatchId) : Store × Option (List UInt8) :=
  match s.pollWatch id with
  | (s, some events) => if events.changes.isEmpty then (s, some []) else (s, toAllocvec events)
  | (s, none) => (s, some [])

def watchPoll (s : Store) (m : Memory) (watchId outPtr outLen : ℕ) : Store × Memory × ℕ :=
  match exportWatchEvents toAllocvec s watchId with
  | (s, none) => (s, m, syscallFailed)
  | (s, some bytes) =>
    let (m, r) := copyOutSlice bytes m outPtr outLen
    (s, m, r)

end Watches

/-! ## Queries by kind -/

/-- The request record of `graph_find_by_kind`. -/
structure GraphFindByKind where
  kindPtr : ℕ
  kindLen : ℕ
  cursor : ℕ

/-- The eight bytes of a `u64` in memory. -/
def leBytes (n : ℕ) : List UInt8 := (List.range 8).map fun i => UInt8.ofNat (n / 256 ^ i)

namespace GraphFindByKind

/-- The record as it lies in the client's memory: three words, one after the other. -/
def rawBytes (request : GraphFindByKind) : List UInt8 :=
  leBytes request.kindPtr ++ leBytes request.kindLen ++ leBytes request.cursor

/-- `postcard::from_bytes`: three variable-length numbers; what follows them is ignored. -/
def fromBytes (bytes : List UInt8) : Option GraphFindByKind := do
  let (kindPtr, bytes) ← takeU64 bytes
  let (kindLen, bytes) ← takeU64 bytes
  let (cursor, _) ← takeU64 bytes
  pure { kindPtr, kindLen, cursor }

end GraphFindByKind

/-- How `graph_find_by_kind` answers: it touches memory that is not mapped, it fails, or it has a
page and the next cursor to copy out. -/
inductive FindAnswer where
  | fault
  | refused
  | page (things : List GraphThing) (next : ℕ)

/-- `graph_find_by_kind` up to the copying. `peek` is the user memory it reads the kind from, where
that is mapped. -/
def graphFindByKind (s : Store) (bundle : BundleId) (peek : ℕ → ℕ → Option (List UInt8))
    (request : List UInt8) : FindAnswer :=
  match GraphFindByKind.fromBytes request with
  | none => .refused
  | some request =>
    if !validUserSlice request.kindPtr request.kindLen then .refused
    else
      match if request.kindLen = 0 then some [] else peek request.kindPtr request.kindLen with
      | none => .fault
      | some slice =>
        match String.fromUTF8? ⟨slice.toArray⟩ with
        | none => .refused
        | some kind =>
          let (things, next) := s.findByKind bundle kind request.cursor
          .page things next

lemma graphFindByKind_page {s : Store} {bundle : BundleId} {peek : ℕ → ℕ → Option (List UInt8)}
    {bytes : List UInt8} {things : List GraphThing} {next : ℕ}
    (h : graphFindByKind s bundle peek bytes = .page things next) :
    ∃ request kind, GraphFindByKind.fromBytes bytes = some request
      ∧ s.findByKind bundle kind request.cursor = (things, next) := by
  unfold graphFindByKind at h
  split at h
  · cases h
  · grind

/-! ## The request as it is read

The client passes the record by its address, so the kernel reads the words of the record as if they
were variable-length numbers. A user address has zeros in its two high bytes, and each of them ends
a number: all three numbers are read before the word of the cursor begins. -/

lemma getElem?_leBytes_of_lt {n i : ℕ} (hn : n < userLimit) (hi : i = 6 ∨ i = 7) :
    (leBytes n)[i]? = some 0 := by
  have hdiv : n / 256 ^ i = 0 := by
    apply Nat.div_eq_of_lt
    refine hn.trans ?_
    rcases hi with rfl | rfl <;> decide
  have hlt : i < 8 := by omega
  simp [leBytes, getElem?_range hlt, hdiv]

@[simp] lemma length_leBytes (n : ℕ) : (leBytes n).length = 8 := by simp [leBytes]

/-- A number that starts before a zero within nine bytes ends there at the latest. -/
lemma exists_takeU64 {words : List UInt8} {k z : ℕ} (hz : words[z]? = some 0) (hkz : k ≤ z)
    (hz9 : z < k + 9) :
    ∃ n k', k < k' ∧ k' ≤ z + 1
      ∧ ∀ more, takeU64 (words.drop k ++ more) = some (n, words.drop k' ++ more) := by
  have hzero : (words.drop k)[z - k]? = some 0 := by
    rw [getElem?_drop, Nat.add_sub_cancel' hkz, hz]
  obtain ⟨n, d, hd, hdz, htake⟩ := exists_takeFrom (i := 0) hzero (by decide)
    (by simp only [maxU64]; omega)
  refine ⟨n, k + d, by omega, by omega, fun more => ?_⟩
  rw [drop_drop] at htake
  exact takeFrom_append htake more

/-- The two words of a string in user memory are enough to read three numbers from. -/
lemma exists_fromBytes {ptr len : ℕ} (hptr : ptr < userLimit) (hlen : len < userLimit) :
    ∃ request, ∀ more,
      GraphFindByKind.fromBytes (leBytes ptr ++ leBytes len ++ more) = some request := by
  have h6 : (leBytes ptr ++ leBytes len)[6]? = some 0 := by
    rw [getElem?_append_left (by simp), getElem?_leBytes_of_lt hptr (.inl rfl)]
  have h7 : (leBytes ptr ++ leBytes len)[7]? = some 0 := by
    rw [getElem?_append_left (by simp), getElem?_leBytes_of_lt hptr (.inr rfl)]
  have h14 : (leBytes ptr ++ leBytes len)[14]? = some 0 := by
    rw [getElem?_append_right (by simp), length_leBytes,
      getElem?_leBytes_of_lt hlen (.inl rfl)]
  generalize leBytes ptr ++ leBytes len = words at h6 h7 h14
  -- the first number ends at the first zero of the address, the second at the other one
  obtain ⟨n₁, k₁, hk₁, hend₁, htake₁⟩ := exists_takeU64 (k := 0) h6 (by omega) (by omega)
  obtain ⟨n₂, k₂, hk₂, hend₂, htake₂⟩ := exists_takeU64 (k := k₁) h7 (by omega) (by omega)
  -- the third may start anywhere up to the length
  obtain ⟨n₃, k₃, htake₃⟩ : ∃ n k, ∀ more,
      takeU64 (words.drop k₂ ++ more) = some (n, words.drop k ++ more) := by
    by_cases hk : k₂ ≤ 7
    · obtain ⟨n, k, -, -, h⟩ := exists_takeU64 (k := k₂) h7 hk (by omega)
      exact ⟨n, k, h⟩
    · obtain ⟨n, k, -, -, h⟩ := exists_takeU64 (k := k₂) h14 (by omega) (by omega)
      exact ⟨n, k, h⟩
  refine ⟨⟨n₁, n₂, n₃⟩, fun more => ?_⟩
  rw [drop_zero] at htake₁
  simp [GraphFindByKind.fromBytes, htake₁, htake₂, htake₃]

/-- Whatever cursor a client asks for, the kernel reads the same request. -/
lemma fromBytes_rawBytes_cursor {ptr len : ℕ} (hptr : ptr < userLimit) (hlen : len < userLimit)
    (c c' : ℕ) :
    GraphFindByKind.fromBytes (GraphFindByKind.rawBytes ⟨ptr, len, c⟩)
      = GraphFindByKind.fromBytes (GraphFindByKind.rawBytes ⟨ptr, len, c'⟩) := by
  obtain ⟨request, h⟩ := exists_fromBytes hptr hlen
  exact (h _).trans (h _).symm

end ThingOS
