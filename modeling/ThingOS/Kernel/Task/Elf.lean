import ThingOS.Common.Checked

/-!
# ELF headers

A translation of `kernel/src/task/elf.rs`, as built by default: in the `dev` profile, where
arithmetic panics on overflow and `slice::from_raw_parts` on a misaligned pointer. The bootloader
puts modules at the start of a page, so that the header itself is always aligned. Fields of the
headers that the loader does not use are left out.

Parsing only makes a slice of the program headers. Reading one that does not lie within the module
is a fault of its own.
-/

namespace ThingOS

open Checked

/-- The ways loading a module can fault. All but `outsideModule` are panics. -/
inductive LoadFault where
  | overflow
  | misaligned
  | outsideModule
  | notCanonical
  | pageOrder
  | frameCollision
  | sliceIndex
deriving DecidableEq

inductive ParseError where
  | tooShortForHeader
  | invalidMagic
  | not64Bit
  | tooShortForProgramHeaders
deriving DecidableEq

structure ElfHeader where
  type : ℕ
  entry : ℕ
  phoff : ℕ
  phentsize : ℕ
  phnum : ℕ
deriving DecidableEq

structure ProgramHeader where
  type : ℕ
  flags : ℕ
  offset : ℕ
  vaddr : ℕ
  filesz : ℕ
  memsz : ℕ
deriving DecidableEq

def elfHeaderSize : ℕ := 64
def programHeaderSize : ℕ := 56

def ptLoad : ℕ := 1
def pfX : ℕ := 1
def pfW : ℕ := 2
def etDyn : ℕ := 3

/-- The little-endian number in `n` bytes. -/
def readLe (data : List UInt8) (offset : ℕ) : (n : ℕ) → ℕ
  | 0 => 0
  | n + 1 => (data.getD offset 0).toNat + 256 * readLe data (offset + 1) n

def readElfHeader (data : List UInt8) : ElfHeader where
  type := readLe data 16 2
  entry := readLe data 24 8
  phoff := readLe data 32 8
  phentsize := readLe data 54 2
  phnum := readLe data 56 2

def readProgramHeader (data : List UInt8) (offset : ℕ) : ProgramHeader where
  type := readLe data offset 4
  flags := readLe data (offset + 4) 4
  offset := readLe data (offset + 8) 8
  vaddr := readLe data (offset + 16) 8
  filesz := readLe data (offset + 32) 8
  memsz := readLe data (offset + 40) 8

/-- A module with a header that was accepted. -/
structure Elf where
  data : List UInt8
  header : ElfHeader
deriving DecidableEq

namespace Elf

/-- `0x7f`, `ELF` -/
def Magic (data : List UInt8) : Prop := data.take 4 = [0x7f, 0x45, 0x4c, 0x46]
deriving Decidable

/-- The outer result is a fault, the inner one what the function returns. -/
def parse (data : List UInt8) : Except LoadFault (Except ParseError Elf) :=
  if data.length < elfHeaderSize then .ok (.error .tooShortForHeader)
  else
    let header := readElfHeader data
    if ¬ Magic data then .ok (.error .invalidMagic)
    else if data.getD 4 0 ≠ 2 then .ok (.error .not64Bit)
    else do
      -- a product of two `u16` cannot overflow
      let stop ← add .overflow header.phoff (header.phnum * header.phentsize)
      if data.length < stop then return .error .tooShortForProgramHeaders
      else
        require .misaligned (8 ∣ header.phoff)
        return .ok { data, header }

/-- Where the slice of program headers ends: `e_phentsize` plays no part. -/
def tableEnd (elf : Elf) : ℕ := elf.header.phoff + programHeaderSize * elf.header.phnum

def programHeader (elf : Elf) (i : ℕ) : Except LoadFault ProgramHeader := do
  let offset := elf.header.phoff + programHeaderSize * i
  require .outsideModule (offset + programHeaderSize ≤ elf.data.length)
  return readProgramHeader elf.data offset

/-- The checks before the program headers are looked at. -/
def Accepted (data : List UInt8) : Prop :=
  elfHeaderSize ≤ data.length ∧ Magic data ∧ data.getD 4 0 = 2
deriving Decidable

variable {data : List UInt8} {elf : Elf} {i : ℕ} {ph : ProgramHeader}

def claimedEnd (data : List UInt8) : ℕ :=
  (readElfHeader data).phoff + (readElfHeader data).phnum * (readElfHeader data).phentsize

lemma parse_of_accepted (h : Accepted data) :
    parse data = if claimedEnd data < u64Size then
        if data.length < claimedEnd data then .ok (.error .tooShortForProgramHeaders)
        else if 8 ∣ (readElfHeader data).phoff then .ok (.ok ⟨data, readElfHeader data⟩)
        else .error .misaligned
      else .error .overflow := by
  rw [parse, if_neg (Nat.not_lt.mpr h.1), if_neg (not_not.mpr h.2.1), if_neg (not_not.mpr h.2.2)]
  unfold add require claimedEnd
  split
  · rw [ok_bind]
    split
    · rfl
    · split <;> rfl
  · rfl

lemma parse_of_not_accepted (h : ¬ Accepted data) : ∃ e, parse data = .ok (.error e) := by
  unfold parse
  split
  · exact ⟨_, rfl⟩
  split
  · exact ⟨_, rfl⟩
  split
  · exact ⟨_, rfl⟩
  · exact absurd ⟨by omega, not_not.mp ‹_›, not_not.mp ‹_›⟩ h

lemma parse_eq_ok : parse data = .ok (.ok elf) ↔ Accepted data ∧ claimedEnd data < u64Size
    ∧ claimedEnd data ≤ data.length ∧ 8 ∣ (readElfHeader data).phoff
    ∧ elf = ⟨data, readElfHeader data⟩ := by
  by_cases h : Accepted data
  case neg =>
    obtain ⟨e, he⟩ := parse_of_not_accepted h
    rw [he]
    exact iff_of_false nofun fun hall => h hall.1
  rw [parse_of_accepted h, ← Nat.not_lt]
  by_cases hlt : claimedEnd data < u64Size <;> by_cases hle : data.length < claimedEnd data
    <;> by_cases haligned : 8 ∣ (readElfHeader data).phoff <;> simp [h, hlt, hle, haligned, eq_comm]

lemma exists_parse : (∃ result, parse data = .ok result) ↔
    (Accepted data → claimedEnd data < u64Size
      ∧ (claimedEnd data ≤ data.length → 8 ∣ (readElfHeader data).phoff)) := by
  by_cases h : Accepted data
  case neg =>
    obtain ⟨e, he⟩ := parse_of_not_accepted h
    exact iff_of_true ⟨_, he⟩ fun hyes => absurd hyes h
  rw [parse_of_accepted h, ← Nat.not_lt]
  by_cases hlt : claimedEnd data < u64Size <;> by_cases hle : data.length < claimedEnd data
    <;> by_cases haligned : 8 ∣ (readElfHeader data).phoff <;> simp [h, hlt, hle, haligned]

lemma programHeader_eq_ok : elf.programHeader i = .ok ph ↔
    elf.header.phoff + programHeaderSize * i + programHeaderSize ≤ elf.data.length
      ∧ ph = readProgramHeader elf.data (elf.header.phoff + programHeaderSize * i) := by
  constructor
  · intro h
    obtain ⟨_, hinside, h⟩ := bind_eq_ok.mp h
    cases h
    exact ⟨of_require hinside, rfl⟩
  · rintro ⟨hinside, rfl⟩
    exact bind_eq_ok.mpr ⟨_, require_of _ hinside, rfl⟩

/-! ## Small modules -/

/-- A number in `n` bytes, little-endian. -/
def writeLe : (n value : ℕ) → List UInt8
  | 0, _ => []
  | n + 1, value => UInt8.ofNat (value % 256) :: writeLe n (value / 256)

def writeProgramHeader (ph : ProgramHeader) : List UInt8 :=
  writeLe 4 ph.type ++ writeLe 4 ph.flags ++ writeLe 8 ph.offset ++ writeLe 8 ph.vaddr
    ++ writeLe 8 0 ++ writeLe 8 ph.filesz ++ writeLe 8 ph.memsz ++ writeLe 8 0x1000

def writeElfHeader (header : ElfHeader) : List UInt8 :=
  [0x7f, 0x45, 0x4c, 0x46, 2, 1, 1] ++ List.replicate 9 0
    ++ writeLe 2 header.type ++ writeLe 2 0x3e ++ writeLe 4 1 ++ writeLe 8 header.entry
    ++ writeLe 8 header.phoff ++ writeLe 8 0 ++ writeLe 4 0 ++ writeLe 2 elfHeaderSize
    ++ writeLe 2 header.phentsize ++ writeLe 2 header.phnum ++ writeLe 6 0

/-- A module whose program headers follow its header and stand before its contents. -/
def moduleOf (type entry : ℕ) (segments : List ProgramHeader) (contents : List UInt8) :
    List UInt8 :=
  writeElfHeader ⟨type, entry, elfHeaderSize, programHeaderSize, segments.length⟩
    ++ segments.flatMap writeProgramHeader ++ contents

end Elf

end ThingOS
