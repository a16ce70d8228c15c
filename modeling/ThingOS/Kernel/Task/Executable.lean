import ThingOS.Common.Program
import ThingOS.Kernel.Mm.AddressSpace
import ThingOS.Kernel.Task.Elf

/-!
# Loading a module

A translation of `load_elf` in `kernel/src/task/executable.rs`. The loader maps a user stack, then
for every loadable segment maps the pages it lies on and copies the file bytes to them page by page.
It works through the direct map, so that a write to a frame is a write to physical memory here. The
allocator is the list of the frames it will hand out.

Log output is left out, except that the number of pages in a log line is computed by a subtraction
that can panic.
-/

namespace ThingOS

open Program Checked AddressSpace

inductive LoadError where
  | parse
  | stackFrame
  | mapStackPage
  | updateFlags
  | allocateFrame
  | mapPage
  | translateForCopy

/-- What the loader works on: the page tables of the new address space, the frames the allocator
has left, and physical memory. -/
structure Machine where
  space : AddressSpace
  frames : List ℕ
  memory : ℕ → UInt8

abbrev Load := Program Machine LoadError LoadFault

def userCodeBase : ℕ := 0x400000000000
def userStackTop : ℕ := 0x700000000000
def userStackSize : ℕ := 16 * pageSize

/-- A frame that a segment gets must not lie below this address. -/
def collisionLimit : ℕ := 0x4102000

namespace VirtAddr

def new (addr : ℕ) : Except LoadFault VirtAddr :=
  match tryNew addr with
  | some v => .ok v
  | none => .error .notCanonical

/-- `self + rhs` -/
def add (v : VirtAddr) (n : ℕ) : Except LoadFault VirtAddr := do
  new (← Checked.add .overflow v.asU64 n)

/-- `self - rhs` -/
def sub (v : VirtAddr) (n : ℕ) : Except LoadFault VirtAddr := do
  new (← Checked.sub .overflow v.asU64 n)

end VirtAddr

def loadAddress (header : ElfHeader) (addr : ℕ) : Except LoadFault VirtAddr :=
  if header.type = etDyn then do (← VirtAddr.new userCodeBase).add addr
  else VirtAddr.new addr

/-- `elf_flags_to_pt_flags` -/
def ProgramHeader.pageFlags (ph : ProgramHeader) : PageTableFlags :=
  let flags : PageTableFlags := .present ||| .userAccessible
  let flags := if ph.flags &&& pfW ≠ 0 then flags ||| .writable else flags
  if ph.flags &&& pfX = 0 then flags ||| .noExecute else flags

/-- Where a segment lies: its first address, and its first and last page. -/
structure Placement where
  vaddr : VirtAddr
  firstPage : ℕ
  lastPage : ℕ

/-- The address computations before a segment is mapped, up to the page count in the log line. -/
def place (header : ElfHeader) (ph : ProgramHeader) : Except LoadFault Placement := do
  let vaddr ← loadAddress header ph.vaddr
  let endVaddr ← vaddr.add ph.memsz
  let last ← endVaddr.sub 1
  require .pageOrder (vaddr.page ≤ last.page)
  return { vaddr, firstPage := vaddr.page, lastPage := last.page }

def Placement.pages (place : Placement) : List ℕ :=
  Page.rangeInclusive place.firstPage place.lastPage

namespace Load

def allocateFrame (error : LoadError) : Load ℕ := do
  let m ← read
  match m.frames with
  | [] => fail error
  | frame :: frames =>
    write { m with frames }
    return frame

def mapTo (error : LoadError) (page frame : ℕ) (flags : PageTableFlags) : Load Unit := do
  let m ← read
  let (result, space, frames) := m.space.mapTo m.frames page frame flags
  write { m with space, frames }
  match result with
  | .ok () => return ()
  | .error _ => fail error

def updateFlags (error : LoadError) (page : ℕ) (flags : PageTableFlags) : Load Unit := do
  let m ← read
  let (result, space) := m.space.updateFlags page flags
  write { m with space }
  match result with
  | .ok () => return ()
  | .error _ => fail error

def stackPages : List ℕ :=
  Page.rangeInclusive ((userStackTop - userStackSize) / pageSize) ((userStackTop - 1) / pageSize)

def mapStackPage (page : ℕ) : Load Unit := do
  let frame ← allocateFrame .stackFrame
  mapTo .mapStackPage page frame (.present ||| .userAccessible ||| .writable)

/-- Map a page of a segment. A page that is mapped already keeps its frame, and its flags are only
widened: to writable, or to executable. -/
def mapPage (desired : PageTableFlags) (page : ℕ) : Load Unit := do
  let m ← read
  match m.space.translate page with
  | some ⟨_, existing⟩ =>
    let makeWritable := desired.contains .writable && !existing.contains .writable
    let makeExecutable := existing.contains .noExecute && !desired.contains .noExecute
    let flags := if makeWritable then existing ||| .writable else existing
    let flags := if makeExecutable then flags &&& ~~~.noExecute else flags
    if makeWritable || makeExecutable then updateFlags .updateFlags page flags
    else return ()
  | none =>
    let frame ← allocateFrame .allocateFrame
    lift (require .frameCollision (collisionLimit ≤ frame))
    mapTo .mapPage page frame desired

def writeBytes (memory : ℕ → UInt8) (dst : ℕ) (bytes : List UInt8) : ℕ → UInt8 := fun x =>
  if dst ≤ x ∧ x < dst + bytes.length then bytes.getD (x - dst) 0 else memory x

/-- Copy the part of the file that falls into a page. That `hhdm` and the frame add up to an address
is taken for granted. -/
def copyPage (data : List UInt8) (ph : ProgramHeader) (segStart fileEnd page : ℕ) : Load Unit := do
  let pageStart := Page.startU64 page
  let pageEnd ← lift (Checked.add .overflow pageStart pageSize)
  let m ← read
  match m.space.translate page with
  | none => fail .translateForCopy
  | some ⟨frame, _⟩ =>
    if pageStart < fileEnd then
      let copyStart := max pageStart segStart
      let copyEnd := min pageEnd fileEnd
      if copyStart < copyEnd then
        let len := copyEnd - copyStart
        let start ← lift (Checked.add .overflow ph.offset (copyStart - segStart))
        let stop ← lift (Checked.add .overflow start len)
        lift (require .sliceIndex (stop ≤ data.length))
        let bytes := (data.drop start).take len
        let memory := writeBytes m.memory (frame + (copyStart - pageStart)) bytes
        write { m with memory }
      else return ()
    else return ()

/-- Map the pages of a segment, then fill them. -/
def loadSegment (data : List UInt8) (header : ElfHeader) (ph : ProgramHeader) : Load Unit :=
  if ph.type ≠ ptLoad then return ()
  else do
    let placed ← lift (place header ph)
    forEach (mapPage ph.pageFlags) placed.pages
    let segStart := placed.vaddr.asU64
    -- the end in memory is the sum that was taken when the segment was placed
    let fileEnd ← lift (Checked.add .overflow segStart ph.filesz)
    forEach (copyPage data ph segStart fileEnd) placed.pages

/-- The loop over the program headers. -/
def loadSegments (elf : Elf) : List ℕ → Load Unit :=
  forEach fun i => do
    let ph ← lift (elf.programHeader i)
    loadSegment elf.data elf.header ph

end Load

structure LoadedElf where
  entry : VirtAddr
  stackTop : ℕ

def loadElf (data : List UInt8) : Load LoadedElf := do
  match ← lift (Elf.parse data) with
  | .error _ => fail .parse
  | .ok elf =>
    forEach Load.mapStackPage Load.stackPages
    Load.loadSegments elf (List.range elf.header.phnum)
    let entry ← lift (loadAddress elf.header elf.header.entry)
    return { entry, stackTop := userStackTop }

/-! ## Placing a segment -/

namespace VirtAddr

variable {v w : VirtAddr} {n : ℕ}

lemma asU64_of_low (h : v.bits < 2 ^ 47) : v.asU64 = v.bits := if_pos h

lemma new_eq_ok {addr : ℕ} : new addr = .ok v ↔ tryNew addr = some v := by
  unfold new
  cases tryNew addr <;> simp

lemma bits_of_new {addr : ℕ} (hlow : addr < 2 ^ 48) (h : new addr = .ok v) : v.bits = addr := by
  rw [new_eq_ok, tryNew, dif_pos hlow, Option.some.injEq] at h
  rw [← h]

lemma bits_of_add (hv : v.bits < 2 ^ 47) (hn : v.bits + n < 2 ^ 48) (h : v.add n = .ok w) :
    w.bits = v.bits + n := by
  obtain ⟨sum, hsum, h⟩ := Checked.bind_eq_ok.mp h
  obtain ⟨-, rfl⟩ := Checked.add_eq_ok.mp hsum
  rw [asU64_of_low hv] at h
  exact bits_of_new hn h

/-- The first address of the upper half has none before it. -/
lemma bits_of_sub_one (hv : v.bits ≤ 2 ^ 47) (h : v.sub 1 = .ok w) :
    v.bits < 2 ^ 47 ∧ 1 ≤ v.bits ∧ w.bits = v.bits - 1 := by
  obtain ⟨difference, hdifference, h⟩ := Checked.bind_eq_ok.mp h
  obtain ⟨hone, rfl⟩ := Checked.sub_eq_ok.mp hdifference
  rcases hv.lt_or_eq with hlt | heq
  · rw [asU64_of_low hlt] at hone h
    exact ⟨hlt, hone, bits_of_new (by omega) h⟩
  · have hvalue : v.asU64 - 1 = 2 ^ 64 - 2 ^ 47 - 1 := by
      rw [asU64, if_neg (by omega), heq]
      decide
    have hnone : tryNew (2 ^ 64 - 2 ^ 47 - 1) = none := by decide
    rw [hvalue, new_eq_ok, hnone] at h
    cases h

end VirtAddr

variable {header : ElfHeader} {ph : ProgramHeader}

lemma place_eq_ok {placed : Placement} :
    place header ph = .ok placed ↔ ∃ vaddr endVaddr last, loadAddress header ph.vaddr = .ok vaddr
      ∧ vaddr.add ph.memsz = .ok endVaddr ∧ endVaddr.sub 1 = .ok last ∧ vaddr.page ≤ last.page
      ∧ placed = ⟨vaddr, vaddr.page, last.page⟩ := by
  constructor
  · intro h
    obtain ⟨vaddr, hvaddr, h⟩ := Checked.bind_eq_ok.mp h
    obtain ⟨endVaddr, hend, h⟩ := Checked.bind_eq_ok.mp h
    obtain ⟨last, hlast, h⟩ := Checked.bind_eq_ok.mp h
    obtain ⟨_, horder, h⟩ := Checked.bind_eq_ok.mp h
    cases h
    exact ⟨vaddr, endVaddr, last, hvaddr, hend, hlast, of_require horder, rfl⟩
  · rintro ⟨vaddr, endVaddr, last, hvaddr, hend, hlast, horder, rfl⟩
    rw [place, hvaddr, ok_bind, hend, ok_bind, hlast, ok_bind,
      require_of _ horder]
    rfl

/-- A segment of the user's half lies on the pages from that of its first byte to that of its last
one. -/
lemma placed_of_low {placed : Placement}
    {vaddr : VirtAddr} (hplaced : place header ph = .ok placed)
    (hvaddr : loadAddress header ph.vaddr = .ok vaddr) (hlow : vaddr.bits < 2 ^ 47)
    (hend : vaddr.bits + ph.memsz ≤ 2 ^ 47) :
    placed.vaddr = vaddr ∧ placed.firstPage = vaddr.bits / pageSize
      ∧ placed.lastPage = (vaddr.bits + ph.memsz - 1) / pageSize
      ∧ placed.lastPage < kernelHalf := by
  obtain ⟨vaddr', endVaddr, last, hvaddr', hadd, hsub, -, rfl⟩ := place_eq_ok.mp hplaced
  cases hvaddr.symm.trans hvaddr'
  have hsum := VirtAddr.bits_of_add hlow (by omega) hadd
  obtain ⟨hendlow, hone, hlast⟩ := VirtAddr.bits_of_sub_one (hsum ▸ hend) hsub
  rw [hsum] at hlast hendlow
  have hpage : last.page = (vaddr.bits + ph.memsz - 1) / pageSize := by rw [VirtAddr.page, hlast]
  refine ⟨rfl, rfl, hpage, ?_⟩
  rw [hpage, Nat.div_lt_iff_lt_mul pageSize_pos]
  have hhalf : kernelHalf * pageSize = 2 ^ 47 := by decide
  omega

/-- The ways `create_user_page_table` can panic. -/
inductive PageTablePanic where
  | noFrame
  | hhdmEntryNotPresent
  | kernelNotMapped
  | hhdmNotMapped
deriving DecidableEq

/-- A new level 4 table with the kernel's half of the active one. The pages are those of the direct
map's first address, of a function of the kernel, and of the active level 4 table. -/
def createUserPageTable (active : AddressSpace) (hhdm kernelFunction activeTable : ℕ) :
    List ℕ → Except PageTablePanic (AddressSpace × List ℕ)
  | [] => .error .noFrame
  | _ :: frames => do
    let space : AddressSpace := fun i => if 256 ≤ i ∧ i < 512 then active i else .unused
    require .hhdmEntryNotPresent ((space (Page.p4Index hhdm)).isUsed = true)
    require .kernelNotMapped ((space.translate kernelFunction).isSome = true)
    require .hhdmNotMapped ((space.translate activeTable).isSome = true)
    return (space, frames)

/-! ## The steps on a machine -/

namespace Machine

def mapTo (m : Machine) (page frame : ℕ) (flags : PageTableFlags) : Machine :=
  let (_, space, frames) := m.space.mapTo m.frames page frame flags
  { m with space, frames }

def updateFlags (m : Machine) (page : ℕ) (flags : PageTableFlags) : Machine :=
  { m with space := (m.space.updateFlags page flags).2 }

end Machine

namespace Load

variable {m : Machine} {error : LoadError} {page frame : ℕ} {flags : PageTableFlags}

lemma allocateFrame_nil (h : m.frames = []) : allocateFrame error m = .failed error m := by
  show (match m.frames with | [] => fail error | frame :: frames => _ : Load ℕ) m = _
  rw [h]
  rfl

lemma allocateFrame_cons {frames : List ℕ} (h : m.frames = frame :: frames) :
    allocateFrame error m = .done frame { m with frames } := by
  show (match m.frames with | [] => fail error | frame :: frames => _ : Load ℕ) m = _
  rw [h]
  rfl

lemma mapTo_apply : mapTo error page frame flags m
    = match (m.space.mapTo m.frames page frame flags).1 with
      | .ok () => .done () (m.mapTo page frame flags)
      | .error _ => .failed error (m.mapTo page frame flags) := by
  show (match (m.space.mapTo m.frames page frame flags).1 with
    | .ok () => pure () | .error _ => fail error : Load Unit)
      (m.mapTo page frame flags) = _
  cases (m.space.mapTo m.frames page frame flags).1 <;> rfl

lemma updateFlags_apply : updateFlags error page flags m
    = match (m.space.updateFlags page flags).1 with
      | .ok () => .done () (m.updateFlags page flags)
      | .error _ => .failed error (m.updateFlags page flags) := by
  show (match (m.space.updateFlags page flags).1 with
    | .ok () => pure () | .error _ => fail error : Load Unit)
      (m.updateFlags page flags) = _
  cases (m.space.updateFlags page flags).1 <;> rfl

/-! ## Invariants of a load -/

/-- `J` is kept by everything the loader does to map a page. -/
structure MapKept (J : Machine → Prop) (page : ℕ) : Prop where
  take : ∀ m frame frames, J m → m.frames = frame :: frames → J { m with frames }
  map : ∀ m frame frames flags, J m → m.frames = frame :: frames →
    J (Machine.mapTo { m with frames } page frame flags)
  flags : ∀ m flags, J m → J (m.updateFlags page flags)

/-- `J` is kept by everything the loader does to a page. -/
structure Kept (J : Machine → Prop) (page : ℕ) : Prop extends MapKept J page where
  copy : ∀ m frame dst bytes, J m → m.space.frameOf page = some frame → frame ≤ dst →
    dst + bytes.length ≤ frame + pageSize → J { m with memory := writeBytes m.memory dst bytes }

variable {J : Machine → Prop}

lemma mapTo_keeps {P : Machine → Prop} (h : ∀ m, P m → J (m.mapTo page frame flags)) :
    Program.Triple P (mapTo error page frame flags) (fun _ => J) J := by
  refine ⟨fun m hm => ?_⟩
  rw [mapTo_apply]
  cases (m.space.mapTo m.frames page frame flags).1 <;> exact h m hm

lemma updateFlags_keeps (h : ∀ m, J m → J (m.updateFlags page flags)) :
    Program.Triple J (updateFlags error page flags) (fun _ => J) J := by
  refine ⟨fun m hm => ?_⟩
  rw [updateFlags_apply]
  cases (m.space.updateFlags page flags).1 <;> exact h m hm

/-- The frame that was taken stood in front of the frames that are left. -/
lemma allocateFrame_keeps (htake : ∀ m frame frames, J m → m.frames = frame :: frames →
    J { m with frames }) :
    Program.Triple J (allocateFrame error) (fun frame m => J m ∧ ∃ before : Machine,
      J before ∧ before.frames = frame :: m.frames ∧ m = { before with frames := m.frames }) J := by
  refine ⟨fun m hm => ?_⟩
  cases hframes : m.frames with
  | nil =>
    rw [allocateFrame_nil hframes]
    exact hm
  | cons frame frames =>
    rw [allocateFrame_cons hframes]
    exact ⟨htake m frame frames hm hframes, m, hm, hframes, rfl⟩

lemma MapKept.map_taken (h : MapKept J page) (m : Machine) (hm : J m ∧ ∃ before : Machine,
    J before ∧ before.frames = frame :: m.frames ∧ m = { before with frames := m.frames }) :
    J (m.mapTo page frame flags) := by
  obtain ⟨-, before, hbefore, hframes, heq⟩ := hm
  rw [heq]
  exact h.map before frame m.frames flags hbefore hframes

lemma mapStackPage_keeps (h : MapKept J page) :
    Program.Triple J (mapStackPage page) (fun _ => J) J :=
  (allocateFrame_keeps h.take).bind fun _ => mapTo_keeps h.map_taken

lemma mapPage_keeps (h : MapKept J page) :
    Program.Triple J (mapPage flags page) (fun _ => J) J := by
  refine .read_bind fun m hm => Program.Triple.mono (P := J) ?_ (by rintro _ rfl; exact hm)
  split
  · dsimp only
    split
    · exact updateFlags_keeps fun m => h.flags m _
    · exact .pure fun _ => id
  · refine (allocateFrame_keeps h.take).bind fun frame => ?_
    exact .lift_bind (fun _ _ => mapTo_keeps h.map_taken) fun m hm => hm.1

lemma kept_mapped (page q : ℕ) : Kept (fun m => (m.space.frameOf q).isSome = true) page where
  take _ _ _ h _ := h
  map m frame frames flags h _ := by
    rcases frameOf_mapTo m.space frames page frame flags q
      with hold | ⟨rfl, -, hnew⟩
    · exact (congrArg Option.isSome hold).trans h
    · exact congrArg Option.isSome hnew
  flags _ _ h := (congrArg Option.isSome frameOf_updateFlags).trans h
  copy _ _ _ _ h _ _ _ := h

lemma mapPage_maps (flags : PageTableFlags) (page : ℕ) :
    Program.Triple (fun _ => True) (mapPage flags page)
      (fun _ m => (m.space.frameOf page).isSome = true) fun _ => True := by
  refine .read_bind fun m _ => ?_
  split
  case h_1 frame existing hmapped =>
    have hframe : ∀ s, s = m → (s.space.frameOf page).isSome = true := by
      rintro _ rfl
      rw [frameOf, hmapped]
      rfl
    dsimp only
    split
    · refine ((updateFlags_keeps ?_).mono hframe).imp (fun _ _ => id) fun _ _ => trivial
      exact fun m => (kept_mapped page page).flags m _
    · exact .pure hframe
  case h_2 =>
    refine .bind (Q := fun _ _ => True) ?_ fun frame => ?_
    · exact ((allocateFrame_keeps (J := fun _ => True) fun _ _ _ _ _ => trivial).mono
        fun _ _ => trivial).imp (fun _ _ _ => trivial) fun _ _ => trivial
    refine .lift_bind (fun _ _ => ⟨fun s _ => ?_⟩) fun _ _ => trivial
    rw [mapTo_apply]
    cases hok : (s.space.mapTo s.frames page frame flags).1 with
    | error e => trivial
    | ok u =>
      show (frameOf (s.space.mapTo s.frames page frame flags).2.1 page).isSome = true
      rw [frameOf, translate_mapTo hok]
      rfl

lemma copyPage_keeps {data : List UInt8} {segStart fileEnd : ℕ}
    (hcopy : ∀ m frame dst bytes, J m → m.space.frameOf page = some frame → frame ≤ dst →
      dst + bytes.length ≤ frame + pageSize →
      J { m with memory := writeBytes m.memory dst bytes }) :
    Program.Triple J (copyPage data ph segStart fileEnd page) (fun _ => J) J := by
  refine .lift_bind (fun pageEnd hend => ?_) fun _ => id
  obtain ⟨-, rfl⟩ := Checked.add_eq_ok.mp hend
  refine .read_bind fun m hm => ?_
  have hkeep : ∀ s, s = m → J s := by
    rintro _ rfl
    exact hm
  split
  case h_1 => exact .fail hkeep
  case h_2 frame fl hmapped =>
    dsimp only
    split
    case isFalse => exact .pure hkeep
    split
    case isFalse => exact .pure hkeep
    refine .lift_bind (fun start _ => ?_) hkeep
    refine .lift_bind (fun stop _ => ?_) hkeep
    refine .lift_bind (fun _ _ => .write ?_) hkeep
    rintro _ rfl
    refine hcopy _ frame _ _ hm ?_ (Nat.le_add_right _ _) ?_
    · rw [frameOf, hmapped]
      rfl
    · rw [List.length_take]
      omega

lemma loadSegment_keeps {data : List UInt8}
    (h : ph.type = ptLoad → ∀ placed, place header ph = .ok placed → ∀ page ∈ placed.pages,
      Kept J page) :
    Program.Triple J (loadSegment data header ph) (fun _ => J) J := by
  unfold loadSegment
  split
  case isTrue => exact .pure fun _ => id
  case isFalse htype =>
    refine .lift_bind (fun placed hplaced => ?_) fun _ => id
    have hpages := h (not_not.mp htype) placed hplaced
    refine .bind (.forEach_mem fun page hpage => ?_) fun _ => ?_
    · exact mapPage_keeps (hpages page hpage).toMapKept
    refine .lift_bind (fun fileEnd _ => ?_) fun _ => id
    exact .forEach_mem fun page hpage => copyPage_keeps (hpages page hpage).copy

/-- An invariant of the pages of the stack and of every segment is an invariant of the load, however
it ends. -/
lemma loadElf_keeps (data : List UInt8) (hstack : ∀ page ∈ stackPages, Kept J page)
    (hsegments : ∀ elf, Elf.parse data = .ok (.ok elf) → ∀ i < elf.header.phnum,
      ∀ ph, elf.programHeader i = .ok ph → ph.type = ptLoad →
      ∀ placed, place elf.header ph = .ok placed → ∀ page ∈ placed.pages, Kept J page) :
    Program.Triple J (loadElf data) (fun _ => J) J := by
  refine .lift_bind (fun parsed hparsed => ?_) fun _ => id
  cases parsed with
  | error e => exact .fail fun _ => id
  | ok elf =>
    refine .bind (.forEach_mem fun page hpage => ?_) fun _ => ?_
    · exact mapStackPage_keeps (hstack page hpage).toMapKept
    refine .bind (.forEach_mem fun i hi => ?_) fun _ => ?_
    · refine .lift_bind (fun ph hph => ?_) fun _ => id
      exact loadSegment_keeps (hsegments elf hparsed i (List.mem_range.mp hi) ph hph)
    · exact .lift_bind (fun entry _ => .pure fun _ => id) fun _ => id

end Load

end ThingOS
