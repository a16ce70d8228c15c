import ThingOS.Kernel.Task.Executable

/-!
# What a load leaves alone

A module is loaded into an address space whose lower half is empty and whose upper half is the
kernel's. While every segment lies in the lower half, the load writes only to frames it has
allocated itself and the kernel's half stays as it was, however the load ends. The loader does not
check where a segment lies: one in the upper half is written over the kernel.
-/

namespace ThingOS

open AddressSpace

/-- The load that led from `start` to `m` has allocated the frames `taken`, left the kernel's half
of the page tables alone, mapped the user's half to its own frames only, and written only to
them. -/
structure IsolatedBy (taken : List ℕ) (start m : Machine) : Prop where
  frames : start.frames = taken ++ m.frames
  kernel : ∀ i, 256 ≤ i → m.space i = start.space i
  user : ∀ page < kernelHalf, ∀ frame, m.space.frameOf page = some frame → frame ∈ taken
  memory : ∀ x, (∀ frame ∈ taken, ¬ (frame ≤ x ∧ x < frame + pageSize)) →
    m.memory x = start.memory x

def Isolated (start m : Machine) : Prop := ∃ taken, IsolatedBy taken start m

variable {frames : List ℕ}

namespace IsolatedBy

variable {taken : List ℕ} {start m : Machine} {page frame : ℕ} {flags : PageTableFlags}

lemma more (h : IsolatedBy taken start m) (used : List ℕ) (m' : Machine)
    (hframes : m.frames = used ++ m'.frames) (hkernel : ∀ i, 256 ≤ i → m'.space i = m.space i)
    (huser : ∀ page < kernelHalf, ∀ frame, m'.space.frameOf page = some frame →
      m.space.frameOf page = some frame ∨ frame ∈ taken ++ used)
    (hmemory : m'.memory = m.memory) : IsolatedBy (taken ++ used) start m' where
  frames := by rw [h.frames, hframes, List.append_assoc]
  kernel i hi := (hkernel i hi).trans (h.kernel i hi)
  user page hpage frame hframe :=
    (huser page hpage frame hframe).elim
      (fun hold => List.mem_append_left _ (h.user page hpage frame hold)) id
  memory x hx := by
    rw [hmemory]
    exact h.memory x fun frame hframe => hx frame (List.mem_append_left _ hframe)

lemma mapTo (h : IsolatedBy taken start m)
    (hframes : m.frames = frame :: frames) (hpage : page < kernelHalf) :
    Isolated start (Machine.mapTo { m with frames } page frame flags) := by
  obtain ⟨used, hused⟩ := @AddressSpace.frames_mapTo m.space frames page frame flags
  refine ⟨_, h.more (frame :: used) _ ?_ ?_ ?_ rfl⟩
  · rw [hframes]
    exact congrArg (frame :: ·) hused.symm
  · intro i hi
    have hindex := Page.p4Index_lt.mpr hpage
    exact mapTo_of_ne (by omega)
  · intro q _ g hg
    rcases frameOf_mapTo m.space frames page frame flags q
      with hold | ⟨rfl, -, hnew⟩
    · exact .inl (hold.symm.trans hg)
    · obtain rfl := Option.some.inj (hnew.symm.trans hg)
      exact .inr (List.mem_append_right _ List.mem_cons_self)

lemma write {dst : ℕ} {bytes : List UInt8} (h : IsolatedBy taken start m)
    (hpage : page < kernelHalf) (hframe : m.space.frameOf page = some frame) (hlow : frame ≤ dst)
    (hhigh : dst + bytes.length ≤ frame + pageSize) :
    IsolatedBy taken start { m with memory := Load.writeBytes m.memory dst bytes } where
  frames := h.frames
  kernel := h.kernel
  user := h.user
  memory x hx := by
    have hout : ¬ (dst ≤ x ∧ x < dst + bytes.length) := by
      intro hin
      exact hx frame (h.user page hpage frame hframe) ⟨by omega, by omega⟩
    exact (if_neg hout).trans (h.memory x hx)

end IsolatedBy

lemma Isolated.kept {page : ℕ} (start : Machine) (hpage : page < kernelHalf) :
    Load.Kept (Isolated start) page where
  take m frame frames := by
    rintro ⟨taken, h⟩ hframes
    exact ⟨_, h.more [frame] _ hframes (fun _ _ => rfl) (fun _ _ _ => .inl) rfl⟩
  map m frame frames flags := by
    rintro ⟨taken, h⟩ hframes
    exact h.mapTo hframes hpage
  flags m flags := by
    rintro ⟨taken, h⟩
    refine ⟨_, h.more [] _ rfl (fun i hi => ?_) (fun q _ g hg => ?_) rfl⟩
    · have hindex := Page.p4Index_lt.mpr hpage
      exact updateFlags_of_ne (by omega)
    · exact .inl (frameOf_updateFlags.symm.trans hg)
  copy m frame dst bytes := by
    rintro ⟨taken, h⟩ hframe hlow hhigh
    exact ⟨taken, h.write hpage hframe hlow hhigh⟩

lemma Load.stackPages_lt {page : ℕ} (h : page ∈ Load.stackPages) : page < kernelHalf := by
  have hlast := (Page.mem_rangeInclusive.mp h).2
  exact hlast.trans_lt (by decide)

/-- Every loadable segment that can be placed ends in the user's half. -/
def UserSegments (data : List UInt8) : Prop :=
  ∀ elf, Elf.parse data = .ok (.ok elf) → ∀ i < elf.header.phnum,
    ∀ ph, elf.programHeader i = .ok ph → ph.type = ptLoad →
    ∀ placed, place elf.header ph = .ok placed → placed.lastPage < kernelHalf

variable {active space : AddressSpace} {hhdm kernelFunction activeTable : ℕ} {given : List ℕ}

section

variable
  (h : createUserPageTable active hhdm kernelFunction activeTable given = .ok (space, frames))
include h

/-- A new address space maps nothing in the user's half, and the kernel's half of the active one. -/
lemma of_createUserPageTable :
    space = fun i => if 256 ≤ i ∧ i < 512 then active i else .unused := by
  cases given with
  | nil => cases h
  | cons frame given =>
    obtain ⟨_, -, h⟩ := Checked.bind_eq_ok.mp h
    obtain ⟨_, -, h⟩ := Checked.bind_eq_ok.mp h
    obtain ⟨_, -, h⟩ := Checked.bind_eq_ok.mp h
    cases h
    rfl

lemma unmapped_of_created {page : ℕ} (hpage : page < kernelHalf) : space.frameOf page = none := by
  have hindex := Page.p4Index_lt.mpr hpage
  have hunused : space (Page.p4Index page) = .unused := by
    rw [of_createUserPageTable h]
    exact if_neg (by omega)
  rw [AddressSpace.frameOf, AddressSpace.translate, hunused]
  rfl

end

/-- A load into a new address space, all of whose segments lie in the user's half, writes only to
frames it has allocated and leaves the kernel's half as the active address space has it, however it
ends. -/
theorem load_isolation {data : List UInt8} {active space : AddressSpace}
    {hhdm kernelFunction activeTable : ℕ} {given frames : List ℕ} (memory : ℕ → UInt8)
    (hcreated : createUserPageTable active hhdm kernelFunction activeTable given
      = .ok (space, frames)) (hsegments : UserSegments data) :
    Isolated { space, frames, memory } (loadElf data { space, frames, memory }).state
      ∧ ∀ i, 256 ≤ i → i < 512 →
        (loadElf data { space, frames, memory }).state.space i = active i := by
  have hspace := of_createUserPageTable hcreated
  have hstart : Isolated { space, frames, memory } { space, frames, memory } := by
    refine ⟨[], rfl, fun _ _ => rfl, fun page hpage frame hframe => ?_, fun _ _ => rfl⟩
    rw [unmapped_of_created hcreated hpage] at hframe
    cases hframe
  have hkept := Load.loadElf_keeps (J := Isolated { space, frames, memory }) data
    (fun page hpage => Isolated.kept _ (Load.stackPages_lt hpage))
    (fun elf hparsed i hi ph hph htype placed hplaced page hpage => by
      have hlast := hsegments elf hparsed i hi ph hph htype placed hplaced
      exact Isolated.kept _ ((Page.mem_rangeInclusive.mp hpage).2.trans_lt hlast))
  have hend := hkept.state_of hstart
  refine ⟨hend, fun i hlow hhigh => ?_⟩
  obtain ⟨taken, h⟩ := hend
  rw [h.kernel i hlow, hspace]
  exact if_pos ⟨hlow, hhigh⟩

/-- A kernel whose half maps one page, the first, to the frame at 2 MiB. -/
def oneKernelPage : AddressSpace := fun i =>
  if i = 256 then .table 0x1000 .present fun i =>
    if i = 0 then .table 0x2000 .present fun i =>
      if i = 0 then .table 0x3000 .present fun i =>
        if i = 0 then some ⟨0x200000, .present⟩ else none
      else .unused
    else .unused
  else .unused

def freeFrames : List ℕ := (List.range 32).map fun i => 0x5000000 + pageSize * i

def oneByteModule (vaddr : ℕ) : List UInt8 :=
  Elf.moduleOf 2 0 [⟨ptLoad, 4, 120, vaddr, 1, 1⟩] [0xAA]

/-- The address space a module is loaded into with `oneKernelPage` active. -/
def oneKernelPageUser : AddressSpace := fun i =>
  if 256 ≤ i ∧ i < 512 then oneKernelPage i else .unused

lemma created_oneKernelPage :
    createUserPageTable oneKernelPage kernelHalf kernelHalf kernelHalf freeFrames
      = .ok (oneKernelPageUser, freeFrames.tail) := by
  rfl

/-- A segment at the first address of the kernel's half is written to the kernel's own frame. -/
theorem kernel_segment_not_isolated :
    createUserPageTable oneKernelPage kernelHalf kernelHalf kernelHalf freeFrames
        = .ok (oneKernelPageUser, freeFrames.tail)
      ∧ oneKernelPage.frameOf kernelHalf = some 0x200000
      ∧ (loadElf (oneByteModule 0xFFFF800000000000)
          ⟨oneKernelPageUser, freeFrames.tail, fun _ => 0⟩).state.memory 0x200000 = 0xAA
      ∧ ¬ Isolated ⟨oneKernelPageUser, freeFrames.tail, fun _ => 0⟩
          (loadElf (oneByteModule 0xFFFF800000000000)
            ⟨oneKernelPageUser, freeFrames.tail, fun _ => 0⟩).state := by
  have hwritten : (loadElf (oneByteModule 0xFFFF800000000000)
      ⟨oneKernelPageUser, freeFrames.tail, fun _ => 0⟩).state.memory 0x200000 = 0xAA := by
    decide +kernel
  have hfree : ∀ frame ∈ freeFrames.tail, 0x200000 < frame := by decide
  refine ⟨created_oneKernelPage, by decide, hwritten, ?_⟩
  rintro ⟨taken, h⟩
  have hkept := h.memory 0x200000 fun frame hframe hin => by
    have hmem : frame ∈ freeFrames.tail := by
      show frame ∈ Machine.frames ⟨oneKernelPageUser, freeFrames.tail, fun _ => 0⟩
      rw [h.frames]
      exact List.mem_append_left _ hframe
    exact absurd hin.1 (Nat.not_le.mpr (hfree frame hmem))
  rw [hwritten] at hkept
  exact absurd hkept (by decide)

lemma userSegments_oneByteModule : UserSegments (oneByteModule 0x400000) := by
  intro elf hparsed i hi ph hph htype placed hplaced
  have hparse : Elf.parse (oneByteModule 0x400000)
      = .ok (.ok ⟨oneByteModule 0x400000, ⟨2, 0, 64, 56, 1⟩⟩) := by decide +kernel
  cases hparse.symm.trans hparsed
  obtain rfl : i = 0 := Nat.lt_one_iff.mp hi
  have hheader : Elf.programHeader ⟨oneByteModule 0x400000, ⟨2, 0, 64, 56, 1⟩⟩ 0
      = .ok ⟨ptLoad, 4, 120, 0x400000, 1, 1⟩ := by decide +kernel
  cases hheader.symm.trans hph
  have hplace : place ⟨2, 0, 64, 56, 1⟩ ⟨ptLoad, 4, 120, 0x400000, 1, 1⟩
      = .ok ⟨⟨0x400000, by decide⟩, 0x400, 0x400⟩ := by rfl
  cases hplace.symm.trans hplaced
  decide

/-- The same byte in a segment of the user's half leaves the kernel alone. -/
theorem load_isolation_oneByteModule :
    Isolated ⟨oneKernelPageUser, freeFrames.tail, fun _ => 0⟩ (loadElf (oneByteModule 0x400000)
        ⟨oneKernelPageUser, freeFrames.tail, fun _ => 0⟩).state
      ∧ ∀ i, 256 ≤ i → i < 512 → (loadElf (oneByteModule 0x400000)
        ⟨oneKernelPageUser, freeFrames.tail, fun _ => 0⟩).state.space i = oneKernelPage i :=
  load_isolation (fun _ => 0) created_oneKernelPage userSegments_oneByteModule

end ThingOS
