import ThingOS.Kernel.Task.LoadImage

/-!
# The permissions of a loaded module

The loader maps a page with the flags of the first segment that lies on it and widens them for each
later one: to writable, and to executable. So the flags of a page say what the segments on it allow
together, in whatever order the program headers list them. The loader's stack pages have flags of
their own, which a segment on the same page may widen.
-/

namespace ThingOS

open AddressSpace Option

/-- What a page allows. -/
structure Rights where
  write : Bool
  execute : Bool
deriving DecidableEq

namespace Rights

/-- Everything either of the two allows. -/
def union (r s : Rights) : Rights := ⟨r.write || s.write, r.execute || s.execute⟩

def flags (r : Rights) : PageTableFlags :=
  let flags : PageTableFlags := .present ||| .userAccessible
  let flags := if r.write then flags ||| .writable else flags
  if r.execute then flags else flags ||| .noExecute

lemma contains_flags (r : Rights) :
    r.flags.contains .present = true ∧ r.flags.contains .userAccessible = true
      ∧ r.flags.contains .writable = r.write ∧ r.flags.contains .noExecute = !r.execute := by
  obtain ⟨write, execute⟩ := r
  cases write <;> cases execute <;> decide

/-- The rights of a page on which another segment lies. -/
def widen (s : Rights) : Option Rights → Rights
  | none => s
  | some r => r.union s

lemma widen_widen (s : Rights) (r : Option Rights) : s.widen (some (s.widen r)) = s.widen r := by
  cases r <;> simp [widen, union]

end Rights

def ProgramHeader.rights (ph : ProgramHeader) : Rights :=
  ⟨decide (ph.flags &&& pfW ≠ 0), decide (ph.flags &&& pfX ≠ 0)⟩

lemma ProgramHeader.pageFlags_eq (ph : ProgramHeader) : ph.pageFlags = ph.rights.flags := by
  simp only [pageFlags, Rights.flags, rights, decide_eq_true_eq, ite_not]

/-- The pages of the user's half outside the stack have exactly these rights. -/
def Grants (rights : ℕ → Option Rights) (m : Machine) : Prop :=
  ∀ page < kernelHalf, page ∉ Load.stackPages →
    (m.space.translate page).map (·.flags) = (rights page).map Rights.flags

variable {space : AddressSpace} {data : List UInt8} {ph : ProgramHeader}

namespace Load

variable {rights : ℕ → Option Rights} {m : Machine} {page : ℕ}

/-- Rights follow the flags of the page that was changed and of the others. -/
lemma grants_update {s : Rights} (h : Grants rights m)
    (hself : page < kernelHalf → page ∉ stackPages →
      (space.translate page).map (·.flags) = some s.flags)
    (hother : ∀ q ≠ page, space.translate q = m.space.translate q) (frames : List ℕ) :
    Grants (Function.update rights page (some s)) { m with space, frames } := by
  intro q hq hstack
  by_cases heq : q = page
  · subst heq
    rw [Function.update_self]
    exact hself hq hstack
  · rw [Function.update_of_ne heq, hother q heq]
    exact h q hq hstack

lemma mapStackPage_grants (hpage : page ∈ stackPages) :
    Program.Triple (Grants rights) (mapStackPage page) (fun _ => Grants rights) fun _ => True := by
  have hframe : Program.Triple (Grants rights) (allocateFrame .stackFrame) (fun _ => Grants rights)
      fun _ => True :=
    (allocateFrame_keeps fun _ _ _ hm _ => hm).imp (fun _ _ hm => hm.1) fun _ _ => trivial
  refine hframe.bind fun frame => ⟨fun m hm => ?_⟩
  rw [mapTo_apply]
  cases hok : (m.space.mapTo m.frames page frame _).1 with
  | error e => trivial
  | ok u =>
    intro q hq hstack
    have hne : q ≠ page := fun heq => hstack (heq ▸ hpage)
    exact (congrArg _ (translate_mapTo_of_ne hok hne)).trans (hm q hq hstack)

/-- The flags that a segment leaves on a page that was mapped before, and whether they are new. -/
lemma widened_flags (r s : Rights) :
    let makeWritable := s.flags.contains .writable && !r.flags.contains .writable
    let makeExecutable := r.flags.contains .noExecute && !s.flags.contains .noExecute
    let flags := if makeWritable then r.flags ||| .writable else r.flags
    (if makeExecutable then flags &&& ~~~.noExecute else flags) = (r.union s).flags
      ∧ ((makeWritable || makeExecutable) = false → r.union s = r) := by
  obtain ⟨write, execute⟩ := r
  obtain ⟨write', execute'⟩ := s
  cases write <;> cases execute <;> cases write' <;> cases execute' <;> decide

/-- Taking a frame changes nothing else. -/
lemma allocateFrame_frames (error : LoadError) (m : Machine) :
    Program.Triple (· = m) (allocateFrame error) (fun _ t => ∃ frames, t = { m with frames })
      fun _ => True := by
  refine ⟨?_⟩
  rintro m rfl
  cases hframes : m.frames with
  | nil =>
    rw [allocateFrame_nil hframes]
    trivial
  | cons frame frames =>
    rw [allocateFrame_cons hframes]
    exact ⟨frames, rfl⟩

lemma mapPage_grants (s : Rights) (page : ℕ) :
    Program.Triple (Grants rights) (mapPage s.flags page)
      (fun _ => Grants (Function.update rights page (some (s.widen (rights page)))))
      fun _ => True := by
  refine .read_bind fun m hm => ?_
  cases htranslate : m.space.translate page with
  | none =>
    refine .bind (allocateFrame_frames _ m) fun frame => ?_
    refine .lift_bind (fun _ _ => ⟨?_⟩) fun _ _ => trivial
    rintro _ ⟨frames, rfl⟩
    rw [mapTo_apply]
    cases hok : (m.space.mapTo frames page frame s.flags).1 with
    | error e => trivial
    | ok u =>
      refine grants_update hm (fun hpage hstack => ?_)
        (fun q hq => translate_mapTo_of_ne hok hq) _
      -- nothing was mapped here, so there were no rights before
      have hnone := hm page hpage hstack
      rw [htranslate, map_none, eq_comm, map_eq_none_iff] at hnone
      rw [translate_mapTo hok, hnone]
      rfl
  | some mapping =>
    have hbefore (hpage : page < kernelHalf) (hstack : page ∉ stackPages) :
        ∃ r, rights page = some r ∧ mapping.flags = r.flags := by
      have hflags := hm page hpage hstack
      rw [htranslate, map_some, eq_comm, map_eq_some_iff] at hflags
      obtain ⟨r, hr, hflags⟩ := hflags
      exact ⟨r, hr, hflags.symm⟩
    dsimp only
    split
    · refine ⟨?_⟩
      rintro m rfl
      rw [updateFlags_apply]
      cases hok : (m.space.updateFlags page _).1 with
      | error e => trivial
      | ok u =>
        refine grants_update hm (fun hpage hstack => ?_)
          (fun q hq => translate_updateFlags_of_ne hq) _
        obtain ⟨r, hr, hflags⟩ := hbefore hpage hstack
        rw [translate_updateFlags hok, htranslate, hr, hflags]
        exact congrArg some (widened_flags r s).1
    · rename_i hupdate
      refine .pure ?_
      rintro m rfl
      refine grants_update hm (fun hpage hstack => ?_) (fun q _ => rfl) _
      obtain ⟨r, hr, hflags⟩ := hbefore hpage hstack
      rw [hflags] at hupdate
      have hsame := (widened_flags r s).2 (Bool.eq_false_iff.mpr hupdate)
      rw [htranslate, hr, Rights.widen, hsame, map_some, hflags]

lemma mapPages_grants (s : Rights) (pages : List ℕ) :
    Program.Triple (Grants rights) (Program.forEach (mapPage s.flags) pages)
      (fun _ => Grants fun p => if p ∈ pages then some (s.widen (rights p)) else rights p)
      fun _ => True := by
  refine (Program.Triple.forEach (fun pre => Grants fun p =>
    if p ∈ pre then some (s.widen (rights p)) else rights p) fun pre page post _ => ?_).mono ?_
  · refine (mapPage_grants s page).imp (fun _ m hm => ?_) fun _ _ => trivial
    refine cast (congrArg (Grants · m) (funext fun p => ?_)) hm
    by_cases heq : p = page
    · grind [Rights.widen_widen]
    · rw [Function.update_of_ne heq]
      simp [heq]
  · intro m hm
    simpa using hm

lemma copyPages_grants {segStart fileEnd : ℕ} (pages : List ℕ) :
    Program.Triple (Grants rights) (Program.forEach (copyPage data ph segStart fileEnd) pages)
      (fun _ => Grants rights) fun _ => True :=
  (Program.Triple.forEach_mem fun _ _ => copyPage_keeps fun _ _ _ _ h _ _ _ => h).imp
    (fun _ _ => id) fun _ _ => trivial

end Load

/-! ## Whole modules -/

/-- A byte of the segment lies on the page. -/
def CoversPage (first : ℕ) (ph : ProgramHeader) (page : ℕ) : Prop :=
  ∃ v, first ≤ v ∧ v < first + ph.memsz ∧ v / pageSize = page

lemma coversPage_iff {first : ℕ} (hsize : 1 ≤ ph.memsz) (page : ℕ) :
    CoversPage first ph page ↔ SegmentPage first ph page := by
  constructor
  · rintro ⟨v, hfirst, hlast, rfl⟩
    exact ⟨Nat.div_le_div_right hfirst, Nat.div_le_div_right (by omega)⟩
  · rintro ⟨hfirst, hlast⟩
    have hupper := (Nat.le_div_iff_mul_le pageSize_pos).mp hlast
    have hlower := Nat.lt_mul_of_div_lt (Nat.lt_succ_of_le hfirst) pageSize_pos
    rw [Nat.succ_mul] at hlower
    -- the first byte of the segment on the page
    refine ⟨max first (page * pageSize), le_max_left _ _, by omega, ?_⟩
    refine Nat.div_eq_of_lt_le (le_max_right _ _) ?_
    rw [Nat.succ_mul]
    exact max_lt hlower (Nat.lt_add_of_pos_right pageSize_pos)

lemma coversPage_low {first page : ℕ} (hend : first + ph.memsz ≤ 2 ^ 47)
    (hpage : CoversPage first ph page) : page < kernelHalf := by
  obtain ⟨v, -, hv, rfl⟩ := hpage
  have hhalf : kernelHalf * pageSize = 2 ^ 47 := by decide
  rw [Nat.div_lt_iff_lt_mul pageSize_pos]
  omega

instance (first : ℕ) (ph : ProgramHeader) (page : ℕ) : Decidable (SegmentPage first ph page) :=
  inferInstanceAs (Decidable (_ ∧ _))

/-- What segments allow together on a page they all lie on. -/
def jointRights : List ProgramHeader → Option Rights
  | [] => none
  | ph :: phs =>
    some ⟨(ph :: phs).any fun ph => ph.rights.write, (ph :: phs).any fun ph => ph.rights.execute⟩

lemma jointRights_concat (phs : List ProgramHeader) (ph : ProgramHeader) :
    jointRights (phs ++ [ph]) = some (ph.rights.widen (jointRights phs)) := by
  cases phs with
  | nil => simp [jointRights, Rights.widen]
  | cons ph' phs => simp [jointRights, Rights.widen, Rights.union, Bool.or_assoc]

variable {elf : Elf}

namespace Elf

/-- The loadable segments at some indices that lie on a page. -/
def covering (elf : Elf) (indices : List ℕ) (page : ℕ) : List ProgramHeader :=
  indices.filterMap fun i =>
    match elf.segment i with
    | some (first, ph) => if SegmentPage first ph page then some ph else none
    | none => none

lemma mem_covering {indices : List ℕ} {page : ℕ} :
    ph ∈ elf.covering indices page
      ↔ ∃ i ∈ indices, ∃ first, elf.segment i = some (first, ph) ∧ SegmentPage first ph page := by
  rw [covering, List.mem_filterMap]
  refine exists_congr fun i => and_congr_right fun _ => ?_
  cases elf.segment i with
  | none => simp
  | some segment =>
    grind

/-- The loadable segments have a byte at least, and lie in the user's half. -/
def UserSegments (elf : Elf) : Prop :=
  ∀ i < elf.header.phnum, ∀ first ph, elf.segment i = some (first, ph) →
    1 ≤ ph.memsz ∧ first + ph.memsz ≤ 2 ^ 47

/-- The segments on a page, as the loader has them. -/
lemma UserSegments.mem_covering_iff (husers : elf.UserSegments) (page : ℕ) (ph : ProgramHeader) :
    ph ∈ elf.covering (List.range elf.header.phnum) page
      ↔ ∃ i < elf.header.phnum, ∃ first, elf.segment i = some (first, ph)
        ∧ CoversPage first ph page := by
  rw [mem_covering]
  refine exists_congr fun i => ?_
  rw [List.mem_range]
  refine and_congr_right fun hi => exists_congr fun first => and_congr_right fun hsegment => ?_
  exact (coversPage_iff (husers i hi first ph hsegment).1 page).symm

end Elf

namespace Load

lemma loadSegment_grants {rights : ℕ → Option Rights} {header : ElfHeader} {vaddr : VirtAddr}
    (htype : ph.type = ptLoad)
    (hvaddr : loadAddress header ph.vaddr = .ok vaddr) (hsize : 1 ≤ ph.memsz)
    (hend : vaddr.bits + ph.memsz ≤ 2 ^ 47) :
    Program.Triple (Grants rights) (loadSegment data header ph)
      (fun _ => Grants fun p =>
        if SegmentPage vaddr.bits ph p then some (ph.rights.widen (rights p)) else rights p)
      fun _ => True := by
  rw [loadSegment, if_neg (not_not.mpr htype)]
  refine .lift_bind (fun placed hplaced => ?_) fun _ _ => trivial
  obtain ⟨-, hfirst, hlast, -⟩ := placed_of_low hplaced hvaddr (by omega) hend
  have hmem : ∀ p, p ∈ placed.pages ↔ SegmentPage vaddr.bits ph p := by
    intro p
    rw [Placement.pages, Page.mem_rangeInclusive, hfirst, hlast]
    rfl
  rw [ph.pageFlags_eq]
  refine .bind (mapPages_grants ph.rights placed.pages) fun _ => ?_
  refine .lift_bind (fun fileEnd _ => ?_) fun _ _ => trivial
  simp only [hmem]
  exact copyPages_grants placed.pages

lemma loadSegments_grants (husers : elf.UserSegments) :
    Program.Triple (Grants fun _ => none) (loadSegments elf (List.range elf.header.phnum))
      (fun _ => Grants fun p => jointRights (elf.covering (List.range elf.header.phnum) p))
      fun _ => True := by
  refine loadSegments_triple (J := fun pre => Grants fun p => jointRights (elf.covering pre p))
    (fun pre i m hnone hm => ?_) fun pre i vaddr ph hi hsome htype hvaddr => ?_
  · simpa [Elf.covering, hnone] using hm
  · obtain ⟨hsize, hend⟩ := husers i hi _ _ hsome
    refine (loadSegment_grants htype hvaddr hsize hend).imp (fun _ m hm => ?_) fun _ _ => trivial
    refine cast (congrArg (Grants · m) (funext fun p => ?_)) hm
    have hcovering : elf.covering (pre ++ [i]) p
        = elf.covering pre p ++ if SegmentPage vaddr.bits ph p then [ph] else [] := by
      by_cases hpage : SegmentPage vaddr.bits ph p <;> simp [Elf.covering, hsome, hpage]
    rw [hcovering]
    split
    · rw [jointRights_concat]
    · rw [List.append_nil]

lemma loadElf_grants (hparse : Elf.parse data = .ok (.ok elf))
    (husers : elf.UserSegments) :
    Program.Triple (Grants fun _ => none) (loadElf data)
      (fun _ => Grants fun p => jointRights (elf.covering (List.range elf.header.phnum) p))
      fun _ => True := by
  refine .lift_bind (fun parsed hparsed => ?_) fun _ _ => trivial
  cases hparse.symm.trans hparsed
  refine .bind (.forEach_mem fun page hpage => mapStackPage_grants hpage) fun _ => ?_
  refine .bind (loadSegments_grants husers) fun _ => ?_
  exact .lift_bind (fun _ _ => .pure fun _ => id) fun _ _ => trivial

lemma grants_created {active : AddressSpace} {hhdm kernelFunction activeTable : ℕ}
    {given frames : List ℕ} {memory : ℕ → UInt8}
    (hcreated : createUserPageTable active hhdm kernelFunction activeTable given
      = .ok (space, frames)) : Grants (fun _ => none) { space, frames, memory } := by
  intro page hpage _
  have hunmapped := unmapped_of_created hcreated hpage
  rw [frameOf, map_eq_none_iff] at hunmapped
  rw [hunmapped]
  rfl

end Load

/-- After a load that succeeds, a page outside the stack on which a segment lies can be used as the
segments on it allow, whatever their order. -/
theorem page_permissions {data : List UInt8} {elf : Elf} {active space : AddressSpace}
    {hhdm kernelFunction activeTable : ℕ} {given frames : List ℕ} {memory : ℕ → UInt8}
    {loaded : LoadedElf} {m : Machine}
    (hcreated : createUserPageTable active hhdm kernelFunction activeTable given
      = .ok (space, frames)) (hparse : Elf.parse data = .ok (.ok elf)) (husers : elf.UserSegments)
    (hdone : loadElf data { space, frames, memory } = .done loaded m) (page : ℕ)
    (hstack : page ∉ Load.stackPages)
    (hcovered : ∃ i < elf.header.phnum, ∃ first ph, elf.segment i = some (first, ph)
      ∧ CoversPage first ph page) :
    ∃ mapping, m.space.translate page = some mapping
      ∧ mapping.flags.contains .present = true ∧ mapping.flags.contains .userAccessible = true
      ∧ (mapping.flags.contains .writable = true
        ↔ ∃ i < elf.header.phnum, ∃ first ph, elf.segment i = some (first, ph)
          ∧ CoversPage first ph page ∧ ph.flags &&& pfW ≠ 0)
      ∧ (mapping.flags.contains .noExecute = true
        ↔ ∀ i < elf.header.phnum, ∀ first ph, elf.segment i = some (first, ph) →
          CoversPage first ph page → ph.flags &&& pfX = 0) := by
  have hcovering := husers.mem_covering_iff page
  obtain ⟨i, hi, first, ph, hsegment, hpage⟩ := hcovered
  have hmem := (hcovering ph).mpr ⟨i, hi, first, hsegment, hpage⟩
  have hlow := coversPage_low (husers i hi first ph hsegment).2 hpage
  have hloaded := (Load.loadElf_grants hparse husers).of_done (Load.grants_created hcreated) hdone
  have hgranted := hloaded page hlow hstack
  dsimp only at hgranted
  generalize elf.covering (List.range elf.header.phnum) page = phs at hcovering hmem hgranted
  obtain ⟨ph', phs, rfl⟩ := List.exists_cons_of_ne_nil (List.ne_nil_of_mem hmem)
  rw [jointRights, map_some, map_eq_some_iff] at hgranted
  obtain ⟨mapping, hmapping, hflags⟩ := hgranted
  obtain ⟨hpresent, huser, hwritable, hnoexec⟩ := Rights.contains_flags
    ⟨(ph' :: phs).any fun ph => ph.rights.write, (ph' :: phs).any fun ph => ph.rights.execute⟩
  refine ⟨mapping, hmapping, hflags ▸ hpresent, hflags ▸ huser, ?_, ?_⟩
  · rw [hflags, hwritable, List.any_eq_true]
    constructor
    · rintro ⟨ph, hph, hw⟩
      obtain ⟨i, hi, first, hsegment, hpage⟩ := (hcovering ph).mp hph
      exact ⟨i, hi, first, ph, hsegment, hpage, of_decide_eq_true hw⟩
    · rintro ⟨i, hi, first, ph, hsegment, hpage, hw⟩
      exact ⟨ph, (hcovering ph).mpr ⟨i, hi, first, hsegment, hpage⟩, decide_eq_true hw⟩
  · rw [hflags, hnoexec, Bool.not_eq_true', List.any_eq_false]
    constructor
    · intro h i hi first ph hsegment hpage
      have hx := h ph ((hcovering ph).mpr ⟨i, hi, first, hsegment, hpage⟩)
      exact not_not.mp fun hne => hx (decide_eq_true hne)
    · intro h ph hph hx
      obtain ⟨i, hi, first, hsegment, hpage⟩ := (hcovering ph).mp hph
      exact of_decide_eq_true hx (h i hi first ph hsegment hpage)

/-- A page of code and, on the same page, the start of the data. -/
def sharedPageModule : List UInt8 :=
  Elf.moduleOf 2 0 [⟨ptLoad, 5, 176, 0x400000, 1, 1⟩, ⟨ptLoad, 6, 177, 0x400001, 1, 1⟩] [0x90, 7]

theorem page_permissions_sharedPage :
    ∃ loaded m mapping, loadElf sharedPageModule
        ⟨oneKernelPageUser, freeFrames.tail, fun _ => 0⟩ = .done loaded m
      ∧ m.space.translate 0x400 = some mapping
      ∧ mapping.flags.contains .writable = true ∧ mapping.flags.contains .noExecute = false := by
  have hparse : Elf.parse sharedPageModule
      = .ok (.ok ⟨sharedPageModule, ⟨2, 0, 64, 56, 2⟩⟩) := by decide +kernel
  have hcode : Elf.segment ⟨sharedPageModule, ⟨2, 0, 64, 56, 2⟩⟩ 0
      = some (0x400000, ⟨ptLoad, 5, 176, 0x400000, 1, 1⟩) := by decide +kernel
  have hdata : Elf.segment ⟨sharedPageModule, ⟨2, 0, 64, 56, 2⟩⟩ 1
      = some (0x400001, ⟨ptLoad, 6, 177, 0x400001, 1, 1⟩) := by decide +kernel
  have husers : Elf.UserSegments ⟨sharedPageModule, ⟨2, 0, 64, 56, 2⟩⟩ := by
    intro i hi first ph hsegment
    interval_cases i
    · cases hcode.symm.trans hsegment
      decide
    · cases hdata.symm.trans hsegment
      decide
  obtain ⟨loaded, hdone⟩ := Outcome.eq_done_of_isDone (o := loadElf sharedPageModule
    ⟨oneKernelPageUser, freeFrames.tail, fun _ => 0⟩) (by decide +kernel)
  obtain ⟨mapping, hmapping, -, -, hwritable, hnoexec⟩ := page_permissions created_oneKernelPage
    hparse husers hdone 0x400 (by decide)
    ⟨0, by decide, _, _, hcode, 0x400000, le_rfl, by decide, by decide⟩
  refine ⟨loaded, _, mapping, hdone, hmapping, hwritable.mpr ?_, ?_⟩
  · exact ⟨1, by decide, _, _, hdata, ⟨0x400001, le_rfl, by decide, by decide⟩, by decide⟩
  · refine Bool.eq_false_iff.mpr fun hset => ?_
    have hnone := hnoexec.mp hset 0 (by decide) _ _ hcode ⟨0x400000, le_rfl, by decide, by decide⟩
    exact absurd hnone (by decide)

end ThingOS
