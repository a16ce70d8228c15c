import ThingOS.Kernel.Mm.FrameAllocator
import ThingOS.Kernel.Task.LoadIsolation

/-!
# When a load faults

The module is untrusted, and the loader returns errors for much that can be wrong with it. It faults
on the rest: sums of header fields overflow, addresses are not canonical or wrap around the page
count, and program headers and the bytes of a segment are read past the end of the module. A frame
below 65 MiB is taken for a collision. `load_robust` says for which modules none of this happens as
long as the frames are high enough.
-/

namespace ThingOS

open Program VirtAddr AddressSpace BootFrameAllocator Elf List

/-! ## Addresses as 64-bit numbers -/

/-- `VirtAddr::new` accepts the address. -/
def Canonical (addr : ℕ) : Prop := addr < 2 ^ 48 ∨ 2 ^ 64 - 2 ^ 47 ≤ addr ∧ addr < 2 ^ 64
deriving Decidable

/-- The address with bit 47 extended. -/
def extend (addr : ℕ) : ℕ := if 2 ^ 47 ≤ addr ∧ addr < 2 ^ 48 then addr + signExtension else addr

/-- The page of an address, extended or not. -/
def pageOf (addr : ℕ) : ℕ := addr % 2 ^ 48 / pageSize

lemma Canonical.lt {addr : ℕ} (h : Canonical addr) : addr < u64Size := by
  have hsize : u64Size = 2 ^ 64 := rfl
  unfold Canonical at h
  omega

namespace VirtAddr

variable {v w : VirtAddr} {addr n : ℕ}

lemma exists_tryNew (h : Canonical addr) : ∃ v, tryNew addr = some v := by
  unfold tryNew
  split
  case isTrue => exact ⟨_, rfl⟩
  case isFalse hlow =>
    rw [dif_pos (h.resolve_left hlow)]
    exact ⟨_, rfl⟩

lemma of_tryNew (h : tryNew addr = some v) : Canonical addr ∧ v.asU64 = extend addr := by
  unfold tryNew at h
  by_cases hlow : addr < 2 ^ 48
  · rw [dif_pos hlow] at h
    refine ⟨.inl hlow, ?_⟩
    rw [← Option.some.inj h]
    unfold asU64 extend
    dsimp only
    split <;> split <;> omega
  · rw [dif_neg hlow] at h
    by_cases hhigh : 2 ^ 64 - 2 ^ 47 ≤ addr ∧ addr < 2 ^ 64
    · rw [dif_pos hhigh] at h
      refine ⟨.inr hhigh, ?_⟩
      rw [← Option.some.inj h]
      unfold asU64 extend signExtension
      dsimp only
      split <;> split <;> omega
    · rw [dif_neg hhigh] at h
      cases h

lemma exists_new : (∃ v, new addr = .ok v) ↔ Canonical addr := by
  constructor
  · rintro ⟨v, h⟩
    exact (of_tryNew (new_eq_ok.mp h)).1
  · intro h
    obtain ⟨v, hv⟩ := exists_tryNew h
    exact ⟨v, new_eq_ok.mpr hv⟩

lemma asU64_of_new (h : new addr = .ok v) : v.asU64 = extend addr :=
  (of_tryNew (new_eq_ok.mp h)).2

lemma add_eq_ok : v.add n = .ok w ↔ new (v.asU64 + n) = .ok w := by
  constructor
  · intro h
    obtain ⟨sum, hsum, h⟩ := Checked.bind_eq_ok.mp h
    obtain ⟨-, rfl⟩ := Checked.add_eq_ok.mp hsum
    exact h
  · intro h
    have hlt := (exists_new.mp ⟨w, h⟩).lt
    exact Checked.bind_eq_ok.mpr ⟨_, Checked.add_eq_ok.mpr ⟨hlt, rfl⟩, h⟩

lemma sub_eq_ok : v.sub n = .ok w ↔ n ≤ v.asU64 ∧ new (v.asU64 - n) = .ok w := by
  constructor
  · intro h
    obtain ⟨difference, hdifference, h⟩ := Checked.bind_eq_ok.mp h
    obtain ⟨hle, rfl⟩ := Checked.sub_eq_ok.mp hdifference
    exact ⟨hle, h⟩
  · rintro ⟨hle, h⟩
    exact Checked.bind_eq_ok.mpr ⟨_, Checked.sub_eq_ok.mpr ⟨hle, rfl⟩, h⟩

lemma page_eq (v : VirtAddr) : v.page = pageOf v.asU64 := by
  have hv := v.lt
  have hbits : v.asU64 % 2 ^ 48 = v.bits := by
    unfold asU64 signExtension
    split <;> omega
  rw [pageOf, hbits, page]

end VirtAddr

/-- The address that is passed to `VirtAddr::new` for an address of the file. -/
def target (header : ElfHeader) (addr : ℕ) : ℕ :=
  if header.type = etDyn then userCodeBase + addr else addr

section LoadAddress

variable {header : ElfHeader} {addr : ℕ} {v : VirtAddr}

lemma loadAddress_eq_ok :
    loadAddress header addr = .ok v ↔ new (target header addr) = .ok v := by
  unfold loadAddress target
  split
  · have hbase : new userCodeBase = .ok ⟨userCodeBase, by decide⟩ := rfl
    have hvalue : asU64 ⟨userCodeBase, by decide⟩ = userCodeBase := rfl
    rw [hbase, Checked.ok_bind, add_eq_ok, hvalue]
  · exact Iff.rfl

lemma exists_loadAddress :
    (∃ v, loadAddress header addr = .ok v) ↔ Canonical (target header addr) := by
  simp only [loadAddress_eq_ok, exists_new]

end LoadAddress

/-! ## What a segment must satisfy -/

namespace ProgramHeader

variable (header : ElfHeader) (ph : ProgramHeader)

/-- The first address of a segment. -/
def segStart : ℕ := extend (target header ph.vaddr)

/-- The address after its last one. -/
def segEnd : ℕ := extend (ph.segStart header + ph.memsz)

/-- The pages from that of the first address to that of the one before the end. -/
def pages : List ℕ :=
  Page.rangeInclusive (pageOf (ph.segStart header)) (pageOf (extend (ph.segEnd header - 1)))

/-- The addresses of the segment can be computed, and its last page is not before its first. -/
structure Placeable : Prop where
  start : Canonical (target header ph.vaddr)
  stop : Canonical (ph.segStart header + ph.memsz)
  pos : 1 ≤ ph.segEnd header
  last : Canonical (ph.segEnd header - 1)
  order : pageOf (ph.segStart header) ≤ pageOf (extend (ph.segEnd header - 1))

/-- The part of the file that falls into a page starts here. -/
def copyStart (page : ℕ) : ℕ := max (Page.startU64 page) (ph.segStart header)

/-- And ends here. -/
def copyEnd (page : ℕ) : ℕ :=
  min (Page.startU64 page + pageSize) (ph.segStart header + ph.filesz)

/-- The page is not the last of all, and what is copied to it lies in a module of this length. -/
structure Copyable (length page : ℕ) : Prop where
  notLast : Page.startU64 page + pageSize < u64Size
  fits : ph.copyStart header page < ph.copyEnd header page →
    ph.offset + (ph.copyEnd header page - ph.segStart header) < u64Size
      ∧ ph.offset + (ph.copyEnd header page - ph.segStart header) ≤ length

/-- The segment can be filled from a module of this length. -/
structure Fillable (length : ℕ) : Prop where
  fileEnd : ph.segStart header + ph.filesz < u64Size
  pages : ∀ page ∈ ph.pages header, ph.Copyable header length page

end ProgramHeader

section Place

variable {header : ElfHeader} {ph : ProgramHeader} {placed : Placement}

lemma of_place (h : place header ph = .ok placed) : ph.Placeable header
    ∧ placed.vaddr.asU64 = ph.segStart header ∧ placed.pages = ph.pages header := by
  obtain ⟨vaddr, endVaddr, last, hvaddr, hadd, hsub, horder, rfl⟩ := place_eq_ok.mp h
  have hnew := loadAddress_eq_ok.mp hvaddr
  have hstart : vaddr.asU64 = ph.segStart header := asU64_of_new hnew
  rw [add_eq_ok, hstart] at hadd
  have hend : endVaddr.asU64 = ph.segEnd header := asU64_of_new hadd
  rw [sub_eq_ok, hend] at hsub
  have hlast := asU64_of_new hsub.2
  rw [page_eq, page_eq, hstart, hlast] at horder
  refine ⟨⟨exists_new.mp ⟨_, hnew⟩, exists_new.mp ⟨_, hadd⟩, hsub.1,
    exists_new.mp ⟨_, hsub.2⟩, horder⟩, hstart, ?_⟩
  rw [Placement.pages, page_eq, page_eq, hstart, hlast]
  rfl

lemma ProgramHeader.Placeable.place (h : ph.Placeable header) :
    ∃ placed, place header ph = .ok placed := by
  obtain ⟨vaddr, hnew⟩ := exists_new.mpr h.start
  have hstart : vaddr.asU64 = ph.segStart header := asU64_of_new hnew
  obtain ⟨endVaddr, hadd⟩ := exists_new.mpr h.stop
  have hend : endVaddr.asU64 = ph.segEnd header := asU64_of_new hadd
  obtain ⟨last, hsub⟩ := exists_new.mpr h.last
  refine ⟨_, place_eq_ok.mpr ⟨vaddr, endVaddr, last, loadAddress_eq_ok.mpr hnew, ?_, ?_, ?_, rfl⟩⟩
  · rwa [add_eq_ok, hstart]
  · rw [sub_eq_ok, hend]
    exact ⟨h.pos, hsub⟩
  · rw [page_eq, page_eq, hstart, asU64_of_new hsub]
    exact h.order

end Place

variable {l : List ℕ} {error : LoadError}

namespace Load

variable {m : Machine} {page : ℕ} {flags : PageTableFlags} {data : List UInt8}
  {header : ElfHeader} {ph : ProgramHeader}

/-! ## Filling pages -/

lemma copyPage_done (hmapped : (m.space.frameOf page).isSome = true)
    (h : ph.Copyable header data.length page) : ∃ memory,
    copyPage data ph (ph.segStart header) (ph.segStart header + ph.filesz) page m
      = .done () { m with memory } := by
  obtain ⟨mapping, htranslate⟩ := isSome_frameOf.mp hmapped
  rw [copyPage, lift_bind_of_ok (Checked.add_eq_ok.mpr ⟨h.notLast, rfl⟩),
    read_bind_apply, htranslate]
  dsimp only
  split
  case isFalse => exact ⟨_, rfl⟩
  split
  case isFalse => exact ⟨_, rfl⟩
  case isTrue hcopy =>
    obtain ⟨hlt, hle⟩ := h.fits hcopy
    unfold ProgramHeader.copyEnd at hlt hle
    rw [lift_bind_of_ok (Checked.add_eq_ok.mpr ⟨by omega, rfl⟩),
      lift_bind_of_ok (Checked.add_eq_ok.mpr ⟨by omega, rfl⟩),
      lift_bind_of_ok (Checked.require_of _ (by omega))]
    exact ⟨_, rfl⟩

lemma copyable_of_not_faults (hmapped : (m.space.frameOf page).isSome = true)
    (h : ¬ Program.Faults
      (copyPage data ph (ph.segStart header) (ph.segStart header + ph.filesz) page) m) :
    ph.Copyable header data.length page := by
  obtain ⟨mapping, htranslate⟩ := isSome_frameOf.mp hmapped
  obtain ⟨_, hend, h⟩ := not_faults_lift_bind.mp h
  obtain ⟨hlast, rfl⟩ := Checked.add_eq_ok.mp hend
  rw [faults_read_bind, htranslate] at h
  refine ⟨hlast, fun hcopy => ?_⟩
  unfold ProgramHeader.copyStart ProgramHeader.copyEnd at hcopy
  dsimp only at h
  rw [if_pos (by omega), if_pos hcopy] at h
  obtain ⟨_, hstart, h⟩ := not_faults_lift_bind.mp h
  obtain ⟨-, rfl⟩ := Checked.add_eq_ok.mp hstart
  obtain ⟨_, hstop, h⟩ := not_faults_lift_bind.mp h
  obtain ⟨hlt, rfl⟩ := Checked.add_eq_ok.mp hstop
  obtain ⟨_, hslice, -⟩ := not_faults_lift_bind.mp h
  have hle := Checked.of_require hslice
  unfold ProgramHeader.copyEnd
  constructor <;> omega

def Mapped (l : List ℕ) (m : Machine) : Prop := ∀ page ∈ l, (m.space.frameOf page).isSome = true

lemma mapped_of_done {t : Machine}
    (h : forEach (mapPage flags) l m = .done () t) : Mapped l t := by
  induction l generalizing m with
  | nil => exact fun _ hpage => absurd hpage not_mem_nil
  | cons first l ih =>
    obtain ⟨_, u, hfirst, hrest⟩ := bind_eq_done.mp h
    intro page hpage
    rcases mem_cons.mp hpage with rfl | hpage
    · have hmapped := (mapPage_maps flags page).of_done trivial hfirst
      have hkept : Program.Triple (fun m => (m.space.frameOf page).isSome = true)
          (forEach (mapPage flags) l) (fun _ m => (m.space.frameOf page).isSome = true)
          fun m => (m.space.frameOf page).isSome = true :=
        .forEach_mem fun q _ => mapPage_keeps (kept_mapped q page).toMapKept
      exact hkept.of_done hmapped hrest
    · exact ih hrest page hpage

/-- Filling mapped pages succeeds, or faults at a page that cannot be filled. -/
lemma copyPages_spec (h : Mapped l m) : (¬ Program.Faults (forEach
        (copyPage data ph (ph.segStart header) (ph.segStart header + ph.filesz)) l) m
      ↔ ∀ page ∈ l, ph.Copyable header data.length page)
    ∧ ((∀ page ∈ l, ph.Copyable header data.length page) → ∃ t, forEach
        (copyPage data ph (ph.segStart header) (ph.segStart header + ph.filesz)) l m = .done () t
      ∧ t.space = m.space ∧ t.frames = m.frames) := by
  refine not_faults_forEach
    (fun _ (t : Machine) => t.space = m.space ∧ t.frames = m.frames) ?_ ?_ ⟨rfl, rfl⟩
  · intro page _ s hpage hs hgood
    obtain ⟨memory, hdone⟩ := copyPage_done (m := s) (by rw [hs.1]; exact h page hpage) hgood
    exact ⟨_, hdone, hs⟩
  · intro page _ s hpage hs hno
    exact copyable_of_not_faults (by rw [hs.1]; exact h page hpage) hno

/-! ## Mapping pages -/

/-- No frame that is left would be taken for a collision. -/
def HighFrames (m : Machine) : Prop := ∀ frame ∈ m.frames, collisionLimit ≤ frame

lemma kept_highFrames (page : ℕ) : Kept HighFrames page where
  take _ _ _ h hframes f hf := h f (hframes ▸ mem_cons_of_mem _ hf)
  map _ _ _ _ h hframes f hf :=
    h f (hframes ▸ mem_cons_of_mem _ (frames_mapTo.subset hf))
  flags _ _ h := h
  copy _ _ _ _ h _ _ _ := h

lemma not_faults_allocateFrame :
    ¬ Program.Faults (allocateFrame error) m := by
  rintro ⟨f, t, h⟩
  cases hframes : m.frames with
  | nil =>
    rw [allocateFrame_nil hframes] at h
    cases h
  | cons frame frames =>
    rw [allocateFrame_cons hframes] at h
    cases h

lemma of_allocateFrame {frame : ℕ} {t : Machine}
    (h : allocateFrame error m = .done frame t) : frame ∈ m.frames := by
  cases hframes : m.frames with
  | nil =>
    rw [allocateFrame_nil hframes] at h
    cases h
  | cons first frames =>
    rw [allocateFrame_cons hframes] at h
    cases h
    exact mem_cons_self

lemma not_faults_mapTo {frame : ℕ} :
    ¬ Program.Faults (mapTo error page frame flags) m := by
  rintro ⟨f, t, h⟩
  rw [mapTo_apply] at h
  cases hok : (m.space.mapTo m.frames page frame flags).1 <;> rw [hok] at h <;> cases h

lemma not_faults_updateFlags :
    ¬ Program.Faults (updateFlags error page flags) m := by
  rintro ⟨f, t, h⟩
  rw [updateFlags_apply] at h
  cases hok : (m.space.updateFlags page flags).1 <;> rw [hok] at h <;> cases h

lemma not_faults_mapStackPage : ¬ Program.Faults (mapStackPage page) m :=
  not_faults_bind.mpr ⟨not_faults_allocateFrame, fun _ _ _ => not_faults_mapTo⟩

lemma not_faults_mapPage (h : HighFrames m) : ¬ Program.Faults (mapPage flags page) m := by
  rw [mapPage, faults_read_bind]
  split
  · dsimp only
    split
    · exact not_faults_updateFlags
    · exact not_faults_pure _ _
  · refine not_faults_bind.mpr ⟨not_faults_allocateFrame, fun frame t hdone => ?_⟩
    have hhigh := h frame (of_allocateFrame hdone)
    exact not_faults_lift_bind.mpr ⟨_, Checked.require_of _ hhigh, not_faults_mapTo⟩

lemma mapPages_keep_highFrames (l : List ℕ) :
    Program.Triple HighFrames (forEach (mapPage flags) l) (fun _ => HighFrames)
      HighFrames :=
  .forEach_mem fun page _ => mapPage_keeps (kept_highFrames page).toMapKept

lemma not_faults_mapPages (h : HighFrames m) (l : List ℕ) :
    ¬ Program.Faults (forEach (mapPage flags) l) m := by
  rw [faults_forEach]
  rintro ⟨pre, page, post, -, t, hpre, hfault⟩
  exact not_faults_mapPage ((mapPages_keep_highFrames pre).of_done h hpre) hfault

/-! ## Loading segments -/

/-- With high frames a segment faults if it cannot be placed, or if its pages could be mapped and
cannot be filled. -/
lemma not_faults_loadSegment (h : HighFrames m) (htype : ph.type = ptLoad) :
    ¬ Program.Faults (loadSegment data header ph) m ↔ ph.Placeable header
      ∧ ∀ t, forEach (mapPage ph.pageFlags) (ph.pages header) m = .done () t →
        ph.Fillable header data.length := by
  rw [loadSegment, if_neg (not_not.mpr htype), not_faults_lift_bind]
  constructor
  · rintro ⟨placed, hplaced, hno⟩
    obtain ⟨hplaceable, hstart, hpages⟩ := of_place hplaced
    rw [hstart, hpages] at hno
    refine ⟨hplaceable, fun t hdone => ?_⟩
    obtain ⟨_, hend, hno⟩ := not_faults_lift_bind.mp
      ((not_faults_bind.mp hno).2 _ t hdone)
    obtain ⟨hlt, rfl⟩ := Checked.add_eq_ok.mp hend
    exact ⟨hlt, (copyPages_spec (mapped_of_done hdone)).1.mp hno⟩
  · rintro ⟨hplaceable, hfill⟩
    obtain ⟨placed, hplaced⟩ := hplaceable.place
    obtain ⟨-, hstart, hpages⟩ := of_place hplaced
    refine ⟨placed, hplaced, ?_⟩
    rw [hstart, hpages]
    refine not_faults_bind.mpr ⟨not_faults_mapPages h _, fun _ t hdone => ?_⟩
    have hfillable := hfill t hdone
    refine not_faults_lift_bind.mpr
      ⟨_, Checked.add_eq_ok.mpr ⟨hfillable.fileEnd, rfl⟩, ?_⟩
    exact (copyPages_spec (mapped_of_done hdone)).1.mpr hfillable.pages

/-! ## A machine with room for everything -/

/-- The number of pages. -/
def pageLimit : ℕ := 2 ^ 36

def unmapped (space : AddressSpace) : Finset ℕ :=
  (Finset.range pageLimit).filter fun page => space.frameOf page = none

lemma mem_unmapped {space : AddressSpace} :
    page ∈ unmapped space ↔ page < pageLimit ∧ space.frameOf page = none := by
  rw [unmapped, Finset.mem_filter, Finset.mem_range]

/-- No huge pages, no low frames, and frames for all pages that are not mapped and the tables above
them. -/
structure Ample (m : Machine) : Prop where
  noHuge : m.space.NoHuge
  high : HighFrames m
  enough : 4 * (unmapped m.space).card ≤ m.frames.length

namespace Ample

lemma mapTo {error' : LoadError} (h : Ample m) (hpage : page ∈ unmapped m.space) :
    ∃ frame t u, collisionLimit ≤ frame ∧ allocateFrame error m = .done frame t
      ∧ Load.mapTo error' page frame flags t = .done () u ∧ Ample u
      ∧ unmapped u.space = (unmapped m.space).erase page := by
  have henough := h.enough
  have hcard := Finset.card_erase_add_one hpage
  obtain ⟨-, hnone⟩ := mem_unmapped.mp hpage
  cases hframes : m.frames with
  | nil =>
    rw [hframes, length_nil] at henough
    omega
  | cons frame frames =>
    rw [hframes, length_cons] at henough
    obtain ⟨hok, hnoHuge, hlength⟩ := @AddressSpace.mapTo_ok m.space frames page frame flags
      h.noHuge (Option.map_eq_none_iff.mp hnone) (by omega)
    have hkept := (kept_highFrames page).map m frame frames flags h.high hframes
    have hunmapped : unmapped (m.space.mapTo frames page frame flags).2.1
        = (unmapped m.space).erase page := by
      ext q
      rw [Finset.mem_erase, mem_unmapped, mem_unmapped]
      rcases eq_or_ne q page with rfl | hne
      · have hmapped := translate_mapTo hok
        simp [frameOf, hmapped]
      · simp [frameOf_mapTo_of_ne hne, hne]
    refine ⟨frame, _, _, ?_, allocateFrame_cons hframes, ?_, ⟨hnoHuge, hkept, ?_⟩, hunmapped⟩
    · exact h.high frame (hframes ▸ mem_cons_self)
    · rw [mapTo_apply, hok]
    · show 4 * (unmapped (m.space.mapTo frames page frame flags).2.1).card
        ≤ (m.space.mapTo frames page frame flags).2.2.length
      rw [hunmapped]
      omega

lemma updateFlags (h : Ample m) (hmapped : (m.space.frameOf page).isSome = true) :
    ∃ t, Load.updateFlags error page flags m = .done () t ∧ Ample t := by
  rw [frameOf, Option.isSome_map] at hmapped
  obtain ⟨hok, hnoHuge⟩ := @AddressSpace.updateFlags_ok m.space page flags h.noHuge hmapped
  have hunmapped : unmapped (m.space.updateFlags page flags).2 = unmapped m.space := by
    ext q
    rw [mem_unmapped, mem_unmapped, frameOf_updateFlags]
  refine ⟨m.updateFlags page flags, ?_, hnoHuge, h.high, ?_⟩
  · rw [updateFlags_apply, hok]
  · exact (congrArg (4 * Finset.card ·) hunmapped).trans_le h.enough

lemma mapPage (h : Ample m) (hpage : page < pageLimit) :
    ∃ t, Load.mapPage flags page m = .done () t ∧ Ample t := by
  rw [Load.mapPage, read_bind_apply]
  cases htranslate : m.space.translate page with
  | some mapping =>
    have hmapped := isSome_frameOf.mpr ⟨_, htranslate⟩
    dsimp only
    split
    · exact h.updateFlags hmapped
    · exact ⟨m, rfl, h⟩
  | none =>
    have hnone : m.space.frameOf page = none := by rw [frameOf, htranslate]; rfl
    obtain ⟨frame, t, u, hhigh, htake, hmap, hu, -⟩ := h.mapTo (mem_unmapped.mpr ⟨hpage, hnone⟩)
    refine ⟨u, ?_, hu⟩
    dsimp only
    rw [bind_of_done htake, lift_bind_of_ok (Checked.require_of _ hhigh)]
    exact hmap

lemma mapPages (h : Ample m) (hl : ∀ page ∈ l, page < pageLimit) :
    ∃ t, forEach (Load.mapPage flags) l m = .done () t ∧ Ample t :=
  (not_faults_forEach (G := fun _ => True) (fun _ => Ample)
    (fun page _ _ hpage hs _ => hs.mapPage (hl page hpage)) (fun _ _ _ _ _ _ => trivial) h).2
    fun _ _ => trivial

/-- Pages of the stack must not be mapped yet. -/
lemma mapStackPages (h : Ample m) (hnodup : l.Nodup) (hl : ∀ page ∈ l, page ∈ unmapped m.space) :
    ∃ t, forEach mapStackPage l m = .done () t ∧ Ample t := by
  have hloop := (@not_faults_forEach _ _ _ _ m mapStackPage l
    (fun l m => Ample m ∧ l.Nodup ∧ ∀ page ∈ l, page ∈ unmapped m.space) (fun _ => True) ?_
    (fun _ _ _ _ _ _ => trivial) ⟨h, hnodup, hl⟩).2 fun _ _ => trivial
  · obtain ⟨t, hdone, ht, -⟩ := hloop
    exact ⟨t, hdone, ht⟩
  · rintro page post s - ⟨hs, hnodup, hl⟩ -
    obtain ⟨frame, t, u, -, htake, hmap, hu, hunmapped⟩ := hs.mapTo (hl page mem_cons_self)
    obtain ⟨hnot, hnodup⟩ := nodup_cons.mp hnodup
    refine ⟨u, (bind_of_done htake _).trans hmap, hu, hnodup, fun q hq => ?_⟩
    rw [hunmapped, Finset.mem_erase]
    exact ⟨ne_of_mem_of_not_mem hq hnot, hl q (mem_cons_of_mem _ hq)⟩

end Ample

lemma pages_lt (hpage : page ∈ ph.pages header) : page < pageLimit := by
  have hle := (Page.mem_rangeInclusive.mp hpage).2
  unfold pageOf pageSize at hle
  unfold pageLimit
  omega

/-- With room for its pages, a segment is loaded if it can be placed and filled, and faults
otherwise. -/
lemma Ample.loadSegment (h : Ample m) (htype : ph.type = ptLoad) :
    (ph.Placeable header ∧ ph.Fillable header data.length →
      ∃ t, Load.loadSegment data header ph m = .done () t ∧ Ample t)
    ∧ (¬ Program.Faults (Load.loadSegment data header ph) m →
      ph.Placeable header ∧ ph.Fillable header data.length) := by
  obtain ⟨t, hmap, ht⟩ : ∃ t,
      forEach (Load.mapPage ph.pageFlags) (ph.pages header) m = .done () t ∧ Ample t :=
    h.mapPages fun page => pages_lt
  constructor
  · rintro ⟨hplaceable, hfillable⟩
    obtain ⟨placed, hplaced⟩ := hplaceable.place
    obtain ⟨-, hstart, hpages⟩ := of_place hplaced
    obtain ⟨u, hcopy, hspace, hframes⟩ :=
      (copyPages_spec (mapped_of_done hmap)).2 hfillable.pages
    refine ⟨u, ?_, hspace ▸ ht.noHuge, ?_, hspace ▸ hframes ▸ ht.enough⟩
    · rw [Load.loadSegment, if_neg (not_not.mpr htype), lift_bind_of_ok hplaced, hstart,
        hpages, bind_of_done hmap,
        lift_bind_of_ok (Checked.add_eq_ok.mpr ⟨hfillable.fileEnd, rfl⟩)]
      exact hcopy
    · rw [HighFrames, hframes]
      exact ht.high
  · intro hno
    obtain ⟨hplaceable, hfill⟩ := (not_faults_loadSegment h.high htype).mp hno
    exact ⟨hplaceable, hfill t hmap⟩

end Load

/-! ## Modules -/

/-- A program header lies in the module, and what it describes can be loaded. -/
structure SafeHeader (data : List UInt8) (header : ElfHeader) (i : ℕ) : Prop where
  inside : header.phoff + programHeaderSize * i + programHeaderSize ≤ data.length
  segment : ∀ ph, ph = readProgramHeader data (header.phoff + programHeaderSize * i) →
    ph.type = ptLoad → ph.Placeable header ∧ ph.Fillable header data.length

/-- What a module must satisfy. Nothing is asked of one that is not an ELF file, and nothing of the
program headers if the module ends before they do. -/
def SafeModule (data : List UInt8) : Prop :=
  Elf.Accepted data → claimedEnd data < u64Size ∧ (claimedEnd data ≤ data.length →
    8 ∣ (readElfHeader data).phoff
      ∧ (∀ i < (readElfHeader data).phnum, SafeHeader data (readElfHeader data) i)
      ∧ Canonical (target (readElfHeader data) (readElfHeader data).entry))

/-- An accepted module contains its table of program headers, and the load ends with a result or an
error. -/
structure Robust (data : List UInt8) (m : Machine) : Prop where
  table : ∀ elf, parse data = .ok (.ok elf) → elf.tableEnd ≤ data.length
  load : ¬ Program.Faults (loadElf data) m

section Modules

open Load

variable {data : List UInt8} {m : Machine}

lemma loadSegments_keep_highFrames (elf : Elf) (l : List ℕ) :
    Program.Triple HighFrames (loadSegments elf l) (fun _ => HighFrames) HighFrames :=
  .forEach_mem fun _ _ => .lift_bind (fun _ _ => loadSegment_keeps fun _ _ _ page _ =>
    kept_highFrames page) fun _ => id

lemma not_faults_loadSegments {header : ElfHeader} (hm : HighFrames m)
    (h : ∀ i ∈ l, SafeHeader data header i) :
    ¬ Program.Faults (loadSegments ⟨data, header⟩ l) m := by
  rw [loadSegments, faults_forEach]
  rintro ⟨pre, i, post, hl, t, hpre, hfault⟩
  have ht : HighFrames t := (loadSegments_keep_highFrames _ pre).of_done hm hpre
  have hsafe := h i (hl ▸ mem_append_right _ mem_cons_self)
  refine not_faults_lift_bind.mpr
    ⟨_, programHeader_eq_ok.mpr ⟨hsafe.inside, rfl⟩, ?_⟩ hfault
  by_cases htype : (readProgramHeader data (header.phoff + programHeaderSize * i)).type = ptLoad
  · grind [hsafe.segment, not_faults_loadSegment]
  · rw [loadSegment, if_pos htype]
    exact not_faults_pure _ _

lemma SafeModule.robust (h : SafeModule data) (hm : HighFrames m) : Robust data m where
  table elf hparsed := by
    obtain ⟨haccepted, -, hle, -, rfl⟩ := parse_eq_ok.mp hparsed
    obtain ⟨-, hsafe, -⟩ := (h haccepted).2 hle
    show (readElfHeader data).phoff + programHeaderSize * (readElfHeader data).phnum ≤ data.length
    -- the last header lies inside, and without headers the table ends where the header says
    rcases Nat.eq_zero_or_pos (readElfHeader data).phnum with hzero | hpos
    · rw [claimedEnd, hzero] at hle
      rw [hzero]
      omega
    · have hlast := (hsafe _ (Nat.sub_one_lt_of_lt hpos)).inside
      rw [Nat.add_assoc, ← Nat.mul_succ] at hlast
      rwa [Nat.succ_eq_add_one, Nat.sub_add_cancel hpos] at hlast
  load := by
    refine not_faults_lift_bind.mpr ?_
    obtain ⟨result, hparsed⟩ := exists_parse.mpr fun haccepted =>
      ⟨(h haccepted).1, fun hle => ((h haccepted).2 hle).1⟩
    refine ⟨result, hparsed, ?_⟩
    cases result with
    | error e => exact not_faults_fail _ _
    | ok elf =>
      obtain ⟨haccepted, -, hle, -, rfl⟩ := parse_eq_ok.mp hparsed
      obtain ⟨-, hsafe, hentry⟩ := (h haccepted).2 hle
      have hstack : Program.Triple HighFrames (forEach mapStackPage stackPages)
          (fun _ => HighFrames) HighFrames :=
        .forEach_mem fun page _ => mapStackPage_keeps (kept_highFrames page).toMapKept
      refine not_faults_bind.mpr ⟨?_, fun _ t ht => ?_⟩
      · rw [faults_forEach]
        rintro ⟨_, _, _, -, _, -, hfault⟩
        exact not_faults_mapStackPage hfault
      refine not_faults_bind.mpr ⟨?_, fun _ u _ => ?_⟩
      · exact not_faults_loadSegments (hstack.of_done hm ht) fun i hi =>
          hsafe i (mem_range.mp hi)
      · obtain ⟨entry, hok⟩ := exists_loadAddress.mpr hentry
        exact not_faults_lift_bind.mpr ⟨entry, hok, not_faults_pure _ _⟩

/-- With room for all pages, the headers are loaded if each is safe, and one faults otherwise. -/
lemma Load.Ample.loadSegments {header : ElfHeader} (hm : Ample m) :
    (¬ Program.Faults (loadSegments ⟨data, header⟩ l) m ↔ ∀ i ∈ l, SafeHeader data header i)
      ∧ ((∀ i ∈ l, SafeHeader data header i) →
        ∃ t, Load.loadSegments ⟨data, header⟩ l m = .done () t ∧ Ample t) := by
  refine not_faults_forEach (fun _ => Ample) ?_ ?_ hm
  · intro i _ s _ hs hsafe
    have hheader : programHeader ⟨data, header⟩ i = _ :=
      programHeader_eq_ok.mpr ⟨hsafe.inside, rfl⟩
    rw [lift_bind_of_ok hheader]
    by_cases htype : (readProgramHeader data (header.phoff + programHeaderSize * i)).type = ptLoad
    · exact (hs.loadSegment htype).1 (hsafe.segment _ rfl htype)
    · rw [Load.loadSegment, if_pos htype]
      exact ⟨s, rfl, hs⟩
  · intro i _ s _ hs hno
    obtain ⟨ph, hheader, hno⟩ := not_faults_lift_bind.mp hno
    obtain ⟨hinside, rfl⟩ := programHeader_eq_ok.mp hheader
    refine ⟨hinside, ?_⟩
    rintro ph rfl htype
    exact (hs.loadSegment htype).2 hno

/-- A module that does not fault where there is room for everything is safe. -/
lemma SafeModule.of_robust (hrobust : Robust data m) (hm : Ample m)
    (hstack : ∀ page ∈ stackPages, page ∈ unmapped m.space) : SafeModule data := by
  intro haccepted
  obtain ⟨result, hparsed, hno⟩ := not_faults_lift_bind.mp hrobust.load
  obtain ⟨hlt, haligned⟩ := exists_parse.mp ⟨result, hparsed⟩ haccepted
  refine ⟨hlt, fun hle => ⟨haligned hle, ?_⟩⟩
  have hok := parse_eq_ok.mpr ⟨haccepted, hlt, hle, haligned hle, rfl⟩
  cases hparsed.symm.trans hok
  obtain ⟨t, hstack, ht⟩ := hm.mapStackPages nodup_range' hstack
  obtain ⟨hsegments, hrest⟩ := not_faults_bind.mp
    ((not_faults_bind.mp hno).2 _ t hstack)
  have hsafe := ht.loadSegments.1.mp hsegments
  obtain ⟨u, hdone, -⟩ := ht.loadSegments.2 hsafe
  obtain ⟨entry, hentry, -⟩ := not_faults_lift_bind.mp (hrest _ u hdone)
  exact ⟨fun i hi => hsafe i (mem_range.mpr hi), exists_loadAddress.mp ⟨entry, hentry⟩⟩

/-! ## The machines a load can start on -/

/-- A new address space, and frames that the boot frame allocator has left. -/
def Started (m : Machine) : Prop :=
  ∃ entries rsp hhdm a, BootFrameAllocator.DisjointUsable entries
    ∧ BootFrameAllocator.Physical entries ∧ new entries rsp hhdm = .ok a
    ∧ ∃ given, given <:+ a.frames ∧ ∃ active hhdmPage kernelFunction activeTable,
      createUserPageTable active hhdmPage kernelFunction activeTable given
        = .ok (m.space, m.frames)

/-- A machine with 2 PiB of memory above the reserved ranges. -/
def largeMachine : List MemoryRegion := [⟨0x5000000, 2 ^ 51, .usable⟩]

lemma noHuge_oneKernelPageUser : oneKernelPageUser.NoHuge := by
  intro i
  unfold oneKernelPageUser oneKernelPage
  split
  · split
    · intro j
      dsimp only
      split
      · intro k
        dsimp only
        split
        · exact fun _ => trivial
        · trivial
      · trivial
    · trivial
  · trivial

lemma exists_ample : ∃ m, Started m ∧ Ample m ∧ ∀ page ∈ stackPages, page ∈ unmapped m.space := by
  let a : BootFrameAllocator :=
    ⟨⟨[⟨0x5000000, 0x5000000 + 2 ^ 51⟩], by decide⟩, 0, 0x5000000⟩
  have hnew :
      new largeMachine 0xFFFF800002000000 0xFFFF800000000000 = .ok a := rfl
  have hframes : a.frames = Span.blocks pageSize ⟨0x5000000, 0x5000000 + 2 ^ 51⟩ :=
    append_nil _
  have hlength : a.frames.length = 2 ^ 39 := by
    rw [hframes, Span.blocks, length_map, length_range]
    rfl
  have hhigh : ∀ frame ∈ a.frames, collisionLimit ≤ frame := by
    intro frame hframe
    rw [hframes, Span.mem_blocks pageSize_pos] at hframe
    exact le_trans (by decide) hframe.2.1
  obtain ⟨first, rest, hcons⟩ := exists_cons_of_length_pos (hlength ▸ Nat.two_pow_pos 39)
  have hcreated : createUserPageTable oneKernelPage kernelHalf kernelHalf kernelHalf
      (first :: rest) = .ok (oneKernelPageUser, rest) := rfl
  rw [hcons] at hhigh hlength
  refine ⟨⟨oneKernelPageUser, rest, fun _ => 0⟩, ?_, ⟨noHuge_oneKernelPageUser, ?_, ?_⟩, ?_⟩
  · refine ⟨largeMachine, _, _, a, pairwise_singleton _ _, ?_, hnew, a.frames,
      suffix_rfl, _, _, _, _, hcons ▸ hcreated⟩
    unfold BootFrameAllocator.Physical largeMachine
    decide
  · exact fun frame hframe => hhigh frame (mem_cons_of_mem _ hframe)
  · grind [unmapped, oneKernelPageUser, pageLimit]
  · intro page hpage
    have hlow := stackPages_lt hpage
    refine mem_unmapped.mpr ⟨hlow.trans (by decide), unmapped_of_created hcreated hlow⟩

/-- A module is loaded without a fault on every machine, as long as the frames are high enough, if
and only if it is safe. -/
theorem load_robust (data : List UInt8) :
    (∀ m, Started m → HighFrames m → Robust data m) ↔ SafeModule data := by
  constructor
  · intro h
    obtain ⟨m, hstarted, hample, hstack⟩ := exists_ample
    exact .of_robust (h m hstarted hample.high) hample hstack
  · exact fun h m _ hhigh => h.robust hhigh

/-- Modules that make the loader fault: the end of the table overflows, its entries have no size, it
starts at an odd place; a segment starts at an address that is not canonical, it is empty, it ends
after the module does. -/
def faultyModules : List (List UInt8 × LoadFault) :=
  [(writeElfHeader ⟨2, 0, 2 ^ 64 - 1, 56, 1⟩, .overflow),
    (writeElfHeader ⟨2, 0, 64, 0, 1⟩, .outsideModule),
    (writeElfHeader ⟨2, 0, 60, 56, 0⟩, .misaligned),
    (oneByteModule (2 ^ 48), .notCanonical),
    (moduleOf 2 0 [⟨ptLoad, 4, 120, 0x400000, 0, 0⟩] [], .pageOrder),
    (moduleOf 2 0 [⟨ptLoad, 4, 121, 0x400000, 1, 1⟩] [0xAA], .sliceIndex)]

def region (base : ℕ) : MemoryRegion := ⟨base, 0x20000, .usable⟩

/-- The machine with a region of memory, after a frame was taken for the new level 4 table. -/
def machineOf (base : ℕ) : Machine :=
  ⟨oneKernelPageUser, (Span.blocks pageSize (region base).span).tail, fun _ => 0⟩

lemma started_machineOf {base first : ℕ} {rest : List ℕ} (room : [(region base).span].length ≤ 32)
    (hnew : new [region base] 0xFFFF800004000000 0xFFFF800000000000
      = .ok ⟨⟨[(region base).span], room⟩, 0, base⟩)
    (hphysical : (region base).span.stop ≤ physAddrSize)
    (hframes : Span.blocks pageSize (region base).span = first :: rest) :
    Started (machineOf base) := by
  have hgiven : frames ⟨⟨[(region base).span], room⟩, 0, base⟩ = first :: rest :=
    (append_nil _).trans hframes
  refine ⟨[region base], _, _, _, pairwise_singleton _ _, ?_, hnew, first :: rest,
    hgiven ▸ suffix_rfl, oneKernelPage, kernelHalf, kernelHalf, kernelHalf, ?_⟩
  · intro r hr _
    rw [mem_singleton.mp hr]
    exact hphysical
  · rw [machineOf, hframes]
    rfl

/-- Every one of them faults, and so does a module without fault if its frame lies low. -/
theorem modules_not_robust :
    Started (machineOf 0x5000000) ∧ HighFrames (machineOf 0x5000000)
      ∧ (∀ x ∈ faultyModules, (loadElf x.1 (machineOf 0x5000000)).fault? = some x.2
        ∧ ¬ Robust x.1 (machineOf 0x5000000))
      ∧ (∃ elf, parse (writeElfHeader ⟨2, 0, 64, 0, 1⟩) = .ok (.ok elf)
        ∧ elf.data.length < elf.tableEnd)
      ∧ Started (machineOf 0x1000000)
      ∧ (loadElf (oneByteModule 0x400000) (machineOf 0x1000000)).fault? = some .frameCollision := by
  have hfault : ∀ x ∈ faultyModules, (loadElf x.1 (machineOf 0x5000000)).fault? = some x.2 := by
    decide +kernel
  refine ⟨started_machineOf (by decide) rfl (by decide) rfl, ?_, fun x hx => ?_,
    ⟨⟨writeElfHeader ⟨2, 0, 64, 0, 1⟩, ⟨2, 0, 64, 0, 1⟩⟩, by decide +kernel⟩,
    started_machineOf (by decide) rfl (by decide) rfl, by decide +kernel⟩
  · unfold HighFrames
    decide +kernel
  · exact ⟨hfault x hx, fun h => h.load (faults_of_fault? (hfault x hx))⟩

end Modules

end ThingOS
