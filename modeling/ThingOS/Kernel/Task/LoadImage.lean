import ThingOS.Kernel.Mm.FrameAllocator
import ThingOS.Kernel.Task.LoadIsolation

/-!
# The image of a loaded module

After a load that succeeds, a byte of a segment that is backed by the file holds the file's byte.
The rest of a segment holds whatever its frames held before: the statement that would zero it is
commented out in the source. So the image is the one the file describes exactly when those bytes of
the frames happened to be zero. The argument needs pages to have different frames, and the allocator
never hands out a frame twice.
-/

namespace ThingOS

open AddressSpace Load List Page Program.Uniform

/-- The frames are distinct and aligned, as those of the boot frame allocator are. -/
structure DistinctFrames (frames : List ℕ) : Prop where
  nodup : frames.Nodup
  aligned : ∀ frame ∈ frames, pageSize ∣ frame

lemma DistinctFrames.of_suffix {frames later : List ℕ} (h : DistinctFrames frames)
    (hsuffix : later <:+ frames) : DistinctFrames later :=
  ⟨h.nodup.sublist hsuffix.sublist, fun frame hframe => h.aligned frame (hsuffix.subset hframe)⟩

/-- Different frames share no address. -/
lemma eq_of_frames {f g x y : ℕ} (hf : pageSize ∣ f) (hg : pageSize ∣ g) (hx : x < pageSize)
    (hy : y < pageSize) (h : f + x = g + y) : f = g ∧ x = y := by
  obtain ⟨k, rfl⟩ := hf
  obtain ⟨l, rfl⟩ := hg
  have hk : (pageSize * k + x) / pageSize = k := by
    rw [Nat.mul_add_div pageSize_pos, Nat.div_eq_of_lt hx, Nat.add_zero]
  have hl : (pageSize * l + y) / pageSize = l := by
    rw [Nat.mul_add_div pageSize_pos, Nat.div_eq_of_lt hy, Nat.add_zero]
  rw [h, hl] at hk
  subst hk
  exact ⟨rfl, by omega⟩

/-- The pages of the user's half have different frames, and none of those is still free. -/
structure Separate (m : Machine) : Prop where
  free : DistinctFrames m.frames
  used : ∀ page < kernelHalf, ∀ frame, m.space.frameOf page = some frame →
    pageSize ∣ frame ∧ frame ∉ m.frames
  injective : ∀ p < kernelHalf, ∀ q < kernelHalf, ∀ frame, m.space.frameOf p = some frame →
    m.space.frameOf q = some frame → p = q

namespace Separate

variable {m : Machine} {page frame : ℕ} {frames : List ℕ} {flags : PageTableFlags}

lemma take (h : Separate m) (hframes : m.frames = frame :: frames) :
    Separate { m with frames } where
  free := h.free.of_suffix (hframes ▸ suffix_cons frame frames)
  used p hp f hf := by
    obtain ⟨hdvd, hnot⟩ := h.used p hp f hf
    rw [hframes] at hnot
    exact ⟨hdvd, fun hmem => hnot (mem_cons_of_mem _ hmem)⟩
  injective := h.injective

lemma map (h : Separate m) (hframes : m.frames = frame :: frames) :
    Separate (Machine.mapTo { m with frames } page frame flags) := by
  have hsuffix : (Machine.mapTo { m with frames } page frame flags).frames <:+ frames :=
    frames_mapTo
  have hlater : (Machine.mapTo { m with frames } page frame flags).frames <:+ m.frames :=
    hsuffix.trans (hframes ▸ suffix_cons frame frames)
  have hnew : frame ∈ m.frames := hframes ▸ mem_cons_self
  have hfresh : frame ∉ frames := (nodup_cons.mp (hframes ▸ h.free.nodup)).1
  have hframeOf := frameOf_mapTo m.space frames page frame flags
  refine ⟨h.free.of_suffix hlater, fun p hp f hf => ?_, fun p hp q hq f hpf hqf => ?_⟩
  · rcases hframeOf p with hold | ⟨rfl, -, hmapped⟩
    · obtain ⟨hdvd, hnot⟩ := h.used p hp f (hold.symm.trans hf)
      exact ⟨hdvd, fun hmem => hnot (hlater.subset hmem)⟩
    · obtain rfl := Option.some.inj (hmapped.symm.trans hf)
      exact ⟨h.free.aligned _ hnew, fun hmem => hfresh (hsuffix.subset hmem)⟩
  · rcases hframeOf p with hp' | ⟨rfl, -, hp'⟩
    · rcases hframeOf q with hq' | ⟨rfl, -, hq'⟩
      · exact h.injective p hp q hq f (hp'.symm.trans hpf) (hq'.symm.trans hqf)
      · -- the new frame was free, so no page had it
        obtain rfl := Option.some.inj (hq'.symm.trans hqf)
        exact absurd hnew (h.used p hp _ (hp'.symm.trans hpf)).2
    · rcases hframeOf q with hq' | ⟨rfl, -, hq'⟩
      · obtain rfl := Option.some.inj (hp'.symm.trans hpf)
        exact absurd hnew (h.used q hq _ (hq'.symm.trans hqf)).2
      · rfl

lemma updateFlags (h : Separate m) : Separate (m.updateFlags page flags) where
  free := h.free
  used p hp f hf := h.used p hp f (frameOf_updateFlags.symm.trans hf)
  injective p hp q hq f hpf hqf := h.injective p hp q hq f
    (frameOf_updateFlags.symm.trans hpf)
    (frameOf_updateFlags.symm.trans hqf)

end Separate

/-- The load has written the bytes `written` of the user's half and nothing else: elsewhere a page
shows what its frame held at the start, as the free frames still do. The pages in `pages` are
mapped. -/
structure Shows (start : Machine) (pages : ℕ → Prop) (written : ℕ → Option UInt8) (m : Machine) :
    Prop where
  separate : Separate m
  pages : ∀ page, pages page → (m.space.frameOf page).isSome = true
  mapped : ∀ v, (written v).isSome = true → (m.space.frameOf (v / pageSize)).isSome = true
  free : ∀ frame ∈ m.frames, ∀ x < pageSize, m.memory (frame + x) = start.memory (frame + x)
  contents : ∀ v, v / pageSize < kernelHalf → ∀ frame, m.space.frameOf (v / pageSize) = some frame →
    m.memory (frame + v % pageSize) = (written v).getD (start.memory (frame + v % pageSize))

variable {start m : Machine} {pages : ℕ → Prop} {written : ℕ → Option UInt8}

namespace Shows

lemma mapKept (page : ℕ) : Load.MapKept (Shows start pages written) page where
  take m frame frames h hframes :=
    { separate := h.separate.take hframes
      pages := h.pages
      mapped := h.mapped
      free := fun f hf => h.free f (hframes ▸ mem_cons_of_mem _ hf)
      contents := h.contents }
  map m frame frames flags h hframes := by
    have hkept := fun q => (kept_mapped page q).map m frame frames flags
    refine ⟨h.separate.map hframes, fun p hp => hkept p (h.pages p hp) hframes,
      fun v hv => hkept _ (h.mapped v hv) hframes, fun f hf => h.free f ?_, fun v hv f hf => ?_⟩
    · rw [hframes]
      exact mem_cons_of_mem _ (frames_mapTo.subset hf)
    · rcases frameOf_mapTo m.space frames page frame flags (v / pageSize)
        with hold | ⟨hpage, hnone, hnew⟩
      · exact h.contents v hv f (hold.symm.trans hf)
      · -- nothing was written to a page that was not mapped, and its new frame was free
        subst hpage
        obtain rfl := Option.some.inj (hnew.symm.trans hf)
        have hwritten : written v = none := by
          by_contra hsome
          have := h.mapped v (Option.isSome_iff_ne_none.mpr hsome)
          rw [hnone] at this
          cases this
        rw [hwritten]
        exact h.free frame (hframes ▸ mem_cons_self) _ (Nat.mod_lt _ pageSize_pos)
  flags m flags h := by
    have hframeOf : ∀ q, (m.updateFlags page flags).space.frameOf q = m.space.frameOf q :=
      fun q => frameOf_updateFlags
    refine ⟨h.separate.updateFlags, fun p hp => ?_, fun v hv => ?_, h.free, fun v hv f hf => ?_⟩
    · rw [hframeOf]
      exact h.pages p hp
    · rw [hframeOf]
      exact h.mapped v hv
    · rw [hframeOf] at hf
      exact h.contents v hv f hf

/-- Writing bytes to the frame of a page shows them on that page and nowhere else. -/
lemma write {page frame a : ℕ} {bytes : List UInt8} (h : Shows start pages written m)
    (hpage : page < kernelHalf) (hframe : m.space.frameOf page = some frame)
    (hfit : a + bytes.length ≤ pageSize) :
    Shows start pages
      (fun v => if v / pageSize = page ∧ a ≤ v % pageSize ∧ v % pageSize < a + bytes.length
        then some (bytes.getD (v % pageSize - a) 0) else written v)
      { m with memory := writeBytes m.memory (frame + a) bytes } := by
  obtain ⟨hdvd, hnot⟩ := h.separate.used page hpage frame hframe
  -- an address of another frame is not touched
  have hother : ∀ g x, pageSize ∣ g → x < pageSize → g ≠ frame →
      writeBytes m.memory (frame + a) bytes (g + x) = m.memory (g + x) := by
    intro g x hg hx hne
    refine if_neg fun hin => hne ?_
    exact (eq_of_frames hg hdvd hx (y := g + x - frame) (by omega) (by omega)).1
  refine ⟨⟨h.separate.free, h.separate.used, h.separate.injective⟩, h.pages, fun v hv => ?_,
    fun g hg x hx => ?_, fun v hv g hg => ?_⟩
  · split at hv
    case isTrue hin =>
      rw [hin.1]
      exact hframe ▸ rfl
    case isFalse => exact h.mapped v hv
  · have hne : g ≠ frame := by
      rintro rfl
      exact hnot hg
    exact (hother g x (h.separate.free.aligned g hg) hx hne).trans (h.free g hg x hx)
  · have hmod := Nat.mod_lt v pageSize_pos
    by_cases hv' : v / pageSize = page
    · obtain rfl : frame = g := Option.some.inj (hframe.symm.trans (hv' ▸ hg))
      have hin : (frame + a ≤ frame + v % pageSize
          ∧ frame + v % pageSize < frame + a + bytes.length)
          ↔ (a ≤ v % pageSize ∧ v % pageSize < a + bytes.length) := by omega
      simp only [writeBytes, hin, hv', true_and]
      split
      case isTrue => rw [Nat.add_sub_add_left]; rfl
      case isFalse => exact h.contents v hv frame hg
    · have hne : g ≠ frame := by
        rintro rfl
        exact hv' (h.separate.injective _ hv _ hpage g hg hframe)
      rw [if_neg fun hin => hv' hin.1]
      have haligned := (h.separate.used _ hv g hg).1
      exact (hother g _ haligned hmod hne).trans (h.contents v hv g hg)

end Shows

/-- The bytes of a file that a segment shows on some of its pages, over what was written before. -/
def overlay (data : List UInt8) (ph : ProgramHeader) (segStart : ℕ) (pages : List ℕ)
    (written : ℕ → Option UInt8) : ℕ → Option UInt8 := fun v =>
  if v / pageSize ∈ pages ∧ segStart ≤ v ∧ v < segStart + ph.filesz
  then data[ph.offset + (v - segStart)]? else written v

variable {data : List UInt8} {ph : ProgramHeader} {segStart page : ℕ} {pre l : List ℕ} {elf : Elf}

lemma overlay_concat (v : ℕ) :
    overlay data ph segStart (pre ++ [page]) written v
      = if v / pageSize = page ∧ segStart ≤ v ∧ v < segStart + ph.filesz
        then data[ph.offset + (v - segStart)]? else overlay data ph segStart pre written v := by
  simp only [overlay, mem_append, mem_singleton]
  by_cases hpage : v / pageSize = page <;> by_cases hin : segStart ≤ v ∧ v < segStart + ph.filesz
    <;> simp [hpage, hin]

lemma getElem?_slice {start len k : ℕ} (hk : k < len) (hlen : start + len ≤ data.length) :
    some (((data.drop start).take len).getD k 0) = data[start + k]? := by
  have hin : start + k < data.length := by omega
  rw [getD_eq_getElem?_getD, getElem?_take_of_lt hk, getElem?_drop,
    getElem?_eq_getElem hin, Option.getD_some]

lemma Page.bounds_of_div {v : ℕ} (h : v / pageSize = page) :
    page * pageSize ≤ v ∧ v < page * pageSize + pageSize
      ∧ v % pageSize = v - page * pageSize := by
  subst h
  have hdiv := Nat.div_add_mod v pageSize
  have hmod := Nat.mod_lt v pageSize_pos
  rw [Nat.mul_comm] at hdiv
  omega

/-- A page that holds no byte of the file shows what it did before. -/
lemma overlay_concat_of_outside
    (hout : ∀ v, v / pageSize = page → ¬ (segStart ≤ v ∧ v < segStart + ph.filesz)) :
    overlay data ph segStart (pre ++ [page]) written = overlay data ph segStart pre written := by
  funext v
  rw [overlay_concat, if_neg fun hin => hout v hin.1 hin.2]

lemma overlay_concat_of_slice {copyStart len : ℕ}
    (hstart : copyStart = max (page * pageSize) segStart)
    (hlen : len = min (page * pageSize + pageSize) (segStart + ph.filesz) - copyStart)
    (hslice : ph.offset + (copyStart - segStart) + len ≤ data.length) (v : ℕ) :
    (if v / pageSize = page ∧ copyStart - page * pageSize ≤ v % pageSize
        ∧ v % pageSize < copyStart - page * pageSize + len
      then some (((data.drop (ph.offset + (copyStart - segStart))).take len).getD
        (v % pageSize - (copyStart - page * pageSize)) 0)
      else overlay data ph segStart pre written v)
      = overlay data ph segStart (pre ++ [page]) written v := by
  rw [overlay_concat]
  by_cases hpage : v / pageSize = page
  case neg => rw [if_neg fun hin => hpage hin.1, if_neg fun hin => hpage hin.1]
  obtain ⟨hlow, hhigh, hmod⟩ := bounds_of_div hpage
  by_cases hin : segStart ≤ v ∧ v < segStart + ph.filesz
  case neg => rw [if_neg (by omega), if_neg fun h => hin h.2]
  have hindex : ph.offset + (copyStart - segStart)
      + (v % pageSize - (copyStart - page * pageSize)) = ph.offset + (v - segStart) := by omega
  rw [if_pos ⟨hpage, by omega, by omega⟩, if_pos ⟨hpage, hin⟩, getElem?_slice (by omega) hslice,
    hindex]

lemma copyPage_shows (pre : List ℕ) (hpage : page < kernelHalf) :
    Program.Triple (Shows start pages (overlay data ph segStart pre written))
      (copyPage data ph segStart (segStart + ph.filesz) page)
      (fun _ => Shows start pages (overlay data ph segStart (pre ++ [page]) written))
      fun _ => True := by
  refine .lift_bind (fun pageEnd hend => ?_) fun _ _ => trivial
  obtain ⟨-, rfl⟩ := Checked.add_eq_ok.mp hend
  refine .read_bind fun m hm => ?_
  rw [startU64, if_pos hpage]
  have hnothing (hout : ∀ v, v / pageSize = page → ¬ (segStart ≤ v ∧ v < segStart + ph.filesz)) :
      ∀ s, s = m → Shows start pages (overlay data ph segStart (pre ++ [page]) written) s := by
    rintro _ rfl
    rw [overlay_concat_of_outside hout]
    exact hm
  split
  case h_1 => exact .fail fun _ _ => trivial
  case h_2 frame flags hmapped =>
    have hframe : m.space.frameOf page = some frame := by
      rw [frameOf, hmapped]
      rfl
    dsimp only
    split
    case isFalse hlt =>
      refine .pure (hnothing fun v hv hin => ?_)
      have := bounds_of_div hv
      omega
    split
    case isFalse hlt =>
      refine .pure (hnothing fun v hv hin => ?_)
      have := bounds_of_div hv
      omega
    case isTrue hlt =>
      refine .lift_bind (fun first hfirst => ?_) fun _ _ => trivial
      obtain ⟨-, rfl⟩ := Checked.add_eq_ok.mp hfirst
      refine .lift_bind (fun stop hstop => ?_) fun _ _ => trivial
      obtain ⟨-, rfl⟩ := Checked.add_eq_ok.mp hstop
      refine .lift_bind (fun _ hrequire => .write ?_) fun _ _ => trivial
      have hslice := Checked.of_require hrequire
      rintro _ rfl
      have hbytes := length_take_of_le (l := data.drop (ph.offset
        + (max (page * pageSize) segStart - segStart))) (i := min (page * pageSize + pageSize)
        (segStart + ph.filesz) - max (page * pageSize) segStart) (by rw [length_drop]; omega)
      have hshows := hm.write hpage hframe (a := max (page * pageSize) segStart - page * pageSize)
        (by rw [hbytes]; omega)
      refine cast (congrArg (fun w => Shows start pages w _) (funext fun v => ?_)) hshows
      rw [hbytes]
      exact overlay_concat_of_slice rfl rfl hslice v

/-! ## Whole segments -/

lemma Shows.of_pages {pages' : ℕ → Prop} (h : Shows start pages written m)
    (hpages : ∀ p, pages' p → (m.space.frameOf p).isSome = true) : Shows start pages' written m :=
  ⟨h.separate, hpages, h.mapped, h.free, h.contents⟩

lemma mapPages_shows (flags : PageTableFlags) (l : List ℕ) :
    Program.Triple (Shows start pages written) (Program.forEach (mapPage flags) l)
      (fun _ => Shows start (fun p => pages p ∨ p ∈ l) written) fun _ => True := by
  refine (Program.Triple.forEach
    (fun pre => Shows start (fun p => pages p ∨ p ∈ pre) written) ?_).mono ?_
  · intro pre page post _
    refine ((mapPage_keeps (Shows.mapKept page)).and ((mapPage_maps flags page).mono
      fun _ _ => trivial)).imp ?_ fun _ _ => trivial
    rintro _ m ⟨hm, hmapped⟩
    refine hm.of_pages fun p hp => ?_
    rw [mem_append, mem_singleton, ← or_assoc] at hp
    rcases hp with hp | rfl
    · exact hm.pages p hp
    · exact hmapped
  · exact fun m hm => hm.of_pages fun p hp => hm.pages p (hp.resolve_right not_mem_nil)

lemma copyPages_shows (hl : ∀ page ∈ l, page < kernelHalf) :
    Program.Triple (Shows start pages written)
      (Program.forEach (copyPage data ph segStart (segStart + ph.filesz)) l)
      (fun _ => Shows start pages (overlay data ph segStart l written)) fun _ => True := by
  refine (Program.Triple.forEach
    (fun pre => Shows start pages (overlay data ph segStart pre written)) ?_).mono ?_
  · intro pre page post heq
    refine copyPage_shows pre (hl page ?_)
    rw [heq]
    exact mem_append_right _ mem_cons_self
  · intro m hm
    have hsame : overlay data ph segStart [] written = written := by
      funext v
      exact if_neg fun hin => absurd hin.1 not_mem_nil
    rw [hsame]
    exact hm

/-- The file's bytes of a segment over those written before. -/
def withSegment (data : List UInt8) (first : ℕ) (ph : ProgramHeader)
    (written : ℕ → Option UInt8) : ℕ → Option UInt8 := fun v =>
  if first ≤ v ∧ v < first + ph.filesz then data[ph.offset + (v - first)]? else written v

/-- The pages from that of the first byte of a segment to that of the last one. -/
def SegmentPage (first : ℕ) (ph : ProgramHeader) (page : ℕ) : Prop :=
  first / pageSize ≤ page ∧ page ≤ (first + ph.memsz - 1) / pageSize

lemma loadSegment_shows {header : ElfHeader} {vaddr : VirtAddr} (htype : ph.type = ptLoad)
    (hvaddr : loadAddress header ph.vaddr = .ok vaddr) (hlow : vaddr.bits < 2 ^ 47)
    (hend : vaddr.bits + ph.memsz ≤ 2 ^ 47) (hsize : ph.filesz ≤ ph.memsz) :
    Program.Triple (Shows start pages written) (loadSegment data header ph)
      (fun _ => Shows start (fun p => pages p ∨ SegmentPage vaddr.bits ph p)
        (withSegment data vaddr.bits ph written)) fun _ => True := by
  rw [loadSegment, if_neg (not_not.mpr htype)]
  refine .lift_bind (fun placed hplaced => ?_) fun _ _ => trivial
  obtain ⟨hv, hfirst, hlast, hhalf⟩ := placed_of_low hplaced hvaddr hlow hend
  have hmem : ∀ p, p ∈ placed.pages ↔ SegmentPage vaddr.bits ph p := by
    intro p
    rw [Placement.pages, mem_rangeInclusive, hfirst, hlast]
    rfl
  refine .bind (mapPages_shows _ _) fun _ => ?_
  refine .lift_bind (fun fileEnd hfile => ?_) fun _ _ => trivial
  obtain ⟨-, rfl⟩ := Checked.add_eq_ok.mp hfile
  rw [hv, VirtAddr.asU64_of_low hlow]
  refine (copyPages_shows fun page hpage => ?_).imp ?_ fun _ _ => trivial
  · exact (mem_rangeInclusive.mp hpage).2.trans_lt hhalf
  · intro _ m hm
    -- every byte of the file part lies on one of the pages
    have hsame : overlay data ph vaddr.bits placed.pages written
        = withSegment data vaddr.bits ph written := by
      funext v
      refine if_congr ⟨And.right, fun hin => ⟨(hmem _).mpr ⟨?_, ?_⟩, hin⟩⟩ rfl rfl
      · exact Nat.div_le_div_right hin.1
      · exact Nat.div_le_div_right (by omega)
    rw [hsame] at hm
    exact hm.of_pages fun p hp => hm.pages p (hp.imp_right (hmem p).mpr)

/-! ## Whole modules -/

namespace Elf

/-- The loadable segment a program header describes, with the address it is loaded at. -/
def segment (elf : Elf) (i : ℕ) : Option (ℕ × ProgramHeader) :=
  match elf.programHeader i with
  | .error _ => none
  | .ok ph =>
    if ph.type = ptLoad then
      match loadAddress elf.header ph.vaddr with
      | .error _ => none
      | .ok vaddr => some (vaddr.bits, ph)
    else none

/-- The bytes that the segments at some indices put into memory. -/
def imageBytes (elf : Elf) (indices : List ℕ) : ℕ → Option UInt8 :=
  indices.foldl (fun written i =>
    match elf.segment i with
    | some (first, ph) => withSegment elf.data first ph written
    | none => written) fun _ => none

/-- The pages of the segments at some indices. -/
def ImagePage (elf : Elf) (indices : List ℕ) (page : ℕ) : Prop :=
  ∃ i ∈ indices, ∃ first ph, elf.segment i = some (first, ph) ∧ SegmentPage first ph page

/-- The loadable segments lie in the user's half, are at least as long in memory as in the file,
take their bytes from within the file, and do not overlap. -/
structure GoodSegments (elf : Elf) : Prop where
  user : ∀ i < elf.header.phnum, ∀ first ph, elf.segment i = some (first, ph) →
    first < 2 ^ 47 ∧ first + ph.memsz ≤ 2 ^ 47
  sizes : ∀ i < elf.header.phnum, ∀ first ph, elf.segment i = some (first, ph) →
    ph.filesz ≤ ph.memsz
  file : ∀ i < elf.header.phnum, ∀ first ph, elf.segment i = some (first, ph) →
    ph.offset + ph.filesz ≤ elf.data.length
  disjoint : ∀ i < elf.header.phnum, ∀ j < elf.header.phnum, i ≠ j →
    ∀ first ph first' ph', elf.segment i = some (first, ph) →
      elf.segment j = some (first', ph') →
      ∀ v, first ≤ v ∧ v < first + ph.memsz → ¬ (first' ≤ v ∧ v < first' + ph'.memsz)

variable {i first : ℕ}

lemma imageBytes_concat (elf : Elf) (pre : List ℕ) (i : ℕ) :
    elf.imageBytes (pre ++ [i]) = match elf.segment i with
      | some (first, ph) => withSegment elf.data first ph (elf.imageBytes pre)
      | none => elf.imageBytes pre := by
  rw [imageBytes, foldl_append]
  rfl

lemma imagePage_concat : elf.ImagePage (pre ++ [i]) page ↔ elf.ImagePage pre page
    ∨ ∃ first ph, elf.segment i = some (first, ph) ∧ SegmentPage first ph page := by
  simp only [ImagePage, mem_append, mem_singleton, or_and_right, exists_or,
    exists_eq_left]

/-- An address that no segment takes from the file is not written. -/
lemma imageBytes_eq_none {v : ℕ} (h : ∀ j ∈ pre, ∀ first ph, elf.segment j = some (first, ph) →
    ¬ (first ≤ v ∧ v < first + ph.filesz)) : elf.imageBytes pre v = none := by
  induction pre using reverseRecOn with
  | nil => rfl
  | append_singleton pre j ih =>
    have hpre := ih fun k hk => h k (mem_append_left _ hk)
    rw [imageBytes_concat]
    split
    case h_1 first ph hsegment =>
      have hj := h j (mem_append_right _ (mem_singleton_self j)) first ph hsegment
      rw [withSegment, if_neg hj, hpre]
    case h_2 => exact hpre

/-- A byte of the file part of a segment is the file's, since the other segments stay away from
it. -/
lemma imageBytes_eq {v : ℕ} (hgood : elf.GoodSegments) (hpre : ∀ j ∈ pre, j < elf.header.phnum)
    (hi : i ∈ pre) (hsegment : elf.segment i = some (first, ph))
    (hv : first ≤ v ∧ v < first + ph.filesz) :
    elf.imageBytes pre v = elf.data[ph.offset + (v - first)]? := by
  induction pre using reverseRecOn with
  | nil => exact absurd hi not_mem_nil
  | append_singleton pre j ih =>
    have hpre' := fun k hk => hpre k (mem_append_left _ hk)
    have hj := hpre j (mem_append_right _ (mem_singleton_self j))
    rw [imageBytes_concat]
    by_cases hij : j = i
    · subst hij
      simp only [hsegment]
      exact if_pos hv
    · have hmem : i ∈ pre := by
        rcases mem_append.mp hi with hi | hi
        · exact hi
        · exact absurd (mem_singleton.mp hi).symm hij
      split
      case h_1 first' ph' hsegment' =>
        have hi' := hpre' i hmem
        have hsize := hgood.sizes i hi' first ph hsegment
        have hsize' := hgood.sizes j hj first' ph' hsegment'
        have hapart := hgood.disjoint i hi' j hj (Ne.symm hij) first ph first' ph' hsegment
          hsegment' v ⟨hv.1, by omega⟩
        rw [withSegment, if_neg (by omega), ih hpre' hmem]
      case h_2 => exact ih hpre' hmem

end Elf

/-- A property of the headers loaded so far holds after all of them, if headers that load nothing
keep it and each segment that is placed carries it on. A segment that cannot be placed ends the
load. -/
lemma Load.loadSegments_triple {J : List ℕ → Machine → Prop}
    (hskip : ∀ pre i m, elf.segment i = none → J pre m → J (pre ++ [i]) m)
    (hload : ∀ pre i vaddr ph, i < elf.header.phnum → elf.segment i = some (vaddr.bits, ph) →
      ph.type = ptLoad → loadAddress elf.header ph.vaddr = .ok vaddr →
      Program.Triple (J pre) (loadSegment elf.data elf.header ph) (fun _ => J (pre ++ [i]))
        fun _ => True) :
    Program.Triple (J []) (loadSegments elf (range elf.header.phnum))
      (fun _ => J (range elf.header.phnum)) fun _ => True := by
  refine .forEach J fun pre i post hrange => ?_
  have hi : i < elf.header.phnum := by
    rw [← mem_range, hrange]
    exact mem_append_right _ mem_cons_self
  refine .lift_bind (fun ph hph => ?_) fun _ _ => trivial
  by_cases htype : ph.type = ptLoad
  case neg =>
    have hnone : elf.segment i = none := by simp only [Elf.segment, hph, htype, if_false]
    rw [loadSegment, if_pos htype]
    exact .pure fun m hm => hskip pre i m hnone hm
  cases hvaddr : loadAddress elf.header ph.vaddr with
  | error e =>
    rw [loadSegment, if_neg (not_not.mpr htype)]
    refine .lift_bind (fun placed hplaced => ?_) fun _ _ => trivial
    obtain ⟨vaddr, -, -, hok, -⟩ := place_eq_ok.mp hplaced
    cases hvaddr.symm.trans hok
  | ok vaddr =>
    have hsome : elf.segment i = some (vaddr.bits, ph) := by
      simp only [Elf.segment, hph, htype, if_true, hvaddr]
    exact hload pre i vaddr ph hi hsome htype hvaddr

lemma loadSegments_shows (hgood : elf.GoodSegments) :
    Program.Triple (Shows start (fun _ => False) fun _ => none)
      (loadSegments elf (range elf.header.phnum))
      (fun _ => Shows start (elf.ImagePage (range elf.header.phnum))
        (elf.imageBytes (range elf.header.phnum))) fun _ => True := by
  refine (loadSegments_triple
    (J := fun pre => Shows start (elf.ImagePage pre) (elf.imageBytes pre)) ?_ ?_).mono ?_
  · intro pre i m hnone hm
    rw [Elf.imageBytes_concat, hnone]
    refine hm.of_pages fun p hp => hm.pages p ?_
    rcases Elf.imagePage_concat.mp hp with hp | ⟨first, ph, hsome, -⟩
    · exact hp
    · cases hnone.symm.trans hsome
  · intro pre i vaddr ph hi hsome htype hvaddr
    obtain ⟨hlow, hend⟩ := hgood.user i hi _ _ hsome
    refine (loadSegment_shows htype hvaddr hlow hend (hgood.sizes i hi _ _ hsome)).imp ?_
      fun _ _ => trivial
    intro _ m hm
    rw [Elf.imageBytes_concat, hsome]
    refine hm.of_pages fun p hp => hm.pages p ?_
    refine (Elf.imagePage_concat.mp hp).imp_right ?_
    rintro ⟨first, ph', hsome', hpage⟩
    cases hsome.symm.trans hsome'
    exact hpage
  · refine fun m hm => hm.of_pages fun p hp => ?_
    obtain ⟨i, hi, -⟩ := hp
    exact absurd hi not_mem_nil

lemma shows_of_done {loaded : LoadedElf} (hfree : DistinctFrames start.frames)
    (hempty : ∀ page < kernelHalf, start.space.frameOf page = none)
    (hparse : Elf.parse data = .ok (.ok elf)) (hgood : elf.GoodSegments)
    (hdone : loadElf data start = .done loaded m) :
    Shows start (elf.ImagePage (range elf.header.phnum))
      (elf.imageBytes (range elf.header.phnum)) m := by
  have hunmapped : ∀ page < kernelHalf, ∀ frame, start.space.frameOf page ≠ some frame := by
    intro page hpage frame h
    rw [hempty page hpage] at h
    cases h
  have hstart : Shows start (fun _ => False) (fun _ => none) start := by
    refine ⟨⟨hfree, ?_, ?_⟩, nofun, nofun, fun _ _ _ _ => rfl, fun _ _ _ _ => rfl⟩
    · exact fun page hpage frame h => absurd h (hunmapped page hpage frame)
    · exact fun p hp q _ frame h => absurd h (hunmapped p hp frame)
  have htriple : Program.Triple (Shows start (fun _ => False) fun _ => none) (loadElf data)
      (fun _ => Shows start (elf.ImagePage (range elf.header.phnum))
        (elf.imageBytes (range elf.header.phnum))) fun _ => True := by
    refine .lift_bind (fun parsed hparsed => ?_) fun _ _ => trivial
    cases hparse.symm.trans hparsed
    refine .bind (.forEach_mem fun page _ => ?_) fun _ => ?_
    · exact (mapStackPage_keeps (Shows.mapKept page)).imp (fun _ _ => id) fun _ _ => trivial
    refine .bind (loadSegments_shows hgood) fun _ => ?_
    exact .lift_bind (fun _ _ => .pure fun _ => id) fun _ _ => trivial
  exact htriple.of_done hstart hdone

/-! ## The contents of memory play no part -/

/-- The machines differ in memory at most. -/
def SameTables (s t : Machine) : Prop := ∃ memory, t = { s with memory }

namespace SameTables

lemma allocateFrame (error : LoadError) :
    Program.Uniform SameTables (allocateFrame error) := by
  refine ⟨?_⟩
  rintro ⟨space, frames, before⟩ _ ⟨memory, rfl⟩
  cases frames <;> exact ⟨rfl, memory, rfl⟩

lemma mapTo (error : LoadError) (page frame : ℕ) (flags : PageTableFlags) :
    Program.Uniform SameTables (mapTo error page frame flags) := by
  refine ⟨?_⟩
  rintro s _ ⟨memory, rfl⟩
  rw [mapTo_apply, mapTo_apply]
  cases (s.space.mapTo s.frames page frame flags).1 <;> exact ⟨rfl, memory, rfl⟩

lemma updateFlags (error : LoadError) (page : ℕ) (flags : PageTableFlags) :
    Program.Uniform SameTables (updateFlags error page flags) := by
  refine ⟨?_⟩
  rintro s _ ⟨memory, rfl⟩
  rw [updateFlags_apply, updateFlags_apply]
  cases (s.space.updateFlags page flags).1 <;> exact ⟨rfl, memory, rfl⟩

lemma mapPage (flags : PageTableFlags) (page : ℕ) :
    Program.Uniform SameTables (mapPage flags page) := by
  refine .read_bind ?_
  rintro s _ ⟨memory, rfl⟩
  dsimp only
  refine related ?_ s _ ⟨memory, rfl⟩
  split
  · split
    · exact updateFlags _ _ _
    · exact .pure _
  · exact (allocateFrame _).bind fun frame => (lift _).bind fun _ => mapTo _ _ _ _

lemma copyPage (data : List UInt8) (ph : ProgramHeader) (segStart fileEnd page : ℕ) :
    Program.Uniform SameTables (copyPage data ph segStart fileEnd page) := by
  refine (lift _).bind fun pageEnd => .read_bind ?_
  rintro s _ ⟨memory, rfl⟩
  have hsame : SameTables s { s with memory } := ⟨memory, rfl⟩
  cases s.space.translate page with
  | none => exact ⟨rfl, hsame⟩
  | some mapping =>
    by_cases hpage : startU64 page < fileEnd
    case neg =>
      simp only [if_neg hpage]
      exact ⟨rfl, hsame⟩
    by_cases hcopy : max (startU64 page) segStart < min pageEnd fileEnd
    case neg =>
      simp only [if_pos hpage, if_neg hcopy]
      exact ⟨rfl, hsame⟩
    simp only [if_pos hpage, if_pos hcopy]
    refine related_lift_bind hsame fun first => ?_
    refine related_lift_bind hsame fun stop => ?_
    exact related_lift_bind hsame fun _ => ⟨rfl, _, rfl⟩

/-- Whether a load succeeds does not depend on what memory holds. -/
lemma loadElf (data : List UInt8) : Program.Uniform SameTables (loadElf data) := by
  refine (lift _).bind fun parsed => ?_
  cases parsed with
  | error e => exact ⟨fun _ _ h => ⟨rfl, h⟩⟩
  | ok elf =>
    refine .bind (.forEach (fun page => (allocateFrame _).bind fun frame => mapTo _ _ _ _) _)
      fun _ => .bind (.forEach (fun i => ?_) _) fun _ => ?_
    · refine (lift _).bind fun ph => ?_
      unfold loadSegment
      split
      · exact .pure _
      · refine (lift _).bind fun placed => ?_
        refine .bind (.forEach (mapPage _) _) fun _ => ?_
        exact (lift _).bind fun fileEnd => .forEach (copyPage _ _ _ _) _
    · exact (lift _).bind fun _ => .pure _

end SameTables

/-! ## The image -/

/-- The byte at an address of the user's half. -/
def Machine.byteAt (m : Machine) (v : ℕ) : Option UInt8 :=
  (m.space.frameOf (v / pageSize)).map fun frame => m.memory (frame + v % pageSize)

/-- Every byte of a segment is the file's, or zero beyond the part the file has. -/
def ImageCorrect (elf : Elf) (m : Machine) : Prop :=
  ∀ i < elf.header.phnum, ∀ first ph, elf.segment i = some (first, ph) → ∀ k < ph.memsz,
    m.byteAt (first + k) = if k < ph.filesz then elf.data[ph.offset + k]? else some 0

section

variable {start m : Machine} {elf : Elf} {i first k : ℕ} {ph : ProgramHeader}
  (hgood : elf.GoodSegments)
  (hm : Shows start (elf.ImagePage (range elf.header.phnum))
    (elf.imageBytes (range elf.header.phnum)) m)
  (hi : i < elf.header.phnum) (hsegment : elf.segment i = some (first, ph)) (hk : k < ph.memsz)

include hgood hm hi hsegment hk

/-- A byte of a segment lies in a frame, which holds the byte that was written or its old one. -/
lemma byteAt_of_shows : ∃ frame, m.space.frameOf ((first + k) / pageSize) = some frame
    ∧ m.byteAt (first + k) = some ((elf.imageBytes (range elf.header.phnum) (first + k)).getD
      (start.memory (frame + (first + k) % pageSize))) := by
  obtain ⟨-, hend⟩ := hgood.user i hi first ph hsegment
  have hpage : elf.ImagePage (range elf.header.phnum) ((first + k) / pageSize) := by
    refine ⟨i, mem_range.mpr hi, first, ph, hsegment, ?_, ?_⟩
    · exact Nat.div_le_div_right (Nat.le_add_right _ _)
    · exact Nat.div_le_div_right (by omega)
  obtain ⟨frame, hframe⟩ := Option.isSome_iff_exists.mp (hm.pages _ hpage)
  have hlow : (first + k) / pageSize < kernelHalf := by
    have hhalf : kernelHalf * pageSize = 2 ^ 47 := by decide
    rw [Nat.div_lt_iff_lt_mul pageSize_pos]
    omega
  refine ⟨frame, hframe, ?_⟩
  rw [Machine.byteAt, hframe, Option.map_some, hm.contents _ hlow frame hframe]

lemma byteAt_of_file (hfile : k < ph.filesz) :
    m.byteAt (first + k) = elf.data[ph.offset + k]? := by
  obtain ⟨frame, -, hbyte⟩ := byteAt_of_shows hgood hm hi hsegment hk
  have hrange : ∀ j ∈ range elf.header.phnum, j < elf.header.phnum :=
    fun j hj => mem_range.mp hj
  have hin : ph.offset + k < elf.data.length := by
    have := hgood.file i hi first ph hsegment
    omega
  rw [hbyte, Elf.imageBytes_eq hgood hrange (mem_range.mpr hi) hsegment
    ⟨Nat.le_add_right _ _, by omega⟩, Nat.add_sub_cancel_left, getElem?_eq_getElem hin,
    Option.getD_some]

/-- Beyond the file part a byte is what its frame held before. -/
lemma byteAt_of_rest (hrest : ph.filesz ≤ k) : ∃ frame,
    m.byteAt (first + k) = some (start.memory (frame + (first + k) % pageSize)) := by
  obtain ⟨frame, -, hbyte⟩ := byteAt_of_shows hgood hm hi hsegment hk
  have hnone : elf.imageBytes (range elf.header.phnum) (first + k) = none := by
    refine Elf.imageBytes_eq_none fun j hj first' ph' hsegment' hin => ?_
    have hj' := mem_range.mp hj
    have hsize' := hgood.sizes j hj' first' ph' hsegment'
    by_cases hij : i = j
    · subst hij
      cases hsegment.symm.trans hsegment'
      omega
    · exact hgood.disjoint i hi j hj' hij first ph first' ph' hsegment hsegment' (first + k)
        ⟨Nat.le_add_right _ _, by omega⟩ ⟨hin.1, by omega⟩
  rw [hnone] at hbyte
  exact ⟨frame, hbyte⟩

end

/-- A load that succeeds leaves the image of the module, whatever the frames held before, exactly
when no segment is longer in memory than in the file. -/
theorem load_image {data : List UInt8} {elf : Elf} {active space : AddressSpace}
    {hhdm kernelFunction activeTable : ℕ} {given frames : List ℕ} {memory : ℕ → UInt8}
    {loaded : LoadedElf} {m : Machine}
    (hcreated : createUserPageTable active hhdm kernelFunction activeTable given
      = .ok (space, frames))
    (hframes : DistinctFrames frames) (hparse : Elf.parse data = .ok (.ok elf))
    (hgood : elf.GoodSegments)
    (hdone : loadElf data { space, frames, memory } = .done loaded m) :
    (∀ before after result, loadElf data { space, frames, memory := before } = .done result after →
        ImageCorrect elf after)
      ↔ ∀ i < elf.header.phnum, ∀ first ph, elf.segment i = some (first, ph) →
          ph.filesz = ph.memsz := by
  have hshows : ∀ before after result,
      loadElf data { space, frames, memory := before } = .done result after →
      Shows { space, frames, memory := before } (elf.ImagePage (range elf.header.phnum))
        (elf.imageBytes (range elf.header.phnum)) after := by
    intro before after result h
    exact shows_of_done hframes (fun page hpage => unmapped_of_created hcreated hpage) hparse hgood
      h
  constructor
  · intro hcorrect i hi first ph hsegment
    by_contra hne
    have hlt : ph.filesz < ph.memsz := (hgood.sizes i hi first ph hsegment).lt_of_ne hne
    -- the same load with every byte of memory set
    obtain ⟨after, hafter, -⟩ := (SameTables.loadElf data).done
      (t := { space, frames, memory := fun _ => 1 }) ⟨fun _ => 1, rfl⟩ hdone
    have hzero := hcorrect _ after loaded hafter i hi first ph hsegment ph.filesz hlt
    obtain ⟨frame, hone⟩ := byteAt_of_rest hgood (hshows _ after loaded hafter) hi hsegment hlt
      le_rfl
    rw [if_neg (Nat.lt_irrefl _), hone] at hzero
    have hne : some (1 : UInt8) ≠ some 0 := by decide
    exact hne hzero
  · intro hsizes before after result h i hi first ph hsegment k hk
    have hfile : k < ph.filesz := hsizes i hi first ph hsegment ▸ hk
    rw [if_pos hfile]
    exact byteAt_of_file hgood (hshows before after result h) hi hsegment hk hfile

/-- A module with one loadable segment has nothing to overlap with. -/
lemma Elf.GoodSegments.of_one {first : ℕ} (hone : elf.header.phnum = 1)
    (hsegment : elf.segment 0 = some (first, ph))
    (huser : first < 2 ^ 47 ∧ first + ph.memsz ≤ 2 ^ 47) (hsize : ph.filesz ≤ ph.memsz)
    (hfile : ph.offset + ph.filesz ≤ elf.data.length) : elf.GoodSegments := by
  have honly : ∀ i < elf.header.phnum, ∀ first' ph', elf.segment i = some (first', ph') →
      first = first' ∧ ph = ph' := by
    intro i hi first' ph' h
    obtain rfl : i = 0 := by omega
    cases hsegment.symm.trans h
    exact ⟨rfl, rfl⟩
  refine ⟨fun i hi first' ph' h => ?_, fun i hi first' ph' h => ?_, fun i hi first' ph' h => ?_,
    fun i hi j hj hij => by omega⟩
  all_goals
    obtain ⟨rfl, rfl⟩ := honly i hi first' ph' h
  · exact huser
  · exact hsize
  · exact hfile

lemma distinct_freeFrames : DistinctFrames freeFrames.tail := ⟨by decide, by decide⟩

theorem load_image_oneByteModule :
    ∃ loaded m, loadElf (oneByteModule 0x400000)
        ⟨oneKernelPageUser, freeFrames.tail, fun _ => 0⟩ = .done loaded m
      ∧ ∀ before after result, loadElf (oneByteModule 0x400000)
          ⟨oneKernelPageUser, freeFrames.tail, before⟩ = .done result after →
          ImageCorrect ⟨oneByteModule 0x400000, ⟨2, 0, 64, 56, 1⟩⟩ after := by
  have hparse : Elf.parse (oneByteModule 0x400000)
      = .ok (.ok ⟨oneByteModule 0x400000, ⟨2, 0, 64, 56, 1⟩⟩) := by decide +kernel
  have hsegment : Elf.segment ⟨oneByteModule 0x400000, ⟨2, 0, 64, 56, 1⟩⟩ 0
      = some (0x400000, ⟨ptLoad, 4, 120, 0x400000, 1, 1⟩) := by decide +kernel
  have hgood := Elf.GoodSegments.of_one rfl hsegment (by decide) (by decide) (by decide +kernel)
  obtain ⟨loaded, hdone⟩ := Outcome.eq_done_of_isDone (o := loadElf (oneByteModule 0x400000)
    ⟨oneKernelPageUser, freeFrames.tail, fun _ => 0⟩) (by decide +kernel)
  refine ⟨loaded, _, hdone, ?_⟩
  refine (load_image created_oneKernelPage distinct_freeFrames hparse hgood hdone).mpr ?_
  intro i hi first ph h
  obtain rfl : i = 0 := Nat.lt_one_iff.mp hi
  cases hsegment.symm.trans h
  rfl

/-- A module with one segment of one byte that is not in the file. -/
def bssModule : List UInt8 := Elf.moduleOf 2 0 [⟨ptLoad, 6, 120, 0x400000, 0, 1⟩] []

/-- The byte is what the frame held before. -/
theorem bss_not_zeroed :
    Elf.parse bssModule = .ok (.ok ⟨bssModule, ⟨2, 0, 64, 56, 1⟩⟩)
      ∧ Elf.GoodSegments ⟨bssModule, ⟨2, 0, 64, 56, 1⟩⟩
      ∧ ∃ loaded m, loadElf bssModule ⟨oneKernelPageUser, freeFrames.tail, fun _ => 0xAA⟩
          = .done loaded m
        ∧ m.byteAt 0x400000 = some 0xAA
        ∧ ¬ ImageCorrect ⟨bssModule, ⟨2, 0, 64, 56, 1⟩⟩ m := by
  have hsegment : Elf.segment ⟨bssModule, ⟨2, 0, 64, 56, 1⟩⟩ 0
      = some (0x400000, ⟨ptLoad, 6, 120, 0x400000, 0, 1⟩) := by decide +kernel
  obtain ⟨loaded, hdone⟩ := Outcome.eq_done_of_isDone (o := loadElf bssModule
    ⟨oneKernelPageUser, freeFrames.tail, fun _ => 0xAA⟩) (by decide +kernel)
  have hbyte : (loadElf bssModule
      ⟨oneKernelPageUser, freeFrames.tail, fun _ => 0xAA⟩).state.byteAt 0x400000 = some 0xAA := by
    decide +kernel
  refine ⟨by decide +kernel, .of_one rfl hsegment (by decide) (by decide) (by decide +kernel),
    loaded, _, hdone, hbyte, fun hcorrect => ?_⟩
  have hzero := hcorrect 0 Nat.one_pos 0x400000 _ hsegment 0 Nat.one_pos
  rw [Nat.add_zero, hbyte] at hzero
  exact absurd hzero (by decide)

end ThingOS
