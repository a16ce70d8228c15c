import ThingOS.Common.Spans
import ThingOS.Common.Supply
import ThingOS.Kernel.Mm.AddressSpace

/-!
# The boot frame allocator

A translation of `BootFrameAllocator` in `kernel/src/mm/allocator.rs`, as built by default: without
`mm_advanced` and `debug_frame_sanity`, and in the `dev` profile, whose arithmetic panics on
overflow. The allocator keeps what is left of the usable regions at or above 16 MiB once two ranges
are cut out, the boot stack and a range found to collide with it, and hands out the aligned frames
in order. Masking with `!0xFFF` is rounding down to a multiple of the page size. Log output is left
out, with the record of the first eight frames, which only feeds it.
-/

namespace ThingOS

open Checked ThingOS.Span List

inductive BootPanic where
  | overflow
  | rspBelowHhdm
  | noUsableRanges
  | noGeneralFrames
  | physAddr (addr : ℕ)
  | unaligned (addr : ℕ)
  | stackRange (addr : ℕ)
  | forbiddenRange (addr : ℕ)
  | kernelImage (addr : ℕ)
  | activePml4 (addr : ℕ)

inductive MemoryKind where
  | usable
  | reserved
  | acpiReclaimable
  | acpiNvs
  | badMemory
  | bootloaderReclaimable
  | framebuffer
  | unknown
deriving DecidableEq

structure MemoryRegion where
  base : ℕ
  len : ℕ
  kind : MemoryKind

namespace MemoryRegion

def span (region : MemoryRegion) : Span := ⟨region.base, region.base + region.len⟩

end MemoryRegion

/-- What `prime_allocator_sanity` finds: where the kernel image lies, and the active level 4
table. -/
structure SanityBounds where
  kernelImage : Option Span
  cr3Frame : ℕ

def sanityForbiddenRange : Span := ⟨0x100000, 0x1000000⟩

/-- The range that is reserved because it was seen to collide with the stack of the first task. -/
def collisionRange : Span := ⟨0x37a5000, 0x5000000⟩

/-- `x & !0xFFF` -/
def maskPage (x : ℕ) : ℕ := x / pageSize * pageSize

/-- The number of values of a `PhysAddr`. -/
def physAddrSize : ℕ := 2 ^ 52

/-- The regions are kept in an array of 128. -/
def collectMemoryRegions (entries : List MemoryRegion) : List MemoryRegion := entries.take 128

/-- The 32 slots for ranges, filled from the front. -/
structure UsableRanges where
  list : List Span
  room : list.length ≤ 32

namespace UsableRanges

def empty : UsableRanges := ⟨[], by decide⟩

/-- The closure `add_range`: an empty range is not recorded, and neither is one too many. -/
def addRange (ranges : UsableRanges) (start stop : ℕ) : UsableRanges :=
  if start < stop then
    if h : ranges.list.length < 32 then
      ⟨ranges.list ++ [⟨start, stop⟩], by rw [length_append]; exact h⟩
    else ranges
  else ranges

/-- Record the parts of one region that lie in no hole. -/
def addRegion (holes : List Span) (ranges : UsableRanges) (region : MemoryRegion) :
    Except BootPanic UsableRanges :=
  if region.kind ≠ .usable then .ok ranges
  else do
    let start := max region.base sanityForbiddenRange.stop
    let stop ← add .overflow region.base region.len
    if start ≥ stop then return ranges
    else
      let (ranges, current) := holes.foldl (fun (ranges, current) hole =>
        (addRange ranges current (min stop hole.start), max current hole.stop)) (ranges, start)
      return addRange ranges current stop

end UsableRanges

/-- The boot stack: 128 KiB below the stack pointer and 4 KiB above it. -/
def bootStackRange (rsp hhdm : ℕ) : Except BootPanic Span := do
  let physRsp ← sub .rspBelowHhdm rsp hhdm
  let above ← add .overflow physRsp 0x1000
  let above ← add .overflow above 0xFFF
  return ⟨maskPage (physRsp - 0x20000), maskPage above⟩

def sortHoles (stack : Span) : List Span :=
  [stack, collisionRange].insertionSort fun h k => h.start ≤ k.start

structure BootFrameAllocator where
  usableRanges : UsableRanges
  currentRange : ℕ
  next : ℕ

namespace BootFrameAllocator

def new (entries : List MemoryRegion) (rsp hhdm : ℕ) : Except BootPanic BootFrameAllocator := do
  let stack ← bootStackRange rsp hhdm
  let ranges ← (collectMemoryRegions entries).foldlM (UsableRanges.addRegion (sortHoles stack))
    UsableRanges.empty
  match ranges.list with
  | [] => .error .noUsableRanges
  | first :: _ => return { usableRanges := ranges, currentRange := 0, next := first.start }

/-- The loop of `allocate_frame_internal`, with `left` ranges left to look at. -/
def allocateFrom : (left : ℕ) → BootFrameAllocator →
    Except BootPanic (Option ℕ × BootFrameAllocator)
  | 0, a => .ok (none, a)
  | left + 1, a =>
    match a.usableRanges.list[a.currentRange]? with
    | none => .ok (none, a)
    | some range => do
      let aligned := maskPage (← add .overflow a.next 0xFFF)
      let stop ← add .overflow aligned 0x1000
      if stop ≤ range.stop then return (some aligned, { a with next := stop })
      else
        let next := match a.usableRanges.list[a.currentRange + 1]? with
          | some range => range.start
          | none => a.next
        allocateFrom left { a with currentRange := a.currentRange + 1, next := next }

def allocateFrameInternal (a : BootFrameAllocator) :
    Except BootPanic (Option ℕ × BootFrameAllocator) :=
  a.allocateFrom (a.usableRanges.list.length - a.currentRange)

/-- Panics if the frame must not be handed out. The bounds are those known at the time of the
call. -/
def checkReservedRanges (bounds : Option SanityBounds) (value : ℕ) : Except BootPanic Unit := do
  require (.forbiddenRange value) (¬ sanityForbiddenRange.Contains value)
  match bounds with
  | none => return ()
  | some bounds => do
    match bounds.kernelImage with
    | none => pure ()
    | some range => require (.kernelImage value) (¬ range.Contains value)
    require (.activePml4 value) (value ≠ bounds.cr3Frame)

def allocateFrame (a : BootFrameAllocator) (bounds : Option SanityBounds) :
    Except BootPanic (Option ℕ × BootFrameAllocator) := do
  let (found, a) ← a.allocateFrameInternal
  match found with
  | none => return (none, a)
  | some addr => do
    require (.physAddr addr) (addr < physAddrSize)
    require (.stackRange addr) (¬ (0x37a5000 ≤ addr ∧ addr < 0x4000000))
    checkReservedRanges bounds addr
    return (if addr % pageSize = 0 then some addr else none, a)

/-- One allocation after the other, each with the bounds known by then. -/
def allocateFrames : BootFrameAllocator → List (Option SanityBounds) →
    Except BootPanic (List (Option ℕ) × BootFrameAllocator)
  | a, [] => .ok ([], a)
  | a, bounds :: rest => do
    let (frame, a) ← a.allocateFrame bounds
    let (frames, a) ← a.allocateFrames rest
    return (frame :: frames, a)

end BootFrameAllocator

/-! ## The recorded ranges -/

variable {holes : List Span} {region : MemoryRegion}

namespace UsableRanges

/-- What a region contributes: the parts at or above 16 MiB that lie in no hole. -/
def pieces (holes : List Span) (region : MemoryRegion) : List Span :=
  if region.kind = .usable
  then cut region.span.stop (max region.base sanityForbiddenRange.stop) holes else []

lemma take_take_append {α : Type*} (n : ℕ) (l m : List α) :
    (l.take n ++ m).take n = (l ++ m).take n := by
  rw [take_append, take_append, take_take, length_take, min_self]
  rcases Nat.le_total n l.length with h | h
  · rw [Nat.min_eq_left h, Nat.sub_self, Nat.sub_eq_zero_of_le h]
  · rw [Nat.min_eq_right h]

lemma list_addRange (ranges : UsableRanges) (start stop : ℕ) :
    (ranges.addRange start stop).list = (ranges.list ++ piece start stop).take 32 := by
  have hroom := ranges.room
  unfold addRange piece
  split
  · split
    case isTrue h => rw [take_of_length_le (by rw [length_append]; exact h)]
    case isFalse h => rw [take_append_of_le_length (by omega), take_of_length_le hroom]
  · rw [append_nil, take_of_length_le hroom]

/-- The loop over the holes records what they leave of the region, as far as there is room. -/
lemma list_addRange_foldl (stop : ℕ) (holes : List Span) (ranges : UsableRanges) (current : ℕ) :
    let last := holes.foldl (fun (acc : UsableRanges × ℕ) hole =>
      (acc.1.addRange acc.2 (min stop hole.start), max acc.2 hole.stop)) (ranges, current)
    (last.1.addRange last.2 stop).list = (ranges.list ++ cut stop current holes).take 32 := by
  induction holes generalizing ranges current with
  | nil => exact list_addRange ranges current stop
  | cons hole holes ih =>
    refine (ih (ranges.addRange current (min stop hole.start)) (max current hole.stop)).trans ?_
    rw [list_addRange, take_take_append, append_assoc]
    rfl

lemma list_addRegion {ranges last : UsableRanges} (h : addRegion holes ranges region = .ok last) :
    last.list = (ranges.list ++ pieces holes region).take 32 := by
  have hroom := ranges.room
  unfold addRegion at h
  unfold pieces
  split at h
  case isTrue hkind =>
    cases h
    rw [if_neg hkind, append_nil, take_of_length_le hroom]
  case isFalse hkind =>
    obtain ⟨stop, hstop, h⟩ := bind_eq_ok.mp h
    obtain ⟨-, rfl⟩ := add_eq_ok.mp hstop
    rw [if_pos (not_not.mp hkind)]
    split at h
    case isTrue hempty =>
      cases h
      have hcut : cut region.span.stop (max region.base sanityForbiddenRange.stop) holes
          = [] := by
        refine eq_nil_iff_forall_not_mem.mpr fun r hr => ?_
        obtain ⟨hstart, hlt, hstop⟩ := of_mem_cut hr
        exact absurd (hstart.trans_lt (hlt.trans_le hstop)) (Nat.not_lt.mpr hempty)
      rw [hcut, append_nil, take_of_length_le hroom]
    case isFalse =>
      cases h
      exact list_addRange_foldl _ holes ranges _

lemma list_foldlM_addRegion {regions : List MemoryRegion}
    {ranges last : UsableRanges} (h : regions.foldlM (addRegion holes) ranges = .ok last) :
    last.list = (ranges.list ++ regions.flatMap (pieces holes)).take 32 := by
  induction regions generalizing ranges with
  | nil =>
    cases h
    rw [flatMap_nil, append_nil, take_of_length_le last.room]
  | cons region regions ih =>
    obtain ⟨middle, hmiddle, h⟩ := bind_eq_ok.mp h
    rw [ih h, list_addRegion hmiddle, take_take_append, flatMap_cons, append_assoc]

end UsableRanges

lemma sorted_sortHoles (stack : Span) : Span.Sorted (sortHoles stack) :=
  pairwise_insertionSort (fun h k : Span => h.start ≤ k.start) _

variable {stack : Span}

@[simp] lemma mem_sortHoles {hole : Span} :
    hole ∈ sortHoles stack ↔ hole = stack ∨ hole = collisionRange := by
  rw [sortHoles, mem_insertionSort, mem_pair]

lemma maskPage_mono {x y : ℕ} (h : x ≤ y) : maskPage x ≤ maskPage y :=
  Nat.mul_le_mul_right _ (Nat.div_le_div_right h)

lemma bootStackRange_start_le {rsp hhdm : ℕ}
    (h : bootStackRange rsp hhdm = .ok stack) : stack.start ≤ stack.stop := by
  obtain ⟨physRsp, -, h⟩ := bind_eq_ok.mp h
  obtain ⟨above, habove, h⟩ := bind_eq_ok.mp h
  obtain ⟨-, rfl⟩ := add_eq_ok.mp habove
  obtain ⟨above, habove, h⟩ := bind_eq_ok.mp h
  obtain ⟨-, rfl⟩ := add_eq_ok.mp habove
  cases h
  exact maskPage_mono (by omega)

/-- Adding `0xFFF` before the mask rounds up. -/
lemma maskPage_add (x : ℕ) : maskPage (x + 0xFFF) = alignUp pageSize x := rfl

variable {limit : ℕ} {bounds : Option SanityBounds}

namespace BootFrameAllocator

variable {entries : List MemoryRegion} {rsp hhdm : ℕ} {a b : BootFrameAllocator} {f : ℕ}

/-- The usable regions are apart from one another. -/
def DisjointUsable (entries : List MemoryRegion) : Prop :=
  (entries.filter fun region => region.kind = .usable).Pairwise fun r s => r.span.Apart s.span

/-- No usable region touches the kernel image or holds the active page table. -/
def Excludes (entries : List MemoryRegion) (bounds : SanityBounds) : Prop :=
  ∀ region ∈ entries, region.kind = .usable →
    (∀ image ∈ bounds.kernelImage, region.span.Apart image)
      ∧ ¬ region.span.Contains bounds.cr3Frame

def Physical (entries : List MemoryRegion) : Prop :=
  ∀ region ∈ entries, region.kind = .usable → region.span.stop ≤ physAddrSize

def frames (a : BootFrameAllocator) : List ℕ :=
  a.usableRanges.list.flatMap (blocks pageSize)

/-- A new allocator has recorded the first 32 pieces and stands at the start of the first one. -/
lemma of_new (h : new entries rsp hhdm = .ok a) : ∃ stack,
    bootStackRange rsp hhdm = .ok stack
      ∧ a.usableRanges.list = ((collectMemoryRegions entries).flatMap
          (UsableRanges.pieces (sortHoles stack))).take 32
      ∧ a.currentRange = 0
      ∧ ∃ first rest, a.usableRanges.list = first :: rest ∧ a.next = first.start := by
  obtain ⟨stack, hstack, h⟩ := bind_eq_ok.mp h
  obtain ⟨ranges, hranges, h⟩ := bind_eq_ok.mp h
  have hlist := UsableRanges.list_foldlM_addRegion hranges
  split at h
  case h_1 => cases h
  case h_2 first rest hfirst =>
    cases h
    exact ⟨stack, hstack, hlist, rfl, first, rest, hfirst, rfl⟩

lemma of_mem_usableRanges {r : Span}
    (hlist : a.usableRanges.list = ((collectMemoryRegions entries).flatMap
      (UsableRanges.pieces (sortHoles stack))).take 32) (hr : r ∈ a.usableRanges.list) :
    ∃ region ∈ entries, region.kind = .usable
      ∧ r ∈ cut region.span.stop (max region.base sanityForbiddenRange.stop)
          (sortHoles stack) := by
  rw [hlist] at hr
  obtain ⟨region, hregion, hr⟩ := mem_flatMap.mp (mem_of_mem_take hr)
  unfold UsableRanges.pieces at hr
  split at hr
  case isTrue hkind => exact ⟨region, mem_of_mem_take hregion, hkind, hr⟩
  case isFalse => exact absurd hr not_mem_nil

lemma contains_of_mem_cut {r : Span} {x : ℕ}
    (hr : r ∈ cut region.span.stop (max region.base sanityForbiddenRange.stop) holes)
    (hx : r.Contains x) : region.span.Contains x := by
  obtain ⟨hstart, -, hstop⟩ := of_mem_cut hr
  exact ⟨(le_max_left _ _).trans (hstart.trans hx.1), hx.2.trans_le hstop⟩

/-- The recorded ranges are apart: pieces of one region by the cutting, pieces of different regions
because the regions are. -/
lemma pairwise_apart_usableRanges (hdisjoint : DisjointUsable entries)
    (hstack : stack.start ≤ stack.stop)
    (hlist : a.usableRanges.list = ((collectMemoryRegions entries).flatMap
      (UsableRanges.pieces (sortHoles stack))).take 32) :
    a.usableRanges.list.Pairwise Span.Apart := by
  have hholes : ∀ hole ∈ sortHoles stack, hole.start ≤ hole.stop := by
    intro hole hmem
    rcases mem_sortHoles.mp hmem with rfl | rfl
    · exact hstack
    · decide
  have hregions : (collectMemoryRegions entries).Pairwise fun r s =>
      r.kind = .usable → s.kind = .usable → r.span.Apart s.span := by
    have h := pairwise_filter.mp hdisjoint
    simp only [decide_eq_true_eq] at h
    exact h.sublist (take_sublist _ _)
  rw [hlist]
  refine List.Pairwise.sublist (take_sublist _ _) (pairwise_flatMap.mpr ⟨?_, ?_⟩)
  · rintro region -
    unfold UsableRanges.pieces
    split
    · exact pairwise_apart_cut hholes
    · exact List.Pairwise.nil
  · refine hregions.imp ?_
    intro r s hapart p hp q hq x hxp hxq
    unfold UsableRanges.pieces at hp hq
    split at hp
    case isFalse => exact absurd hp not_mem_nil
    case isTrue hr =>
      split at hq
      case isFalse => exact absurd hq not_mem_nil
      case isTrue hs =>
        exact hapart hr hs x (contains_of_mem_cut hp hxp) (contains_of_mem_cut hq hxq)

lemma mem_frames : f ∈ a.frames ↔
    ∃ r ∈ a.usableRanges.list, pageSize ∣ f ∧ r.start ≤ f ∧ f + pageSize ≤ r.stop := by
  simp only [frames, mem_flatMap, mem_blocks pageSize_pos]

lemma nodup_frames (hapart : a.usableRanges.list.Pairwise Span.Apart) : a.frames.Nodup := by
  refine nodup_flatMap.mpr ⟨fun r _ => ?_, hapart.imp ?_⟩
  · exact (pairwise_lt_blocks pageSize_pos r).imp Nat.ne_of_lt
  · intro r s hrs f hr hs
    obtain ⟨-, hrstart, hrstop⟩ := (mem_blocks pageSize_pos).mp hr
    obtain ⟨-, hsstart, hsstop⟩ := (mem_blocks pageSize_pos).mp hs
    have hpos := pageSize_pos
    exact hrs f ⟨hrstart, by omega⟩ ⟨hsstart, by omega⟩

/-- A frame that may be handed out: it lies in one usable region, and no byte of it in a hole. -/
structure Sound (entries : List MemoryRegion) (stack : Span) (f : ℕ) : Prop where
  aligned : pageSize ∣ f
  high : sanityForbiddenRange.stop ≤ f
  usable : ∃ region ∈ entries, region.kind = .usable
    ∧ region.base ≤ f ∧ f + pageSize ≤ region.base + region.len
  outside : ∀ x, f ≤ x → x < f + pageSize → ¬ stack.Contains x ∧ ¬ collisionRange.Contains x

lemma sound_of_mem_frames (hlist : a.usableRanges.list = ((collectMemoryRegions entries).flatMap
      (UsableRanges.pieces (sortHoles stack))).take 32) (hf : f ∈ a.frames) :
    Sound entries stack f := by
  obtain ⟨r, hr, hdvd, hstart, hstop⟩ := mem_frames.mp hf
  obtain ⟨region, hregion, hkind, hcut⟩ := of_mem_usableRanges hlist hr
  obtain ⟨hlow, -, hhigh⟩ := of_mem_cut hcut
  refine ⟨hdvd, ?_, ⟨region, hregion, hkind, ?_, hstop.trans hhigh⟩, ?_⟩
  · exact (le_max_right _ _).trans (hlow.trans hstart)
  · exact (le_max_left _ _).trans (hlow.trans hstart)
  · intro x hfx hxf
    have hx : r.Contains x := ⟨hstart.trans hfx, hxf.trans_le hstop⟩
    have hholes := cut_sound (sorted_sortHoles stack) hcut hx
    exact ⟨hholes stack (mem_sortHoles.mpr (.inl rfl)),
      hholes collisionRange (mem_sortHoles.mpr (.inr rfl))⟩

/-! ## Successive allocations -/

/-- The frames still to be handed out: what the current range holds from `next` on, then the later
ranges. -/
def remaining (a : BootFrameAllocator) : List ℕ :=
  match a.usableRanges.list.drop a.currentRange with
  | [] => []
  | range :: rest =>
    blocks pageSize ⟨a.next, range.stop⟩ ++ rest.flatMap (blocks pageSize)

/-- Everything recorded ends at or below the limit. -/
structure Within (limit : ℕ) (a : BootFrameAllocator) : Prop where
  next : a.next ≤ limit
  ranges : ∀ r ∈ a.usableRanges.list, r.start ≤ r.stop ∧ r.stop ≤ limit

/-- Where a range begins, everything it holds is still to be handed out. -/
lemma remaining_of_next (h : ∀ range, a.usableRanges.list[a.currentRange]? = some range →
    a.next = range.start) :
    a.remaining = (a.usableRanges.list.drop a.currentRange).flatMap (blocks pageSize) := by
  unfold remaining
  split
  case h_1 hdrop => rw [hdrop, flatMap_nil]
  case h_2 range rest hdrop =>
    have hrange : a.usableRanges.list[a.currentRange]? = some range := by
      rw [← head?_drop, hdrop, head?_cons]
    rw [hdrop, flatMap_cons, h range hrange]

lemma remaining_eq_cons {range : Span}
    (hrange : a.usableRanges.list[a.currentRange]? = some range) :
    a.remaining = blocks pageSize ⟨a.next, range.stop⟩
      ++ (a.usableRanges.list.drop (a.currentRange + 1)).flatMap (blocks pageSize) := by
  obtain ⟨hlt, rfl⟩ := List.getElem?_eq_some_iff.mp hrange
  rw [remaining, List.drop_eq_getElem_cons hlt]

def nextRange (a : BootFrameAllocator) : BootFrameAllocator :=
  { a with
      currentRange := a.currentRange + 1
      next := match a.usableRanges.list[a.currentRange + 1]? with
        | some range => range.start
        | none => a.next }

lemma remaining_nextRange (a : BootFrameAllocator) :
    a.nextRange.remaining
      = (a.usableRanges.list.drop (a.currentRange + 1)).flatMap (blocks pageSize) := by
  refine remaining_of_next fun range hrange => ?_
  have h : a.usableRanges.list[a.currentRange + 1]? = some range := hrange
  simp only [nextRange, h]

lemma Within.nextRange (h : a.Within limit) : a.nextRange.Within limit := by
  refine ⟨?_, h.ranges⟩
  unfold BootFrameAllocator.nextRange
  split
  case h_1 range hrange =>
    obtain ⟨hstart, hstop⟩ := h.ranges range (mem_of_getElem? hrange)
    exact hstart.trans hstop
  case h_2 => exact h.next

/-- The highest address at which the allocator can look for a frame: the last page but one of the
64-bit address space. -/
def searchLimit : ℕ := u64Size - 2 * pageSize

/-- Rounding up the next address overflows only in the last two pages. -/
lemma Within.fits (h : a.Within searchLimit) :
    a.next + 0xFFF < u64Size ∧ alignUp pageSize a.next + pageSize < u64Size := by
  have hnext := h.next
  have halign : alignUp pageSize a.next ≤ searchLimit :=
    alignUp_le pageSize_pos (by decide) hnext
  simp only [searchLimit, u64Size, pageSize] at hnext halign ⊢
  omega

/-- One turn of the loop: the frame at `next` rounded up if the range has room for it, and the next
range otherwise. -/
lemma allocateFrom_succ {left : ℕ} {range : Span}
    (hrange : a.usableRanges.list[a.currentRange]? = some range) :
    allocateFrom (left + 1) a
      = if a.next + 0xFFF < u64Size ∧ alignUp pageSize a.next + pageSize < u64Size then
          if alignUp pageSize a.next + pageSize ≤ range.stop then
            .ok (some (alignUp pageSize a.next),
              { a with next := alignUp pageSize a.next + pageSize })
          else allocateFrom left a.nextRange
        else .error .overflow := by
  rw [allocateFrom, hrange, ← maskPage_add]
  simp only [add]
  by_cases hnext : a.next + 0xFFF < u64Size
  case neg => rw [if_neg hnext, if_neg fun h => hnext h.1, error_bind]
  rw [if_pos hnext, ok_bind]
  by_cases hstop : maskPage (a.next + 0xFFF) + pageSize < u64Size
  case neg => rw [← pageSize, if_neg hstop, if_neg fun h => hstop h.2, error_bind]
  rw [← pageSize, if_pos hstop, if_pos ⟨hnext, hstop⟩, ok_bind]
  rfl

/-- The search returns the first frame that is left, and only an overflow can stop it. -/
lemma allocateFrom_spec (limit : ℕ) {left : ℕ}
    (hleft : a.usableRanges.list.length - a.currentRange ≤ left) :
    (∃ b, allocateFrom left a = .ok (a.remaining.head?, b) ∧ b.remaining = a.remaining.tail
        ∧ (a.Within limit → b.Within limit))
      ∨ allocateFrom left a = .error .overflow ∧ ¬ a.Within searchLimit := by
  induction left generalizing a with
  | zero =>
    have hdrop : a.usableRanges.list.drop a.currentRange = [] :=
      drop_eq_nil_of_le (Nat.le_of_sub_eq_zero (Nat.le_zero.mp hleft))
    have hremaining : a.remaining = [] := by rw [remaining, hdrop]
    rw [hremaining]
    exact .inl ⟨a, rfl, hremaining, id⟩
  | succ left ih =>
    cases hrange : a.usableRanges.list[a.currentRange]? with
    | none =>
      have hdrop := drop_eq_nil_of_le (getElem?_eq_none_iff.mp hrange)
      have hremaining : a.remaining = [] := by rw [remaining, hdrop]
      rw [hremaining, allocateFrom, hrange]
      exact .inl ⟨a, rfl, hremaining, id⟩
    | some range =>
      rw [remaining_eq_cons hrange, blocks_eq pageSize_pos, allocateFrom_succ hrange]
      dsimp only
      split
      case isFalse hfits => exact .inr ⟨rfl, fun hwithin => hfits hwithin.fits⟩
      by_cases hroom : alignUp pageSize a.next + pageSize ≤ range.stop
      case pos =>
        rw [if_pos hroom, if_pos hroom, cons_append, head?_cons, tail_cons]
        refine .inl ⟨_, rfl, remaining_eq_cons hrange, fun hwithin => ?_⟩
        exact ⟨hroom.trans (hwithin.ranges range (mem_of_getElem? hrange)).2, hwithin.ranges⟩
      case neg =>
        rw [if_neg hroom, if_neg hroom, nil_append, ← remaining_nextRange]
        have hleft' : a.nextRange.usableRanges.list.length - a.nextRange.currentRange ≤ left := by
          show a.usableRanges.list.length - (a.currentRange + 1) ≤ left
          omega
        rcases ih hleft' with ⟨b, hb, hremaining, hwithin⟩ | ⟨hb, hwithin⟩
        · exact .inl ⟨b, hb, hremaining, fun h => hwithin h.nextRange⟩
        · exact .inr ⟨hb, fun h => hwithin h.nextRange⟩

lemma dvd_of_mem_remaining (hf : f ∈ a.remaining) : pageSize ∣ f := by
  unfold remaining at hf
  split at hf
  case h_1 => exact absurd hf not_mem_nil
  case h_2 range rest hdrop =>
    rcases mem_append.mp hf with hf | hf
    · exact ((mem_blocks pageSize_pos).mp hf).1
    · obtain ⟨r, -, hf⟩ := mem_flatMap.mp hf
      exact ((mem_blocks pageSize_pos).mp hf).1

/-- What `allocate_frame` does with the frame it has found. -/
def checkFrame (bounds : Option SanityBounds) (addr : ℕ) : Except BootPanic Unit := do
  require (.physAddr addr) (addr < physAddrSize)
  require (.stackRange addr) (¬ (0x37a5000 ≤ addr ∧ addr < 0x4000000))
  checkReservedRanges bounds addr

/-- An allocation returns the first frame that is left. It is stopped by an overflow or by one of
the checks on this frame. -/
lemma allocateFrame_spec (limit : ℕ) (bounds : Option SanityBounds) (a : BootFrameAllocator) :
    (∃ b, a.allocateFrame bounds = .ok (a.remaining.head?, b) ∧ b.remaining = a.remaining.tail
        ∧ (a.Within limit → b.Within limit)
        ∧ a.allocateFrameInternal = .ok (a.remaining.head?, b)
        ∧ ∀ f ∈ a.remaining.head?, checkFrame bounds f = .ok ())
      ∨ (a.allocateFrame bounds = .error .overflow ∧ ¬ a.Within searchLimit)
      ∨ ∃ f ∈ a.remaining, ∃ p, checkFrame bounds f = .error p
        ∧ a.allocateFrame bounds = .error p := by
  have hspec : (∃ b, a.allocateFrameInternal = .ok (a.remaining.head?, b)
      ∧ b.remaining = a.remaining.tail ∧ (a.Within limit → b.Within limit))
      ∨ a.allocateFrameInternal = .error .overflow ∧ ¬ a.Within searchLimit :=
    allocateFrom_spec _ le_rfl
  unfold allocateFrame
  rcases hspec with ⟨b, hb, hremaining, hwithin⟩ | ⟨hb, hwithin⟩
  case inr =>
    rw [hb]
    exact .inr (.inl ⟨rfl, hwithin⟩)
  rw [hb, ok_bind]
  cases hhead : a.remaining.head? with
  | none => exact .inl ⟨b, rfl, hremaining, hwithin, rfl, nofun⟩
  | some f =>
    have hmem := mem_of_head? hhead
    have haligned := Nat.mod_eq_zero_of_dvd (dvd_of_mem_remaining hmem)
    dsimp only
    rw [if_pos haligned]
    -- the three checks and the return are a check followed by the return
    have heq : (do
        require (BootPanic.physAddr f) (f < physAddrSize)
        require (.stackRange f) (¬ (0x37a5000 ≤ f ∧ f < 0x4000000))
        checkReservedRanges bounds f
        return (some f, b)) = checkFrame bounds f >>= fun _ => .ok (some f, b) := by
      unfold checkFrame
      simp only [bind_assoc]
      rfl
    rw [heq]
    cases hcheck : checkFrame bounds f with
    | ok => exact .inl ⟨b, rfl, hremaining, hwithin, rfl, fun g hg => Option.some.inj hg ▸ hcheck⟩
    | error p => exact .inr (.inr ⟨f, hmem, p, hcheck, rfl⟩)

/-- None of the checks fails for a frame of a usable region outside the forbidden window. -/
lemma checkReservedRanges_of_usable
    (hexcludes : ∀ known ∈ bounds, Excludes entries known) (hregion : region ∈ entries)
    (hkind : region.kind = .usable) (hin : region.span.Contains f)
    (hwindow : ¬ sanityForbiddenRange.Contains f) : checkReservedRanges bounds f = .ok () := by
  unfold checkReservedRanges
  rw [require_of _ hwindow, ok_bind]
  cases bounds with
  | none => rfl
  | some known =>
    obtain ⟨himage, hcr3⟩ := hexcludes known rfl region hregion hkind
    have hne : f ≠ known.cr3Frame := by
      rintro rfl
      exact hcr3 hin
    dsimp only
    cases hknown : known.kernelImage with
    | none => exact require_of _ hne
    | some image =>
      dsimp only
      rw [require_of _ (himage image hknown f hin), ok_bind]
      exact require_of _ hne

/-- None of them fails for a sound frame. -/
lemma checkReservedRanges_of_sound
    (hexcludes : ∀ known ∈ bounds, Excludes entries known) (hf : Sound entries stack f) :
    checkReservedRanges bounds f = .ok () := by
  obtain ⟨region, hregion, hkind, hstart, hstop⟩ := hf.usable
  exact checkReservedRanges_of_usable hexcludes hregion hkind
    ⟨hstart, (Nat.lt_add_of_pos_right pageSize_pos).trans_le hstop⟩
    fun h => Nat.not_lt.mpr hf.high h.2

/-- Nor does it lie in the part of the reserved range that `allocate_frame` looks at. -/
lemma Sound.not_stackRange (hf : Sound entries stack f) :
    ¬ (0x37a5000 ≤ f ∧ f < 0x4000000) := by
  rintro ⟨hlow, hhigh⟩
  refine (hf.outside f le_rfl (Nat.lt_add_of_pos_right pageSize_pos)).2 ⟨hlow, ?_⟩
  exact hhigh.trans (by decide)

lemma checkFrame_of_sound
    (hexcludes : ∀ known ∈ bounds, Excludes entries known) (hf : Sound entries stack f) :
    checkFrame bounds f = if f < physAddrSize then .ok () else .error (.physAddr f) := by
  unfold checkFrame
  rw [require_of _ hf.not_stackRange, ok_bind,
    checkReservedRanges_of_sound hexcludes hf]
  unfold require
  split <;> rfl

lemma allocateFrames_eq_calls (a : BootFrameAllocator) (bounds : List (Option SanityBounds)) :
    a.allocateFrames bounds = Supply.calls (fun now a => allocateFrame a now) bounds a := by
  induction bounds generalizing a with
  | nil => rfl
  | cons now bounds ih => simp only [allocateFrames, Supply.calls, ih]

lemma Within.mono {limit' : ℕ} (h : a.Within limit) (hle : limit ≤ limit') :
    a.Within limit' :=
  ⟨h.next.trans hle, fun r hr => ⟨(h.ranges r hr).1, (h.ranges r hr).2.trans hle⟩⟩

lemma Within.lt_of_mem_remaining (h : a.Within limit) (hf : f ∈ a.remaining) :
    f < limit := by
  have hblock : ∀ r : Span, r.stop ≤ limit → f ∈ r.blocks pageSize → f < limit := by
    intro r hr hmem
    have hstop := ((mem_blocks pageSize_pos).mp hmem).2.2
    exact (Nat.lt_add_of_pos_right pageSize_pos).trans_le (hstop.trans hr)
  unfold remaining at hf
  split at hf
  case h_1 => exact absurd hf not_mem_nil
  case h_2 range rest hdrop =>
    have hranges : ∀ r ∈ range :: rest, r.stop ≤ limit := by
      intro r hr
      rw [← hdrop] at hr
      exact (h.ranges r (mem_of_mem_drop hr)).2
    rcases mem_append.mp hf with hf | hf
    · exact hblock ⟨a.next, range.stop⟩ (hranges range mem_cons_self) hf
    · obtain ⟨r, hr, hf⟩ := mem_flatMap.mp hf
      exact hblock r (hranges r (mem_cons_of_mem _ hr)) hf

/-- What an allocation may stop with: an overflow, or a frame beyond the physical address space. -/
def Beyond (a : BootFrameAllocator) (p : BootPanic) : Prop :=
  ¬ a.Within physAddrSize ∧ (p = .overflow ∨ ∃ f ∈ a.remaining, physAddrSize ≤ f ∧ p = .physAddr f)

/-- Successive allocations return the frames that are left in order and then nothing, unless they
stop beyond the physical address space. -/
lemma allocateFrames_spec {bounds : List (Option SanityBounds)}
    (hexcludes : ∀ now ∈ bounds, ∀ known ∈ now, Excludes entries known)
    (hsound : ∀ f ∈ a.remaining, Sound entries stack f) :
    (∃ b, a.allocateFrames bounds
        = .ok ((List.range bounds.length).map fun i => a.remaining[i]?, b))
      ∨ ∃ p, a.allocateFrames bounds = .error p ∧ a.Beyond p := by
  rw [allocateFrames_eq_calls]
  suffices hnext : _ from
    (Supply.calls_spec remaining (fun now => ∀ known ∈ now, Excludes entries known)
      (fun b => b.remaining ⊆ a.remaining ∧ (a.Within physAddrSize → b.Within physAddrSize))
      a.Beyond hnext bounds hexcludes ⟨List.Subset.refl _, id⟩).imp
        (fun ⟨b, hb, _⟩ => ⟨b, hb⟩) id
  rintro now b hnow ⟨hsub, hwithin⟩
  rcases allocateFrame_spec physAddrSize now b
    with ⟨c, hc, hremaining, hnext, -⟩ | ⟨hb, hlimit⟩ | ⟨f, hf, p, hp, hb⟩
  · exact .inl ⟨c, hc, hremaining, fun f hf => hsub (mem_of_mem_tail (hremaining ▸ hf)),
      hnext ∘ hwithin⟩
  · exact .inr ⟨_, hb, fun h => hlimit ((hwithin h).mono (by decide)), .inl rfl⟩
  · rw [checkFrame_of_sound hnow (hsound f (hsub hf))] at hp
    split at hp
    case isTrue => cases hp
    case isFalse hlt =>
      cases hp
      exact .inr ⟨_, hb, fun h => hlt ((hwithin h).lt_of_mem_remaining hf),
        .inr ⟨f, hsub hf, Nat.not_lt.mp hlt, rfl⟩⟩

lemma remaining_of_start {first : Span} {rest : List Span} (hcurrent : a.currentRange = 0)
    (hfirst : a.usableRanges.list = first :: rest) (hnext : a.next = first.start) :
    a.remaining = a.frames := by
  rw [remaining_of_next, hcurrent, drop_zero, frames]
  intro range hrange
  rw [hcurrent, hfirst, getElem?_cons_zero, Option.some.injEq] at hrange
  rw [hnext, hrange]

lemma remaining_of_new (h : new entries rsp hhdm = .ok a) : a.remaining = a.frames := by
  obtain ⟨-, -, -, hcurrent, first, rest, hfirst, hnext⟩ := of_new h
  exact remaining_of_start hcurrent hfirst hnext

lemma within_of_new (hphysical : Physical entries) (h : new entries rsp hhdm = .ok a) :
    a.Within physAddrSize := by
  obtain ⟨stack, -, hlist, -, first, rest, hfirst, hnext⟩ := of_new h
  have hranges : ∀ r ∈ a.usableRanges.list, r.start ≤ r.stop ∧ r.stop ≤ physAddrSize := by
    intro r hr
    obtain ⟨region, hregion, hkind, hcut⟩ := of_mem_usableRanges hlist hr
    obtain ⟨-, hlt, hstop⟩ := of_mem_cut hcut
    exact ⟨hlt.le, hstop.trans (hphysical region hregion hkind)⟩
  obtain ⟨hstart, hstop⟩ := hranges first (hfirst ▸ mem_cons_self)
  exact ⟨hnext ▸ hstart.trans hstop, hranges⟩

/-- The frames of the recorded ranges are distinct, aligned, within usable regions at or above 16
MiB and outside both reserved ranges; they are handed out in order, each once, and then nothing is.
Only a region beyond the physical address space can stop an allocation. -/
theorem boot_frames (hdisjoint : DisjointUsable entries) (hnew : new entries rsp hhdm = .ok a) :
    ∃ stack, bootStackRange rsp hhdm = .ok stack
      ∧ a.usableRanges.list.length ≤ 32
      ∧ a.frames.Nodup
      ∧ (∀ f, f ∈ a.frames ↔ ∃ r ∈ a.usableRanges.list,
          pageSize ∣ f ∧ r.start ≤ f ∧ f + pageSize ≤ r.stop)
      ∧ (∀ f ∈ a.frames, Sound entries stack f)
      ∧ ∀ bounds : List (Option SanityBounds),
          (∀ now ∈ bounds, ∀ known ∈ now, Excludes entries known) →
          ((∃ b, a.allocateFrames bounds
                = .ok ((List.range bounds.length).map fun i => a.frames[i]?, b))
              ∨ a.allocateFrames bounds = .error .overflow
              ∨ ∃ f ∈ a.frames, physAddrSize ≤ f
                  ∧ a.allocateFrames bounds = .error (.physAddr f))
            ∧ (Physical entries → ∃ b, a.allocateFrames bounds
                = .ok ((List.range bounds.length).map fun i => a.frames[i]?, b)) := by
  obtain ⟨stack, hstack, hlist, -⟩ := of_new hnew
  have hapart := pairwise_apart_usableRanges hdisjoint (bootStackRange_start_le hstack) hlist
  refine ⟨stack, hstack, a.usableRanges.room, nodup_frames hapart, fun f => mem_frames,
    fun f => sound_of_mem_frames hlist, fun bounds hexcludes => ?_⟩
  have hsound : ∀ f ∈ a.remaining, Sound entries stack f := by
    intro f hf
    rw [remaining_of_new hnew] at hf
    exact sound_of_mem_frames hlist hf
  have hspec := allocateFrames_spec hexcludes hsound
  simp only [remaining_of_new hnew, Beyond] at hspec
  rcases hspec with hb | ⟨p, hp, hwithin, hbeyond⟩
  · exact ⟨.inl hb, fun _ => hb⟩
  · grind [within_of_new]

/-- A memory map whose usable regions straddle the 16 MiB line and the end of the reserved range. -/
def smallMachine : List MemoryRegion :=
  [⟨0xF00000, 0x101800, .usable⟩, ⟨0x1002000, 0x1000, .reserved⟩, ⟨0x4FFF000, 0x3000, .usable⟩]

lemma disjoint_smallMachine : DisjointUsable smallMachine := by
  refine pairwise_cons.mpr ⟨?_, pairwise_singleton _ _⟩
  intro region hregion
  obtain rfl := mem_singleton.mp hregion
  exact apart_of_le (by decide)

/-- With a boot stack that ends a page above the reserved range, two frames are left. -/
theorem boot_frames_smallMachine :
    ∃ a, new smallMachine 0xFFFF800004FFF800 0xFFFF800000000000 = .ok a
      ∧ a.frames = [0x1000000, 0x5001000] ∧ a.frames.Nodup
      ∧ ∃ b, a.allocateFrames [none, some ⟨some ⟨0x200000, 0x400000⟩, 0x6000000⟩, none, none]
          = .ok ([some 0x1000000, some 0x5001000, none, none], b) := by
  let a : BootFrameAllocator :=
    ⟨⟨[⟨0x1000000, 0x1001800⟩, ⟨0x5001000, 0x5002000⟩], by decide⟩, 0, 0x1000000⟩
  have hnew : new smallMachine 0xFFFF800004FFF800 0xFFFF800000000000 = .ok a := by rfl
  have hframes : a.frames = [0x1000000, 0x5001000] := by rfl
  have hexcludes : Excludes smallMachine ⟨some ⟨0x200000, 0x400000⟩, 0x6000000⟩ := by
    intro region hregion _
    fin_cases hregion <;>
      refine ⟨fun image himage => ?_, by decide⟩ <;>
      obtain rfl := Option.mem_some_iff.mp himage <;>
      exact apart_of_ge (by decide)
  have hphysical : Physical smallMachine := by unfold Physical; decide
  obtain ⟨stack, -, -, hnodup, -, -, hbounds⟩ := boot_frames disjoint_smallMachine hnew
  refine ⟨a, hnew, hframes, hnodup, ?_⟩
  obtain ⟨-, hok⟩ := hbounds [none, some ⟨some ⟨0x200000, 0x400000⟩, 0x6000000⟩, none, none]
    (by simpa using hexcludes)
  rw [hframes] at hok
  exact hok hphysical

/-- A region beyond the 52 bits of a physical address is recorded like any other, and its first
frame stops the allocator. -/
theorem frame_beyond_physAddr :
    DisjointUsable [⟨2 ^ 52, 0x1000, .usable⟩]
      ∧ ∃ a, new [⟨2 ^ 52, 0x1000, .usable⟩] 0xFFFF800002000000 0xFFFF800000000000 = .ok a
        ∧ a.frames = [2 ^ 52] ∧ a.allocateFrames [none] = .error (.physAddr (2 ^ 52)) := by
  refine ⟨pairwise_singleton _ _, ⟨⟨[⟨2 ^ 52, 2 ^ 52 + 0x1000⟩], by decide⟩, 0, 2 ^ 52⟩, ?_⟩
  exact ⟨rfl, rfl, rfl⟩

end BootFrameAllocator

end ThingOS
