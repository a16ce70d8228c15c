import ThingOS.Kernel.Mm.FrameAllocator

/-!
# Memory pools

A translation of `kernel/src/mm/pools.rs` and of the constructor that `BootFrameAllocator` has with
the feature `mm_advanced`. The pool manager carves the frames for page tables and kernel stacks out
of the largest usable region and leaves the rest, and every other region above the first megabyte,
for general use. One allocator hands out the frames for page tables, the other is the boot frame
allocator over the general pools.

The only sum of `init` that can overflow is the end of a region; all others stay below it.
-/

namespace ThingOS

open Checked List

inductive MemoryRole where
  | pageTables
  | kernelStacks
  | generalFrames
  | dma
  | reserved
  | unknown
deriving DecidableEq

structure MemoryPool extends Span where
  role : MemoryRole

def maxPools : ℕ := 64

/-- The pools are kept in an array of 64. -/
structure PoolManager where
  pools : List MemoryPool
  room : pools.length ≤ maxPools
  initialized : Bool

namespace PoolManager

def new : PoolManager := ⟨[], by decide, false⟩

/-- A pool too many is dropped. -/
def addPool (pm : PoolManager) (start stop : ℕ) (role : MemoryRole) : PoolManager :=
  if h : pm.pools.length < maxPools then
    { pm with
      pools := pm.pools ++ [⟨⟨start, stop⟩, role⟩]
      room := by rw [length_append]; exact h }
  else pm

/-- The index of the first among the largest usable regions, and 0 if there is none. -/
def largestIdx (regions : List MemoryRegion) : ℕ :=
  (regions.zipIdx.foldl (fun (idx, len) (region, i) =>
    if region.kind = .usable ∧ region.len > len then (i, region.len) else (idx, len)) (0, 0)).1

def ptSize : ℕ := 4 * 1024 * 1024
def stackSize : ℕ := 4 * 1024 * 1024
def reservedLow : ℕ := 0x100000

/-- The second loop of `init`. -/
def addRegion (largest : ℕ) (pm : PoolManager) :
    MemoryRegion × ℕ → Except BootPanic PoolManager
  | (region, i) =>
    if region.kind ≠ .usable then .ok pm
    else do
      let stop ← add .overflow region.base region.len
      if region.base < reservedLow ∧ reservedLow ≥ stop then return pm
      else
        let start := max region.base reservedLow
        if i = largest then
          if stop - start < ptSize + stackSize + 4096 then
            return pm.addPool start stop .generalFrames
          else
            let ptEnd := start + ptSize
            let stackEnd := ptEnd + stackSize
            let pm := pm.addPool start ptEnd .pageTables
            let pm := pm.addPool ptEnd stackEnd .kernelStacks
            return pm.addPool stackEnd stop .generalFrames
        else return pm.addPool start stop .generalFrames

def init (pm : PoolManager) (entries : List MemoryRegion) : Except BootPanic PoolManager :=
  if pm.initialized then .ok pm
  else
    let regions := collectMemoryRegions entries
    regions.zipIdx.foldlM (addRegion (largestIdx regions)) { pm with initialized := true }

end PoolManager

/-- The allocator of frames for page tables. A `next` of 0 stands for one that has not begun. -/
structure PageTableAllocator where
  next : ℕ

namespace PageTableAllocator

def new : PageTableAllocator := ⟨0⟩

def allocPtFrame (pm : PoolManager) (a : PageTableAllocator) :
    Except BootPanic (Option ℕ × PageTableAllocator) :=
  let next := if a.next = 0 then
      match pm.pools.find? fun pool => pool.role = .pageTables with
      | some pool => pool.start
      | none => 0
    else a.next
  if next = 0 then .ok (none, ⟨next⟩)
  else
    match pm.pools.find? fun pool =>
      pool.role = .pageTables ∧ next ≥ pool.start ∧ next < pool.stop with
    | none => .ok (none, ⟨next⟩)
    | some _ => do
      -- that `next` is below the pool's end is looked at again here
      let frameAddr := next
      let next ← add .overflow next 4096
      require (.physAddr frameAddr) (frameAddr < physAddrSize)
      require (.unaligned frameAddr) (frameAddr % pageSize = 0)
      return (some frameAddr, ⟨next⟩)

end PageTableAllocator

namespace BootFrameAllocator

def generalRanges (pm : PoolManager) : List Span :=
  ((pm.pools.filter fun pool => pool.role = .generalFrames).map (·.toSpan)).take 32

/-- `sort_by_key` with the key that puts the largest range first. -/
def sortRanges (ranges : List Span) : List Span :=
  ranges.insertionSort fun r s =>
    u64Size - 1 - (r.stop - r.start) ≤ u64Size - 1 - (s.stop - s.start)

lemma length_sortRanges_le (pm : PoolManager) :
    (sortRanges (generalRanges pm)).length ≤ 32 := by
  rw [sortRanges, length_insertionSort, generalRanges]
  exact length_take_le _ _

/-- `new` with the feature `mm_advanced`, once the pools are there. -/
def newFromPools (pm : PoolManager) : Except BootPanic BootFrameAllocator :=
  match h : sortRanges (generalRanges pm) with
  | [] => .error .noGeneralFrames
  | first :: rest =>
    .ok {
      usableRanges := ⟨first :: rest, h ▸ length_sortRanges_le pm⟩
      currentRange := 0
      next := first.start }

/-- `new` with the feature `mm_advanced`. -/
def newAdvanced (entries : List MemoryRegion) :
    Except BootPanic (PoolManager × BootFrameAllocator) := do
  let pm ← PoolManager.new.init entries
  let a ← newFromPools pm
  return (pm, a)

end BootFrameAllocator

/-! ## The pools of a memory map -/

namespace PoolManager

/-- The part of a region at or above the first megabyte. -/
def part (region : MemoryRegion) : Span := ⟨max region.base reservedLow, region.span.stop⟩

/-- The region is usable, and does not end within the first megabyte. -/
def Recorded (region : MemoryRegion) : Prop :=
  region.kind = .usable ∧ ¬ (region.base < reservedLow ∧ reservedLow ≥ region.span.stop)
deriving Decidable

/-- The region is the one that pools are carved out of, and has room for them. -/
def Carved (largest : ℕ) (entry : MemoryRegion × ℕ) : Prop :=
  entry.2 = largest
    ∧ ptSize + stackSize + pageSize ≤ (part entry.1).stop - (part entry.1).start
deriving Decidable

def generalPart (largest : ℕ) (entry : MemoryRegion × ℕ) : Span :=
  if Carved largest entry
  then ⟨(part entry.1).start + ptSize + stackSize, (part entry.1).stop⟩ else part entry.1

def carvedPools (largest : ℕ) (entry : MemoryRegion × ℕ) : List MemoryPool :=
  let start := (part entry.1).start
  if Carved largest entry
  then [⟨⟨start, start + ptSize⟩, .pageTables⟩,
    ⟨⟨start + ptSize, start + ptSize + stackSize⟩, .kernelStacks⟩]
  else []

def regionPools (largest : ℕ) (entry : MemoryRegion × ℕ) : List MemoryPool :=
  if Recorded entry.1
  then carvedPools largest entry ++ [⟨generalPart largest entry, .generalFrames⟩] else []

/-- All pools of a memory map, also those there is no room for. -/
def allPools (entries : List MemoryRegion) : List MemoryPool :=
  (collectMemoryRegions entries).zipIdx.flatMap
    (regionPools (largestIdx (collectMemoryRegions entries)))

lemma pools_addPool (pm : PoolManager) (start stop : ℕ) (role : MemoryRole) :
    (pm.addPool start stop role).pools
      = (pm.pools ++ [(⟨⟨start, stop⟩, role⟩ : MemoryPool)]).take maxPools := by
  have hroom := pm.room
  unfold addPool
  split
  case isTrue h => rw [take_of_length_le (by rw [length_append]; exact h)]
  case isFalse h => rw [take_append_of_le_length (by omega), take_of_length_le hroom]

lemma pools_addRegion {largest : ℕ} {pm last : PoolManager} {entry : MemoryRegion × ℕ}
    (h : addRegion largest pm entry = .ok last) :
    last.pools = (pm.pools ++ regionPools largest entry).take maxPools := by
  obtain ⟨region, i⟩ := entry
  have hroom := pm.room
  rw [addRegion] at h
  unfold regionPools
  split at h
  case isTrue hkind =>
    cases h
    rw [if_neg fun hrecorded => hkind hrecorded.1, append_nil, take_of_length_le hroom]
  case isFalse hkind =>
    obtain ⟨stop, hstop, h⟩ := bind_eq_ok.mp h
    obtain ⟨-, rfl⟩ := add_eq_ok.mp hstop
    split at h
    case isTrue hlow =>
      cases h
      rw [if_neg fun hrecorded => hrecorded.2 hlow, append_nil, take_of_length_le hroom]
    case isFalse hlow =>
      have hrecorded : Recorded region := ⟨not_not.mp hkind, hlow⟩
      rw [if_pos hrecorded]
      unfold carvedPools generalPart
      dsimp only at h ⊢
      split at h
      case isTrue hlargest =>
        split at h
        case isTrue hsmall =>
          have hwhole : ¬ Carved largest (region, i) := fun hc => Nat.not_le.mpr hsmall hc.2
          cases h
          rw [if_neg hwhole, if_neg hwhole, pools_addPool]
          rfl
        case isFalse hlarge =>
          have hcarved : Carved largest (region, i) := ⟨hlargest, Nat.not_lt.mp hlarge⟩
          cases h
          rw [if_pos hcarved, if_pos hcarved, pools_addPool, pools_addPool, pools_addPool,
            UsableRanges.take_take_append, append_assoc, UsableRanges.take_take_append,
            append_assoc]
          simp only [cons_append, nil_append]
          rfl
      case isFalse hother =>
        have hwhole : ¬ Carved largest (region, i) := fun hc => hother hc.1
        cases h
        rw [if_neg hwhole, if_neg hwhole, pools_addPool]
        rfl

lemma pools_foldlM_addRegion {largest : ℕ} {regions : List (MemoryRegion × ℕ)}
    {pm last : PoolManager} (h : regions.foldlM (addRegion largest) pm = .ok last) :
    last.pools = (pm.pools ++ regions.flatMap (regionPools largest)).take maxPools := by
  induction regions generalizing pm with
  | nil =>
    cases h
    rw [flatMap_nil, append_nil, take_of_length_le last.room]
  | cons entry regions ih =>
    obtain ⟨middle, hmiddle, h⟩ := bind_eq_ok.mp h
    rw [ih h, pools_addRegion hmiddle, UsableRanges.take_take_append, flatMap_cons,
      append_assoc]

variable {entries : List MemoryRegion} {pm : PoolManager} {largest : ℕ}
  {entry : MemoryRegion × ℕ} {pool : MemoryPool}

/-- The manager records the first 64 pools. -/
lemma pools_init (h : new.init entries = .ok pm) : pm.pools = (allPools entries).take maxPools :=
  pools_foldlM_addRegion h

/-! ### Where the pools lie -/

lemma part_start_le (h : Recorded entry.1) : (part entry.1).start ≤ (part entry.1).stop := by
  have hlow := h.2
  have hlen : entry.1.base ≤ entry.1.span.stop := Nat.le_add_right _ _
  show max entry.1.base reservedLow ≤ entry.1.span.stop
  omega

/-- What can be said of the span of a pool of a region. -/
structure Inside (region : MemoryRegion) (r : Span) : Prop where
  low : reservedLow ≤ r.start
  start : region.base ≤ r.start
  ordered : r.start ≤ r.stop
  stop : r.stop ≤ region.span.stop

lemma inside_part (h : Recorded entry.1) : Inside entry.1 (part entry.1) :=
  ⟨le_max_right _ _, le_max_left _ _, part_start_le h, le_rfl⟩

lemma Inside.sub {region : MemoryRegion} {r s : Span} (h : Inside region r)
    (hstart : r.start ≤ s.start) (hordered : s.start ≤ s.stop) (hstop : s.stop ≤ r.stop) :
    Inside region s :=
  ⟨h.low.trans hstart, h.start.trans hstart, hordered, hstop.trans h.stop⟩

lemma inside_generalPart (h : Recorded entry.1) :
    Inside entry.1 (generalPart largest entry) := by
  have hpart := inside_part h
  unfold generalPart
  split
  case isTrue hcarved =>
    have hroom := hcarved.2
    have hordered := hpart.ordered
    exact hpart.sub (by dsimp only; omega) (by dsimp only; omega) le_rfl
  case isFalse => exact hpart

lemma dvd_part (h : pageSize ∣ entry.1.base ∧ pageSize ∣ entry.1.len) :
    pageSize ∣ (part entry.1).start ∧ pageSize ∣ (part entry.1).stop := by
  refine ⟨?_, Nat.dvd_add h.1 h.2⟩
  rcases max_choice entry.1.base reservedLow with hmax | hmax
  · exact (congrArg (pageSize ∣ ·) hmax).mpr h.1
  · exact (congrArg (pageSize ∣ ·) hmax).mpr (by decide)

lemma dvd_generalPart (h : pageSize ∣ entry.1.base ∧ pageSize ∣ entry.1.len) :
    pageSize ∣ (generalPart largest entry).start ∧ pageSize ∣ (generalPart largest entry).stop := by
  obtain ⟨hstart, hstop⟩ := dvd_part h
  unfold generalPart
  split
  · exact ⟨Nat.dvd_add (Nat.dvd_add hstart (by decide)) (by decide), hstop⟩
  · exact ⟨hstart, hstop⟩

/-- Which pools a region has: two that are carved out of it, if it is the one for that, and what it
leaves for general use. -/
lemma of_mem_regionPools (h : pool ∈ regionPools largest entry) :
    Recorded entry.1
      ∧ (Carved largest entry
          ∧ (pool = ⟨⟨(part entry.1).start, (part entry.1).start + ptSize⟩, .pageTables⟩
            ∨ pool = ⟨⟨(part entry.1).start + ptSize, (part entry.1).start + ptSize + stackSize⟩,
              .kernelStacks⟩)
        ∨ pool = ⟨generalPart largest entry, .generalFrames⟩) := by
  unfold regionPools at h
  split at h
  case isFalse => exact absurd h not_mem_nil
  case isTrue hrecorded =>
    refine ⟨hrecorded, ?_⟩
    rcases mem_append.mp h with h | h
    · unfold carvedPools at h
      split at h
      case isFalse => exact absurd h not_mem_nil
      case isTrue hcarved => exact .inl ⟨hcarved, mem_pair.mp h⟩
    · exact .inr (mem_singleton.mp h)

lemma inside_of_mem_regionPools (h : pool ∈ regionPools largest entry) :
    Inside entry.1 pool.toSpan := by
  obtain ⟨hrecorded, hpool⟩ := of_mem_regionPools h
  have hpart := inside_part hrecorded
  have hordered := hpart.ordered
  obtain ⟨⟨-, hroom⟩, rfl | rfl⟩ | rfl := hpool
  · exact hpart.sub le_rfl (by dsimp only; omega) (by dsimp only; omega)
  · exact hpart.sub (by dsimp only; omega) (by dsimp only; omega) (by dsimp only; omega)
  · exact inside_generalPart hrecorded

lemma pairwise_apart_regionPools (largest : ℕ) (entry : MemoryRegion × ℕ) :
    (regionPools largest entry).Pairwise fun p q => p.toSpan.Apart q.toSpan := by
  unfold regionPools carvedPools generalPart
  split
  case isFalse => exact List.Pairwise.nil
  case isTrue =>
    grind [Span.apart_of_le]

lemma mem_of_mem_zipIdx (h : entry ∈ (collectMemoryRegions entries).zipIdx) :
    entry.1 ∈ entries := by
  obtain ⟨region, i⟩ := entry
  exact mem_of_mem_take (fst_mem_of_mem_zipIdx h)

/-- The pools are apart: those of one region by the carving, those of different regions because the
regions are. -/
lemma pairwise_apart_allPools (hdisjoint : BootFrameAllocator.DisjointUsable entries) :
    (allPools entries).Pairwise fun p q => p.toSpan.Apart q.toSpan := by
  have hregions : (collectMemoryRegions entries).zipIdx.Pairwise fun r s =>
      r.1.kind = .usable → s.1.kind = .usable → r.1.span.Apart s.1.span := by
    have h := pairwise_filter.mp hdisjoint
    simp only [decide_eq_true_eq] at h
    have hfst := h.sublist (take_sublist 128 entries)
    rw [← zipIdx_map_fst 0 (entries.take 128)] at hfst
    exact pairwise_map.mp hfst
  refine pairwise_flatMap.mpr ⟨fun entry _ => pairwise_apart_regionPools _ entry, ?_⟩
  refine hregions.imp ?_
  intro r s hapart p hp q hq x hxp hxq
  have hpin := inside_of_mem_regionPools hp
  have hqin := inside_of_mem_regionPools hq
  exact hapart (of_mem_regionPools hp).1.1 (of_mem_regionPools hq).1.1 x
    ⟨hpin.start.trans hxp.1, hxp.2.trans_le hpin.stop⟩
    ⟨hqin.start.trans hxq.1, hxq.2.trans_le hqin.stop⟩

/-! ### The general pools -/

/-- The ranges the boot frame allocator draws from: what the first 32 recorded regions leave for
general use. -/
def drawn (entries : List MemoryRegion) : List Span :=
  let regions := collectMemoryRegions entries
  ((regions.zipIdx.filter fun entry => Recorded entry.1).map
    (generalPart (largestIdx regions))).take 32

/-- Cutting off a list does not change the first items of a kind if it leaves room for all items of
the other kind. -/
lemma take_filter_take {α : Type*} {p : α → Bool} {n m : ℕ} {l : List α}
    (h : (l.filter fun a => !p a).length + m ≤ n) :
    ((l.take n).filter p).take m = (l.filter p).take m := by
  rcases Nat.le_total l.length n with hle | hle
  · rw [take_of_length_le hle]
  · have hsplit : (l.take n).filter p ++ (l.drop n).filter p = l.filter p := by
      rw [← filter_append, take_append_drop]
    have hothers : ((l.take n).filter fun a => !p a).length
        ≤ (l.filter fun a => !p a).length :=
      ((take_sublist n l).filter _).length_le
    have hcount := length_eq_length_filter_add (l := l.take n) p
    rw [length_take, Nat.min_eq_left hle] at hcount
    rw [← hsplit, take_append_of_le_length (by omega)]

lemma general_regionPools (largest : ℕ) (entry : MemoryRegion × ℕ) :
    (regionPools largest entry).filter (fun pool => pool.role = .generalFrames)
      = if Recorded entry.1 then [⟨generalPart largest entry, .generalFrames⟩] else [] := by
  unfold regionPools carvedPools
  split
  · dsimp only
    split <;> rfl
  · rfl

lemma others_regionPools (largest : ℕ) (entry : MemoryRegion × ℕ) :
    (regionPools largest entry).filter (fun pool => !decide (pool.role = .generalFrames))
      = if Recorded entry.1 then carvedPools largest entry else [] := by
  unfold regionPools carvedPools
  split
  · dsimp only
    split <;> rfl
  · rfl

/-- Pools are carved out of one region only. -/
lemma length_others_le (largest : ℕ) {regions : List (MemoryRegion × ℕ)}
    (h : (regions.map (·.2)).Nodup) :
    (regions.flatMap fun entry =>
      if Recorded entry.1 then carvedPools largest entry else []).length ≤ 2 := by
  have hother : ∀ entry : MemoryRegion × ℕ, entry.2 ≠ largest →
      (if Recorded entry.1 then carvedPools largest entry else []) = [] := by
    intro entry hne
    rw [carvedPools, if_neg fun hc : Carved largest entry => hne hc.1, ite_self]
  induction regions with
  | nil => exact Nat.zero_le 2
  | cons entry regions ih =>
    rw [map_cons, nodup_cons] at h
    rw [flatMap_cons]
    by_cases hentry : entry.2 = largest
    · have hrest : regions.flatMap (fun entry =>
          if Recorded entry.1 then carvedPools largest entry else []) = [] := by
        refine flatMap_eq_nil_iff.mpr fun e he => hother e fun heq => h.1 ?_
        rw [hentry, ← heq]
        exact mem_map_of_mem he
      rw [hrest, append_nil, carvedPools]
      split
      · split
        · exact le_rfl
        · exact Nat.zero_le 2
      · exact Nat.zero_le 2
    · rw [hother entry hentry, nil_append]
      exact ih h.2

/-- The general ranges are those of the memory map. The limit of 64 pools does not matter, since
the allocator looks at 32 of them and at most two others come before. -/
lemma generalRanges_eq_drawn (h : new.init entries = .ok pm) :
    BootFrameAllocator.generalRanges pm = drawn entries := by
  have hothers : ((allPools entries).filter fun pool =>
      !decide (pool.role = .generalFrames)).length + 32 ≤ maxPools := by
    have hnodup : ((collectMemoryRegions entries).zipIdx.map (·.2)).Nodup := by
      rw [zipIdx_map_snd]
      exact nodup_range'
    have htwo := length_others_le (largestIdx (collectMemoryRegions entries)) hnodup
    rw [allPools, filter_flatMap]
    simp only [others_regionPools]
    exact Nat.add_le_add_right htwo 32 |>.trans (by decide)
  rw [BootFrameAllocator.generalRanges, pools_init h, ← map_take, take_filter_take hothers,
    drawn, allPools, filter_flatMap]
  simp only [general_regionPools]
  rw [map_take]
  congr 1
  induction (collectMemoryRegions entries).zipIdx with
  | nil => rfl
  | cons entry rest ih =>
    grind

end PoolManager

namespace BootFrameAllocator

open PoolManager (drawn)

variable {entries : List MemoryRegion} {pm : PoolManager} {a b : BootFrameAllocator} {r : Span}
  {f : ℕ}

def Aligned (entries : List MemoryRegion) : Prop :=
  ∀ region ∈ entries, region.kind = .usable → pageSize ∣ region.base ∧ pageSize ∣ region.len

/-- An allocator over the pools has their general ranges, and stands at the start of the first. -/
lemma of_newFromPools (h : newFromPools pm = .ok a) :
    a.usableRanges.list.Perm (generalRanges pm) ∧ a.currentRange = 0
      ∧ ∃ first rest, a.usableRanges.list = first :: rest ∧ a.next = first.start := by
  unfold newFromPools at h
  split at h
  case h_1 => cases h
  case h_2 first rest hsort =>
    cases h
    refine ⟨?_, rfl, first, rest, rfl, rfl⟩
    dsimp only
    rw [← hsort]
    exact perm_insertionSort _ _

lemma of_newAdvanced (h : newAdvanced entries = .ok (pm, a)) :
    PoolManager.new.init entries = .ok pm ∧ newFromPools pm = .ok a := by
  obtain ⟨pm', hinit, h⟩ := bind_eq_ok.mp h
  obtain ⟨a', hnew, h⟩ := bind_eq_ok.mp h
  cases h
  exact ⟨hinit, hnew⟩

lemma of_mem_drawn (h : r ∈ drawn entries) : ∃ region ∈ entries, region.kind = .usable
    ∧ PoolManager.Inside region r ∧ (Aligned entries → pageSize ∣ r.start ∧ pageSize ∣ r.stop) := by
  obtain ⟨entry, hentry, rfl⟩ := mem_map.mp (mem_of_mem_take h)
  obtain ⟨hmem, hrecorded⟩ := mem_filter.mp hentry
  have hrecorded : PoolManager.Recorded entry.1 := of_decide_eq_true hrecorded
  have hregion := PoolManager.mem_of_mem_zipIdx hmem
  refine ⟨entry.1, hregion, hrecorded.1, PoolManager.inside_generalPart hrecorded, fun halign => ?_⟩
  exact PoolManager.dvd_generalPart (halign entry.1 hregion hrecorded.1)

end BootFrameAllocator

end ThingOS
