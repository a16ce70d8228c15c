import ThingOS.Kernel.Mm.Pools

/-!
# The partition into pools

The pools of a memory map are apart and lie in usable memory above the first megabyte. The allocator
of frames for page tables hands out the frames of its pool in order, each once, and the boot frame
allocator over the same pools never hands out one of them.
-/

namespace ThingOS

open Checked List

namespace PoolManager

variable {entries : List MemoryRegion} {pm : PoolManager} {largest : ℕ}
  {entry : MemoryRegion × ℕ} {pool : MemoryPool} {f : ℕ}

/-- The pool for page tables is the first part of the region that pools are carved out of. -/
lemma of_pageTables (h : pool ∈ regionPools largest entry) (hrole : pool.role = .pageTables) :
    entry.2 = largest
      ∧ pool = ⟨⟨(part entry.1).start, (part entry.1).start + ptSize⟩, .pageTables⟩ := by
  obtain ⟨-, ⟨⟨hlargest, -⟩, rfl | rfl⟩ | rfl⟩ := of_mem_regionPools h
  · exact ⟨hlargest, rfl⟩
  · cases hrole
  · cases hrole

lemma pageTables_unique {p q : MemoryPool} (hp : p ∈ allPools entries)
    (hq : q ∈ allPools entries) (hprole : p.role = .pageTables) (hqrole : q.role = .pageTables) :
    p = q := by
  obtain ⟨e, he, hp⟩ := mem_flatMap.mp hp
  obtain ⟨e', he', hq⟩ := mem_flatMap.mp hq
  obtain ⟨hidx, hpeq⟩ := of_pageTables hp hprole
  obtain ⟨hidx', hqeq⟩ := of_pageTables hq hqrole
  have hregion : e.1 = e'.1 := by
    grind
  rw [hpeq, hqeq, hregion]

/-- Regions that `init` has looked at end within 64 bits. -/
lemma fits_of_foldlM {regions : List (MemoryRegion × ℕ)} {last : PoolManager}
    (h : regions.foldlM (addRegion largest) pm = .ok last) (hentry : entry ∈ regions)
    (hkind : entry.1.kind = .usable) : entry.1.span.stop < u64Size := by
  induction regions generalizing pm with
  | nil => exact absurd hentry not_mem_nil
  | cons first regions ih =>
    obtain ⟨middle, hmiddle, h⟩ := bind_eq_ok.mp h
    rcases mem_cons.mp hentry with rfl | hentry
    · obtain ⟨region, i⟩ := entry
      rw [addRegion, if_neg (not_not.mpr hkind)] at hmiddle
      obtain ⟨stop, hstop, -⟩ := bind_eq_ok.mp hmiddle
      exact (add_eq_ok.mp hstop).1
    · exact ih h hentry

/-- What can be said of every pool. -/
structure Placed (entries : List MemoryRegion) (r : Span) : Prop where
  low : reservedLow ≤ r.start
  ordered : r.start ≤ r.stop
  usable : ∃ region ∈ entries, region.kind = .usable
    ∧ region.base ≤ r.start ∧ r.stop ≤ region.base + region.len
  start_dvd : pageSize ∣ r.start
  stop_dvd : pageSize ∣ r.stop

lemma dvd_regionPools (h : pageSize ∣ entry.1.base ∧ pageSize ∣ entry.1.len)
    (hpool : pool ∈ regionPools largest entry) : pageSize ∣ pool.start ∧ pageSize ∣ pool.stop := by
  obtain ⟨hstart, -⟩ := dvd_part h
  have hpt : pageSize ∣ ptSize := by decide
  have hstack : pageSize ∣ stackSize := by decide
  obtain ⟨-, ⟨-, rfl | rfl⟩ | rfl⟩ := of_mem_regionPools hpool
  · exact ⟨hstart, Nat.dvd_add hstart hpt⟩
  · exact ⟨Nat.dvd_add hstart hpt, Nat.dvd_add (Nat.dvd_add hstart hpt) hstack⟩
  · exact dvd_generalPart h

lemma placed_of_mem (halign : BootFrameAllocator.Aligned entries)
    (hinit : new.init entries = .ok pm) (h : pool ∈ pm.pools) :
    Placed entries pool.toSpan ∧ pool.stop < u64Size := by
  rw [pools_init hinit] at h
  obtain ⟨entry, hentry, hpool⟩ := mem_flatMap.mp (mem_of_mem_take h)
  have hkind := (of_mem_regionPools hpool).1.1
  have hregion := mem_of_mem_zipIdx hentry
  have hinside := inside_of_mem_regionPools hpool
  obtain ⟨hstart, hstop⟩ := dvd_regionPools (halign entry.1 hregion hkind) hpool
  refine ⟨⟨hinside.low, hinside.ordered, ⟨entry.1, hregion, hkind, hinside.start, hinside.stop⟩,
    hstart, hstop⟩, ?_⟩
  exact hinside.stop.trans_lt (fits_of_foldlM hinit hentry hkind)

/-! ## Frames for page tables -/

def pageTables (pm : PoolManager) : Option MemoryPool :=
  pm.pools.find? fun pool => pool.role = .pageTables

def ptFrames (pm : PoolManager) : List ℕ :=
  pm.pageTables.elim [] fun pool => pool.toSpan.blocks pageSize

lemma pageTables_eq_some (hinit : new.init entries = .ok pm) :
    pm.pageTables = some pool ↔ pool ∈ pm.pools ∧ pool.role = .pageTables := by
  constructor
  · intro h
    exact ⟨mem_of_find?_eq_some h, of_decide_eq_true (find?_some h :)⟩
  · rintro ⟨hmem, hrole⟩
    cases hfind : pm.pageTables with
    | none =>
      have hnone := find?_eq_none.mp hfind pool hmem
      exact absurd (decide_eq_true hrole) hnone
    | some other =>
      have hother := mem_of_find?_eq_some hfind
      have hotherrole : other.role = .pageTables := of_decide_eq_true (find?_some hfind :)
      rw [pools_init hinit] at hmem hother
      rw [pageTables_unique (mem_of_mem_take hother) (mem_of_mem_take hmem) hotherrole
        hrole]

lemma mem_ptFrames (hinit : new.init entries = .ok pm) : f ∈ pm.ptFrames ↔
    ∃ pool ∈ pm.pools, pool.role = .pageTables
      ∧ pageSize ∣ f ∧ pool.start ≤ f ∧ f + pageSize ≤ pool.stop := by
  unfold ptFrames
  constructor
  · intro h
    cases hpool : pm.pageTables with
    | none =>
      rw [hpool] at h
      exact absurd h not_mem_nil
    | some pool =>
      rw [hpool] at h
      obtain ⟨hmem, hrole⟩ := (pageTables_eq_some hinit).mp hpool
      exact ⟨pool, hmem, hrole, (Span.mem_blocks pageSize_pos).mp h⟩
  · rintro ⟨pool, hmem, hrole, hf⟩
    rw [(pageTables_eq_some hinit).mpr ⟨hmem, hrole⟩]
    exact (Span.mem_blocks pageSize_pos).mpr hf

lemma nodup_ptFrames (pm : PoolManager) : pm.ptFrames.Nodup := by
  unfold ptFrames
  cases pm.pageTables with
  | none => exact nodup_nil
  | some pool => exact (Span.pairwise_lt_blocks pageSize_pos pool.toSpan).imp Nat.ne_of_lt

end PoolManager

namespace PageTableAllocator

open PoolManager (pageTables ptFrames)

variable {entries : List MemoryRegion} {pm : PoolManager} {pool : MemoryPool}
  {a : PageTableAllocator}

/-- Where the next frame is looked for. -/
def position (pool : MemoryPool) (a : PageTableAllocator) : ℕ :=
  if a.next = 0 then pool.start else a.next

/-- The frames still to be handed out. -/
def remaining (pm : PoolManager) (a : PageTableAllocator) : List ℕ :=
  pm.pageTables.elim [] fun pool => Span.blocks pageSize ⟨a.position pool, pool.stop⟩

/-- The allocator has not begun, or stands at a page of its pool or at the end of it. -/
structure Standing (pm : PoolManager) (a : PageTableAllocator) : Prop where
  none : pm.pageTables = none → a.next = 0
  some : ∀ pool, pm.pageTables = some pool →
    a.next = 0 ∨ pool.start ≤ a.next ∧ pageSize ∣ a.next

lemma standing_new (pm : PoolManager) : Standing pm new := ⟨fun _ => rfl, fun _ _ => .inl rfl⟩

lemma allocPtFrame_of_none (ha : Standing pm a) (hnone : pm.pageTables = none) :
    allocPtFrame pm a = .ok (none, a) := by
  have hfind : pm.pools.find? (fun pool => pool.role = .pageTables) = none := hnone
  obtain ⟨next⟩ := a
  obtain rfl : next = 0 := ha.none hnone
  rw [allocPtFrame, hfind]
  rfl

/-- With a pool there is a frame if the position is below its end. -/
lemma allocPtFrame_of_some (hinit : PoolManager.new.init entries = .ok pm)
    (hsome : pm.pageTables = some pool) (hlow : 0 < a.position pool)
    (hstart : pool.start ≤ a.position pool) :
    allocPtFrame pm a
      = if a.position pool < pool.stop then do
          let next ← add .overflow (a.position pool) 4096
          require (.physAddr (a.position pool)) (a.position pool < physAddrSize)
          require (.unaligned (a.position pool)) (a.position pool % pageSize = 0)
          return (some (a.position pool), ⟨next⟩)
        else .ok (none, ⟨a.position pool⟩) := by
  have hfind : pm.pools.find? (fun pool => pool.role = .pageTables) = some pool := hsome
  obtain ⟨hmem, hrole⟩ := (PoolManager.pageTables_eq_some hinit).mp hsome
  have hposition : (if a.next = 0 then pool.start else a.next) = a.position pool := rfl
  rw [allocPtFrame, hfind]
  rw [hposition, if_neg hlow.ne']
  split
  case h_1 hout =>
    have hnot := find?_eq_none.mp hout pool hmem
    rw [if_neg fun hlt => hnot (decide_eq_true ⟨hrole, hstart, hlt⟩)]
  case h_2 other hin =>
    have hother := of_decide_eq_true (find?_some hin :)
    have hsame := (PoolManager.pageTables_eq_some hinit).mpr
      ⟨mem_of_find?_eq_some hin, hother.1⟩
    cases hsome.symm.trans hsame
    rw [if_pos hother.2.2]

/-- One allocation hands out the first frame that is left, or panics because that lies beyond the
physical address space. -/
lemma allocPtFrame_spec (halign : BootFrameAllocator.Aligned entries)
    (hinit : PoolManager.new.init entries = .ok pm) (ha : Standing pm a) :
    (∃ b, allocPtFrame pm a = .ok ((remaining pm a).head?, b)
        ∧ remaining pm b = (remaining pm a).tail ∧ Standing pm b)
      ∨ ∃ f ∈ remaining pm a, physAddrSize ≤ f ∧ allocPtFrame pm a = .error (.physAddr f) := by
  cases hpool : pm.pageTables with
  | none =>
    have hremaining : remaining pm a = [] := by rw [remaining, hpool]; rfl
    rw [hremaining]
    exact .inl ⟨a, allocPtFrame_of_none ha hpool, hremaining, ha⟩
  | some pool =>
    obtain ⟨hmem, -⟩ := (PoolManager.pageTables_eq_some hinit).mp hpool
    obtain ⟨hplaced, hfits⟩ := PoolManager.placed_of_mem halign hinit hmem
    have hposition : pool.start ≤ a.position pool ∧ pageSize ∣ a.position pool := by
      unfold position
      split
      case isTrue => exact ⟨le_rfl, hplaced.start_dvd⟩
      case isFalse hne => exact (ha.some pool hpool).resolve_left hne
    obtain ⟨hstart, hdvd⟩ := hposition
    have hlow : 0 < a.position pool := (by decide : 0 < PoolManager.reservedLow).trans_le
      (hplaced.low.trans hstart)
    -- a position that is left unchanged stands for itself
    have hstays : ∀ next, 0 < next → position pool ⟨next⟩ = next := fun next h => if_neg h.ne'
    have hremaining : ∀ b : PageTableAllocator,
        remaining pm b = Span.blocks pageSize ⟨b.position pool, pool.stop⟩ := by
      intro b
      rw [remaining, hpool]
      rfl
    rw [allocPtFrame_of_some hinit hpool hlow hstart, hremaining a, Span.blocks_eq pageSize_pos]
    rw [Span.alignUp_of_dvd pageSize_pos hdvd]
    by_cases hlt : a.position pool < pool.stop
    case neg =>
      have hroom : ¬ a.position pool + pageSize ≤ pool.stop := fun h =>
        hlt ((Nat.lt_add_of_pos_right pageSize_pos).trans_le h)
      rw [if_neg hlt, if_neg hroom]
      refine .inl ⟨_, rfl, ?_, ?_⟩
      · rw [hremaining, hstays _ hlow, Span.blocks_eq pageSize_pos]
        rw [Span.alignUp_of_dvd pageSize_pos hdvd, if_neg hroom]
        rfl
      · refine ⟨fun h => ?_, fun other hother => .inr ?_⟩
        · cases hpool.symm.trans h
        · cases hpool.symm.trans hother
          exact ⟨hstart, hdvd⟩
    case pos =>
      have hroom : a.position pool + pageSize ≤ pool.stop := by
        have hgap := Nat.le_of_dvd (Nat.sub_pos_of_lt hlt) (Nat.dvd_sub hplaced.stop_dvd hdvd)
        omega
      have hadd : add BootPanic.overflow (a.position pool) 4096
          = .ok (a.position pool + pageSize) :=
        add_eq_ok.mpr ⟨hroom.trans_lt hfits, rfl⟩
      rw [if_pos hlt, if_pos hroom, hadd, ok_bind]
      by_cases hphys : a.position pool < physAddrSize
      case neg =>
        rw [require_of_not _ hphys]
        exact .inr ⟨_, mem_cons_self, Nat.not_lt.mp hphys, rfl⟩
      rw [require_of _ hphys, ok_bind,
        require_of _ (Nat.mod_eq_zero_of_dvd hdvd), ok_bind]
      have hnext : 0 < a.position pool + pageSize := Nat.add_pos_left hlow _
      refine .inl ⟨_, rfl, ?_, ?_⟩
      · rw [hremaining, hstays _ hnext, tail_cons]
      · refine ⟨fun h => ?_, fun other hother => .inr ?_⟩
        · cases hpool.symm.trans h
        · cases hpool.symm.trans hother
          exact ⟨hstart.trans (Nat.le_add_right _ _), Nat.dvd_add hdvd (dvd_refl _)⟩

/-- Any number of allocations, one after the other. -/
def allocPtFrames (pm : PoolManager) (n : ℕ) (a : PageTableAllocator) :
    Except BootPanic (List (Option ℕ) × PageTableAllocator) :=
  Supply.calls (fun _ => allocPtFrame pm) (List.replicate n ()) a

lemma allocPtFrames_spec (halign : BootFrameAllocator.Aligned entries)
    (hinit : PoolManager.new.init entries = .ok pm) (n : ℕ) :
    (∃ b, allocPtFrames pm n new = .ok ((List.range n).map fun i => pm.ptFrames[i]?, b))
      ∨ ∃ f ∈ pm.ptFrames, physAddrSize ≤ f ∧ allocPtFrames pm n new = .error (.physAddr f) := by
  have hcalls := @Supply.calls_spec _ _ _ _ (fun _ => allocPtFrame pm) (remaining pm)
    (fun _ : Unit => True) (fun b => Standing pm b ∧ remaining pm b ⊆ pm.ptFrames)
    (fun e => ∃ f ∈ pm.ptFrames, physAddrSize ≤ f ∧ e = .physAddr f) ?_ (List.replicate n ())
    (fun _ _ => trivial) new ⟨standing_new pm, List.Subset.refl _⟩
  · rw [length_replicate] at hcalls
    rcases hcalls with ⟨b, hb, -⟩ | ⟨e, he, f, hf, hphys, rfl⟩
    · exact .inl ⟨b, hb⟩
    · exact .inr ⟨f, hf, hphys, he⟩
  rintro - b - ⟨hb, hsub⟩
  rcases allocPtFrame_spec halign hinit hb with ⟨c, hc, hremaining, hstanding⟩ | ⟨f, hf, hphys, he⟩
  · refine .inl ⟨c, hc, hremaining, hstanding, fun f hf => hsub ?_⟩
    exact mem_of_mem_tail (hremaining ▸ hf)
  · exact .inr ⟨_, he, f, hsub hf, hphys, rfl⟩

end PageTableAllocator

namespace BootFrameAllocator

variable {entries : List MemoryRegion} {pm : PoolManager} {a b : BootFrameAllocator} {f : ℕ}

/-- Any number of calls of `allocate_frame_internal`, one after the other. -/
def allocateInternal (n : ℕ) (a : BootFrameAllocator) :
    Except BootPanic (List (Option ℕ) × BootFrameAllocator) :=
  Supply.calls (fun _ => allocateFrameInternal) (List.replicate n ()) a

lemma mem_of_allocateInternal {n : ℕ} {found : List (Option ℕ)}
    (hok : a.allocateInternal n = .ok (found, b)) (hf : some f ∈ found) : f ∈ a.remaining := by
  have hcalls := @Supply.calls_spec _ _ _ _ (fun _ => allocateFrameInternal) remaining
    (fun _ : Unit => True) (fun _ => True) (fun _ => True) ?_ (List.replicate n ())
    (fun _ _ => trivial) a trivial
  · rcases hcalls with ⟨c, hc, -⟩ | ⟨e, he, -⟩
    · cases hok.symm.trans hc
      obtain ⟨i, -, hi⟩ := mem_map.mp hf
      exact mem_of_getElem? hi
    · cases hok.symm.trans he
  rintro - b - -
  rcases allocateFrom_spec (a := b) 0 le_rfl with ⟨c, hc, hremaining, -⟩ | ⟨hc, -⟩
  · exact .inl ⟨c, hc, hremaining, trivial⟩
  · exact .inr ⟨_, hc, trivial⟩

lemma not_mem_ptFrames (hdisjoint : pm.pools.Pairwise fun p q => p.toSpan.Apart q.toSpan)
    (hinit : PoolManager.new.init entries = .ok pm) (hnew : newFromPools pm = .ok a)
    (hf : f ∈ a.remaining) : f ∉ pm.ptFrames := by
  intro hpt
  obtain ⟨hperm, hcurrent, first, rest, hfirst, hnext⟩ := of_newFromPools hnew
  rw [remaining_of_start hcurrent hfirst hnext] at hf
  obtain ⟨r, hr, -, hstart, hstop⟩ := mem_frames.mp hf
  obtain ⟨general, hgeneral, rfl⟩ := mem_map.mp (mem_of_mem_take (hperm.mem_iff.mp hr))
  obtain ⟨hmem, hrole⟩ := mem_filter.mp hgeneral
  obtain ⟨pool, hpool, hptrole, -, hptstart, hptstop⟩ := (PoolManager.mem_ptFrames hinit).mp hpt
  have hne : general ≠ pool := by
    rintro rfl
    cases hptrole.symm.trans (of_decide_eq_true hrole)
  have hsymm : Std.Symm fun p q : MemoryPool => p.toSpan.Apart q.toSpan :=
    ⟨fun p q h x hq hp => h x hp hq⟩
  have hapart := hdisjoint.forall hmem hpool hne
  have hpos := pageSize_pos
  exact hapart f ⟨hstart, by omega⟩ ⟨hptstart, by omega⟩

end BootFrameAllocator

namespace PoolManager

open PageTableAllocator (allocPtFrames)

/-- The pools are apart, on page boundaries in usable memory at or above 1 MiB. The frames of the
pool for page tables are handed out in order, each once, and then none is, unless the pool reaches
beyond the physical address space. The boot frame allocator never returns one of them. -/
theorem pools_partition {entries : List MemoryRegion} {pm : PoolManager}
    (hdisjoint : BootFrameAllocator.DisjointUsable entries)
    (halign : BootFrameAllocator.Aligned entries) (hinit : new.init entries = .ok pm) :
    (pm.pools.Pairwise fun p q => p.toSpan.Apart q.toSpan)
      ∧ (∀ pool ∈ pm.pools, Placed entries pool.toSpan)
      ∧ pm.ptFrames.Nodup
      ∧ (∀ f, f ∈ pm.ptFrames ↔ ∃ pool ∈ pm.pools, pool.role = .pageTables
          ∧ pageSize ∣ f ∧ pool.start ≤ f ∧ f + pageSize ≤ pool.stop)
      ∧ (∀ n, (∃ b, allocPtFrames pm n .new = .ok ((List.range n).map fun i => pm.ptFrames[i]?, b))
          ∨ ∃ f ∈ pm.ptFrames, physAddrSize ≤ f
            ∧ allocPtFrames pm n .new = .error (.physAddr f))
      ∧ (BootFrameAllocator.Physical entries → ∀ n, ∃ b, allocPtFrames pm n .new
          = .ok ((List.range n).map fun i => pm.ptFrames[i]?, b))
      ∧ ∀ a, BootFrameAllocator.newFromPools pm = .ok a → ∀ n found b,
          a.allocateInternal n = .ok (found, b) → ∀ f, some f ∈ found → f ∉ pm.ptFrames := by
  have hapart : pm.pools.Pairwise fun p q => p.toSpan.Apart q.toSpan := by
    rw [pools_init hinit]
    exact (pairwise_apart_allPools hdisjoint).sublist (take_sublist _ _)
  have hframes := PageTableAllocator.allocPtFrames_spec halign hinit
  refine ⟨hapart, fun pool hpool => (placed_of_mem halign hinit hpool).1, nodup_ptFrames pm,
    fun f => mem_ptFrames hinit, hframes, fun hphysical n => ?_,
    fun a hnew n found b hok f hf => ?_⟩
  · refine (hframes n).resolve_right ?_
    rintro ⟨f, hf, hphys, -⟩
    obtain ⟨pool, hpool, -, -, -, hstop⟩ := (mem_ptFrames hinit).mp hf
    obtain ⟨region, hregion, hkind, -, hend⟩ := (placed_of_mem halign hinit hpool).1.usable
    have hlimit : region.base + region.len ≤ physAddrSize := hphysical region hregion hkind
    have hpos := pageSize_pos
    omega
  · exact BootFrameAllocator.not_mem_ptFrames hapart hinit hnew
      (BootFrameAllocator.mem_of_allocateInternal hok hf)

/-- A region at 16 MiB from which the pools can just be carved, and a page elsewhere. -/
def carvedMachine : List MemoryRegion :=
  [⟨0x8000000, 0x1000, .usable⟩, ⟨0x1000000, 0x801000, .usable⟩]

lemma disjoint_carvedMachine : BootFrameAllocator.DisjointUsable carvedMachine := by
  refine pairwise_cons.mpr ⟨?_, pairwise_singleton _ _⟩
  intro region hregion
  obtain rfl := mem_singleton.mp hregion
  exact Span.apart_of_ge (by decide)

theorem pools_partition_carvedMachine : ∃ pm, new.init carvedMachine = .ok pm
    ∧ pm.pools = [⟨⟨0x8000000, 0x8001000⟩, .generalFrames⟩, ⟨⟨0x1000000, 0x1400000⟩, .pageTables⟩,
      ⟨⟨0x1400000, 0x1800000⟩, .kernelStacks⟩, ⟨⟨0x1800000, 0x1801000⟩, .generalFrames⟩]
    ∧ (pm.pools.Pairwise fun p q => p.toSpan.Apart q.toSpan)
    ∧ ∀ n, ∃ b, allocPtFrames pm n .new = .ok ((List.range n).map fun i => pm.ptFrames[i]?, b) := by
  have hinit : ∃ pm, new.init carvedMachine = .ok pm
      ∧ pm.pools = [⟨⟨0x8000000, 0x8001000⟩, .generalFrames⟩,
        ⟨⟨0x1000000, 0x1400000⟩, .pageTables⟩, ⟨⟨0x1400000, 0x1800000⟩, .kernelStacks⟩,
        ⟨⟨0x1800000, 0x1801000⟩, .generalFrames⟩] := ⟨_, rfl, rfl⟩
  obtain ⟨pm, hinit, hpools⟩ := hinit
  have halign : BootFrameAllocator.Aligned carvedMachine := by
    unfold BootFrameAllocator.Aligned
    decide
  have hphysical : BootFrameAllocator.Physical carvedMachine := by
    unfold BootFrameAllocator.Physical
    decide
  obtain ⟨hapart, -, -, -, -, hframes, -⟩ :=
    pools_partition disjoint_carvedMachine halign hinit
  exact ⟨pm, hinit, hpools, hapart, hframes hphysical⟩

/-- A pool beyond the 52 bits of a physical address is carved like any other, and its first frame
stops the allocator. -/
theorem pt_frame_beyond_physAddr :
    BootFrameAllocator.DisjointUsable [⟨2 ^ 52, 0x801000, .usable⟩]
      ∧ BootFrameAllocator.Aligned [⟨2 ^ 52, 0x801000, .usable⟩]
      ∧ ∃ pm, new.init [⟨2 ^ 52, 0x801000, .usable⟩] = .ok pm
        ∧ allocPtFrames pm 1 .new = .error (.physAddr (2 ^ 52)) := by
  refine ⟨pairwise_singleton _ _, ?_, ⟨_, rfl, rfl⟩⟩
  unfold BootFrameAllocator.Aligned
  decide

end PoolManager

end ThingOS
