import ThingOS.Common.Run
import ThingOS.Common.Spans
import ThingOS.Kernel.Clock

/-!
# The heap allocators

`kernel/src/mm/bump_allocator.rs` and `kernel/src/mm/debug_alloc.rs`. The bump allocator serves any
number of threads; every access to an atomic is a step, and what `alloc` computes between two of
them goes with the later one. The canary allocator asks an inner allocator for a larger block and
leaves a word before and a word after the bytes of the user.
-/

namespace ThingOS

open List Option

/-- `core::alloc::Layout`. -/
structure Layout where
  size : ℕ
  align : ℕ
  exists_pow : ∃ k < 64, align = 2 ^ k
  size_le : size ≤ 2 ^ 63 - align

def Layout.fromSizeAlign (size align : ℕ) : Option Layout :=
  if h : (∃ k < 64, align = 2 ^ k) ∧ size ≤ 2 ^ 63 - align then some ⟨size, align, h.1, h.2⟩
  else none

/-- Of two powers of two, each divides the larger. -/
lemma Layout.align_dvd_max (layout : Layout) : layout.align ∣ max layout.align 8 := by
  obtain ⟨k, -, hk⟩ := layout.exists_pow
  rcases le_total layout.align 8 with h | h
  · rw [max_eq_right h, hk, show 8 = 2 ^ 3 from rfl, Nat.pow_dvd_pow_iff_le_right']
    rwa [hk, show 8 = 2 ^ 3 from rfl, Nat.pow_le_pow_iff_right (by decide)] at h
  · rw [max_eq_left h]

def checkedAdd (a b : ℕ) : Option ℕ := if a + b < 2 ^ 64 then some (a + b) else none

/-! ## The bump allocator -/

/-- The result of an operation as a `u64`, `none` where the program stops. -/
def Profile.u64 : Profile → ℤ → Option ℕ
  | .dev, v => if 0 ≤ v ∧ v < 2 ^ 64 then some v.toNat else none
  | .release, v => some (v % 2 ^ 64).toNat

/-- Where a thread is in `alloc`: it has read the start of the heap, then its size and `next`. -/
inductive AllocPhase where
  | idle
  | loadSize (layout : Layout) (start : ℕ)
  | loadNext (layout : Layout) (heapEnd : ℕ)
  | exchange (layout : Layout) (heapEnd current : ℕ)
  | panicked

inductive AllocAction where
  | alloc (layout : Layout)
  | resume

/-- The allocator and the threads, with the blocks handed out: the layout asked for, and the span
from the address returned to the `next` that was put in place. -/
structure BumpAllocator where
  start : ℕ
  size : ℕ
  next : ℕ
  phase : ℕ → AllocPhase
  blocks : List (Layout × Span)

namespace BumpAllocator

/-- `saturating_add`. -/
def heapEnd (start size : ℕ) : ℕ := min (start + size) (2 ^ 64 - 1)

def init (heapStart heapSize : UInt64) : BumpAllocator :=
  ⟨heapStart.toNat, heapSize.toNat, heapStart.toNat, fun _ => .idle, []⟩

/-- What `alloc` computes from `current`: a block, null, or a panic. -/
def bump (profile : Profile) (layout : Layout) (heapEnd current : ℕ) : Option (Option Span) := do
  let align := max layout.align 8
  let size := max layout.size 8
  let sum ← profile.u64 (current + align)
  let sum ← profile.u64 (sum - 1)
  -- `& !(align - 1)`, for a power of two
  let aligned := sum / align * align
  match checkedAdd aligned size with
  | none => return none
  | some newNext => if heapEnd < newNext then none else return some ⟨aligned, newNext⟩

def step (profile : Profile) (b : BumpAllocator) (i : ℕ × AllocAction) : BumpAllocator :=
  let enter (phase : AllocPhase) : BumpAllocator :=
    { b with phase := Function.update b.phase i.1 phase }
  match b.phase i.1, i.2 with
  | .idle, .alloc layout => enter (.loadSize layout b.start)
  | .loadSize layout start, .resume => enter (.loadNext layout (heapEnd start b.size))
  | .loadNext layout heapEnd, .resume => enter (.exchange layout heapEnd b.next)
  | .exchange layout heapEnd current, .resume =>
    match bump profile layout heapEnd current with
    | none => enter .panicked
    | some none => enter .idle
    | some (some block) =>
      if b.next = current then
        { enter .idle with next := block.stop, blocks := b.blocks ++ [(layout, block)] }
      else enter (.exchange layout heapEnd b.next)
  | _, _ => b

variable {profile : Profile} {layout : Layout} {start size current stop : ℕ} {block : Span}

/-- The block is what the layout asks for, and lies between `start` and `stop`. -/
structure Serves (start stop : ℕ) (layout : Layout) (block : Span) : Prop where
  aligned : layout.align ∣ block.start
  start_le : start ≤ block.start
  size_le : block.start + layout.size ≤ block.stop
  stop_le : block.stop ≤ stop

/-- With or without overflow, one less than the sum comes out. -/
lemma u64_sub_one {v sum r : ℕ} (hv : profile = .release → v ≤ 2 ^ 64) (hpos : 0 < v)
    (hsum : profile.u64 v = some sum) (hr : profile.u64 (sum - 1) = some r) : r = v - 1 := by
  cases profile <;> simp only [Profile.u64, ite_none_right_eq_some, some.injEq,
    reduceCtorEq, forall_const] at * <;> omega

lemma serves_bump (hfits : profile = .release → current + max layout.align 8 ≤ 2 ^ 64)
    (h : bump profile layout stop current = some (some block)) :
    Serves current stop layout block := by
  simp only [bump, bind_eq_bind, bind_eq_some_iff] at h
  obtain ⟨sum, hsum, r, hr, h⟩ := h
  have hpos : 0 < max layout.align 8 := by omega
  have hround : r / max layout.align 8 * max layout.align 8
      = Span.alignUp (max layout.align 8) current := by
    rw [u64_sub_one hfits (by omega) (mod_cast hsum) hr, Span.alignUp, Nat.add_sub_assoc hpos]
  rw [hround] at h
  cases hnext : checkedAdd (Span.alignUp (max layout.align 8) current) (max layout.size 8) with
  | none =>
    rw [hnext] at h
    cases h
  | some newNext =>
    rw [hnext] at h
    obtain ⟨-, ⟨⟩⟩ := ite_none_right_eq_some.mp hnext
    obtain ⟨hroom, ⟨⟩⟩ := ite_none_left_eq_some.mp h
    exact ⟨layout.align_dvd_max.trans (Span.dvd_alignUp _ _), Span.le_alignUp hpos _,
      Nat.add_le_add_left (le_max_left ..) _, Nat.not_lt.mp hroom⟩

/-- The alignment does not lead beyond the addresses, where nothing else checks that. -/
def Fits (profile : Profile) (stop : ℕ) (layout : Layout) : Prop :=
  profile = .release → stop + max layout.align 8 ≤ 2 ^ 64

/-- What a thread has read: the heap, and an earlier `next`. -/
def PhaseSound (profile : Profile) (start stop : ℕ) : AllocPhase → Prop
  | .loadSize layout read => read = start ∧ Fits profile stop layout
  | .loadNext layout heapEnd => heapEnd = stop ∧ Fits profile stop layout
  | .exchange layout heapEnd current =>
    heapEnd = stop ∧ Fits profile stop layout ∧ start ≤ current ∧ current ≤ stop
  | _ => True

/-- The blocks follow one another, and `next` follows the blocks. -/
structure Sound (profile : Profile) (start size : ℕ) (b : BumpAllocator) : Prop where
  heap : b.start = start ∧ b.size = size
  next : start ≤ b.next ∧ b.next ≤ heapEnd start size
  phases : ∀ t, PhaseSound profile start (heapEnd start size) (b.phase t)
  serves : ∀ x ∈ b.blocks, Serves start b.next x.1 x.2
  ordered : b.blocks.Pairwise fun x y => x.2.stop ≤ y.2.start

variable {b : BumpAllocator}

lemma Sound.enter (h : b.Sound profile start size) (t : ℕ) {phase : AllocPhase}
    (hphase : PhaseSound profile start (heapEnd start size) phase) :
    Sound profile start size { b with phase := Function.update b.phase t phase } :=
  { h with
    phases := (Function.forall_update_iff b.phase fun _ => PhaseSound profile start _).mpr
      ⟨hphase, fun i _ => h.phases i⟩ }

/-- Where `next` is still what the thread has read, the block starts behind all others. -/
lemma Sound.exchange (h : b.Sound profile start size) (t : ℕ)
    (hserves : Serves b.next (heapEnd start size) layout block) :
    Sound profile start size
      { b with
        phase := Function.update b.phase t .idle
        next := block.stop
        blocks := b.blocks ++ [(layout, block)] } := by
  have hgrows : b.next ≤ block.stop := hserves.start_le.trans (le_self_add.trans hserves.size_le)
  have henter := h.enter t (show PhaseSound profile start (heapEnd start size) .idle from trivial)
  refine { henter with next := ?_, serves := ?_, ordered := ?_ }
  · exact ⟨h.next.1.trans hgrows, hserves.stop_le⟩
  · refine forall_mem_concat.mpr ⟨fun x hx => ?_, ?_⟩
    · exact { h.serves x hx with stop_le := (h.serves x hx).stop_le.trans hgrows }
    · exact { hserves with start_le := h.next.1.trans hserves.start_le, stop_le := le_rfl }
  · exact pairwise_concat.mpr
      ⟨h.ordered, fun x hx => (h.serves x hx).stop_le.trans hserves.start_le⟩

lemma Sound.step (h : b.Sound profile start size) {i : ℕ × AllocAction}
    (hi : ∀ layout, i.2 = .alloc layout → Fits profile (heapEnd start size) layout) :
    (b.step profile i).Sound profile start size := by
  obtain ⟨t, action⟩ := i
  have ht := h.phases t
  unfold BumpAllocator.step
  dsimp only
  split
  case h_1 layout _ => exact h.enter t ⟨h.heap.1, hi layout rfl⟩
  case h_2 hphase =>
    rw [hphase] at ht
    exact h.enter t ⟨by rw [ht.1, h.heap.2], ht.2⟩
  case h_3 hphase =>
    rw [hphase] at ht
    exact h.enter t ⟨ht.1, ht.2, h.next⟩
  case h_4 hphase =>
    rw [hphase] at ht
    obtain ⟨rfl, hfits, -, hstop⟩ := ht
    split
    case h_1 => exact h.enter t trivial
    case h_2 => exact h.enter t trivial
    case h_3 hblock =>
      split
      case isFalse => exact h.enter t ⟨rfl, hfits, h.next⟩
      case isTrue hsame =>
        subst hsame
        exact h.exchange t
          (serves_bump (fun hp => (Nat.add_le_add_right hstop _).trans (hfits hp)) hblock)
  case h_5 => exact h

/-- However the steps of the threads follow one another, every block that is handed out is aligned,
is large enough and lies in the heap, and no two of them overlap. -/
theorem bump_alloc (profile : Profile) (heapStart heapSize : UInt64)
    (actions : List (ℕ × AllocAction))
    (hfits : ∀ i ∈ actions, ∀ layout, i.2 = .alloc layout → profile = .release →
      heapEnd heapStart.toNat heapSize.toNat + max layout.align 8 ≤ 2 ^ 64) :
    let blocks := (run (step profile) (init heapStart heapSize) actions).blocks
    (∀ x ∈ blocks,
        Serves heapStart.toNat (heapEnd heapStart.toNat heapSize.toNat) x.1 x.2)
      ∧ blocks.Pairwise fun x y => x.2.Apart y.2 := by
  have hinit : (init heapStart heapSize).Sound profile heapStart.toNat heapSize.toNat :=
    ⟨⟨rfl, rfl⟩, ⟨le_rfl, le_min le_self_add (Nat.le_sub_one_of_lt heapStart.toNat_lt)⟩,
      fun _ => trivial, fun _ hx => absurd hx not_mem_nil, .nil⟩
  have hsteps : EachStep (step profile) (fun _ i => ∀ layout, i.2 = .alloc layout →
      Fits profile (heapEnd heapStart.toNat heapSize.toNat) layout) (init heapStart heapSize)
      actions :=
    fun pre i post heq => hfits i (by simp [heq])
  have h := run_invariant_of_eachStep hsteps hinit fun _ _ hi h => h.step hi
  exact ⟨fun x hx => { h.serves x hx with stop_le := (h.serves x hx).stop_le.trans h.next.2 },
    h.ordered.imp Span.apart_of_le⟩

/-- Two threads have read the same `next`, and the second one has to try again. -/
theorem bump_alloc_contended :
    let layout : Layout := ⟨12, 4, ⟨2, by decide⟩, by decide⟩
    let blocks := (run (step .release) (init 0x1000 0x100) [(0, .alloc layout), (1, .alloc layout),
      (0, .resume), (1, .resume), (0, .resume), (1, .resume), (0, .resume), (1, .resume),
      (1, .resume)]).blocks
    blocks.map Prod.snd = [⟨0x1000, 0x100C⟩, ⟨0x1010, 0x101C⟩]
      ∧ (∀ x ∈ blocks, Serves 0x1000 0x1100 x.1 x.2)
      ∧ blocks.Pairwise fun x y => x.2.Apart y.2 :=
  ⟨by decide, bump_alloc .release 0x1000 0x100 _ (by simp [heapEnd])⟩

/-- `next` moves only when a block is handed out, and a thread only in its own steps. -/
lemma step_cases (profile : Profile) (b : BumpAllocator) (i : ℕ × AllocAction) :
    ((b.step profile i).next = b.next ∧ (b.step profile i).blocks = b.blocks
        ∨ ∃ x, (b.step profile i).blocks = b.blocks ++ [x])
      ∧ ∀ t ≠ i.1, (b.step profile i).phase t = b.phase t := by
  unfold step
  dsimp only
  repeat' split
  all_goals simp +contextual [Function.update_of_ne]

/-- The loop of `alloc` is lock-free: a thread that has just read `next` is done with its next step,
however many steps the others make before it, unless one of them has got a block. -/
theorem alloc_lock_free (profile : Profile) (b : BumpAllocator) (t heapEnd : ℕ) (layout : Layout)
    (actions : List (ℕ × AllocAction)) :
    let read := { b with phase := Function.update b.phase t (.exchange layout heapEnd b.next) }
    let later := run (step profile) read (actions.filter (·.1 ≠ t))
    (later.step profile (t, .resume)).phase t = .idle
      ∨ (later.step profile (t, .resume)).phase t = .panicked
      ∨ b.blocks.length < later.blocks.length := by
  intro read
  let R (b later : BumpAllocator) : Prop := later.phase t = b.phase t
    ∧ (later.next = b.next ∧ later.blocks = b.blocks ∨ b.blocks.length < later.blocks.length)
  have hR : R read (run (step profile) read (actions.filter (·.1 ≠ t))) := by
    refine run_grows (P := (·.1 ≠ t)) (fun b => ⟨rfl, .inl ⟨rfl, rfl⟩⟩) ?_ ?_ read (by simp)
    · rintro b c d ⟨hphase, hc⟩ ⟨hphase', hd⟩
      exact ⟨hphase'.trans hphase, by grind⟩
    · intro b i hi
      obtain ⟨hsame | ⟨x, hx⟩, hphase⟩ := step_cases profile b i
      · exact ⟨hphase t hi.symm, .inl hsame⟩
      · exact ⟨hphase t hi.symm, .inr (by simp [hx])⟩
  obtain ⟨hphase, ⟨hnext, -⟩ | hmore⟩ := hR
  · have hread : read.phase t = .exchange layout heapEnd b.next := Function.update_self ..
    simp only [step, hphase, hread, hnext]
    split <;> simp [read]
  · exact .inr (.inr hmore)

end BumpAllocator

/-! ## The canary allocator -/

/-- The answers of the inner allocator: the start of a block that satisfies the layout, or zero. -/
structure InnerAlloc where
  alloc : Layout → ℕ
  dvd_alloc : ∀ layout, layout.align ∣ alloc layout

namespace DebugAlloc

variable {memory later : ℕ → UInt8} {address ptr : ℕ} {layout : Layout}

/-- A `u64` as its bytes, the lowest first. -/
abbrev Word := Fin 8 → UInt8

def canary : Word := ![0xef, 0xbe, 0xad, 0xde, 0xce, 0xfa, 0xed, 0xfe]

def readUnaligned (memory : ℕ → UInt8) (address : ℕ) : Word := fun i => memory (address + i)

def writeUnaligned (memory : ℕ → UInt8) (address : ℕ) (word : Word) : ℕ → UInt8 := fun a =>
  if h : address ≤ a ∧ a - address < 8 then word ⟨a - address, h.2⟩ else memory a

/-- How far the bytes of the user are from the start of the block; the source calls it `prefix`. -/
def offset (layout : Layout) : ℕ := max 8 layout.align

def newLayout (layout : Layout) : Option Layout := do
  let sum ← checkedAdd layout.size (offset layout)
  let totalSize ← checkedAdd sum 8
  Layout.fromSizeAlign totalSize (max layout.align 8)

/-- The memory afterwards and the pointer, null being zero. -/
def alloc (inner : InnerAlloc) (memory : ℕ → UInt8) (layout : Layout) : (ℕ → UInt8) × ℕ :=
  match newLayout layout with
  | none => (memory, 0)
  | some newLayout =>
    let raw := inner.alloc newLayout
    if raw = 0 then (memory, 0)
    else
      let userPtr := raw + offset layout
      let memory := writeUnaligned memory (userPtr - 8) canary
      (writeUnaligned memory (userPtr + layout.size) canary, userPtr)

/-- What is passed to the inner allocator, if anything, or the words of the panic. -/
def dealloc (memory : ℕ → UInt8) (ptr : ℕ) (layout : Layout) :
    Except (Word × Word) (Option (ℕ × Layout)) :=
  if ptr = 0 then .ok none
  else
    let head := readUnaligned memory (ptr - 8)
    let foot := readUnaligned memory (ptr + layout.size)
    if head ≠ canary ∨ foot ≠ canary then .error (head, foot)
    else .ok ((newLayout layout).map fun newLayout => (ptr - offset layout, newLayout))

/-- The bytes of a word in memory. -/
def word (address : ℕ) : Span := ⟨address, address + 8⟩

def user (layout : Layout) (ptr : ℕ) : Span := ⟨ptr, ptr + layout.size⟩

/-- A byte of a canary is not what it was. -/
def Changed (memory later : ℕ → UInt8) (ptr : ℕ) (layout : Layout) : Prop :=
  ∃ a, ((word (ptr - 8)).Contains a ∨ (word (ptr + layout.size)).Contains a) ∧ later a ≠ memory a

lemma readUnaligned_eq_iff : readUnaligned later address = readUnaligned memory address
    ↔ ∀ a, (word address).Contains a → later a = memory a := by
  rw [funext_iff]
  constructor
  · rintro h a ⟨hle, hlt⟩
    obtain ⟨i, rfl⟩ := Nat.exists_eq_add_of_le hle
    exact h ⟨i, Nat.lt_of_add_lt_add_left hlt⟩
  · exact fun h i => h _ ⟨Nat.le_add_right _ _, Nat.add_lt_add_left i.isLt _⟩

lemma readUnaligned_write (value : Word) :
    readUnaligned (writeUnaligned memory address value) address = value := by
  funext i
  simp [readUnaligned, writeUnaligned]

lemma readUnaligned_write_of_le {other : ℕ} (value : Word) (h : address + 8 ≤ other) :
    readUnaligned (writeUnaligned memory other value) address = readUnaligned memory address := by
  funext i
  exact dif_neg fun hin => by omega

/-- The block asked for has room for the bytes of the user and the two canaries. -/
lemma of_newLayout {new : Layout} (h : newLayout layout = some new) :
    new.size = layout.size + offset layout + 8 ∧ new.align = max layout.align 8 := by
  simp only [newLayout, checkedAdd, Layout.fromSizeAlign, bind_eq_bind,
    bind_eq_some_iff, ite_none_right_eq_some, dite_none_right_eq_some] at h
  obtain ⟨_, ⟨-, ⟨⟩⟩, _, ⟨-, ⟨⟩⟩, _, ⟨⟩⟩ := h
  exact ⟨rfl, rfl⟩

lemma dealloc_spec (hptr : ptr ≠ 0) (hhead : readUnaligned memory (ptr - 8) = canary)
    (hfoot : readUnaligned memory (ptr + layout.size) = canary) (later : ℕ → UInt8) :
    ((∃ words, dealloc later ptr layout = .error words) ↔ Changed memory later ptr layout)
      ∧ (¬ Changed memory later ptr layout → dealloc later ptr layout
        = .ok ((newLayout layout).map (ptr - offset layout, ·))) := by
  have hchanged : (readUnaligned later (ptr - 8) ≠ canary
      ∨ readUnaligned later (ptr + layout.size) ≠ canary) ↔ Changed memory later ptr layout := by
    nth_rewrite 1 [← hhead]
    rw [← hfoot, Ne, Ne, readUnaligned_eq_iff, readUnaligned_eq_iff, Changed]
    push Not
    simp only [or_and_right, exists_or]
  rw [dealloc, if_neg hptr, ← hchanged]
  dsimp only
  split <;> simp_all

/-- `alloc` returns null or a pointer that is aligned and has its canaries inside the inner block,
beside the bytes of the user. Whatever then becomes of the memory, `dealloc` panics exactly if a
canary has changed, and else passes the inner block on. -/
theorem debug_alloc (inner : InnerAlloc) (memory : ℕ → UInt8) (layout : Layout) :
    let (after, ptr) := alloc inner memory layout
    ptr = 0 ∨ ∃ new, layout.align ∣ ptr
      ∧ (inner.alloc new ≤ ptr - 8 ∧ ptr + layout.size + 8 ≤ inner.alloc new + new.size)
      ∧ ((word (ptr - 8)).Apart (user layout ptr)
        ∧ (word (ptr + layout.size)).Apart (user layout ptr))
      ∧ ∀ later : ℕ → UInt8,
        ((∃ words, dealloc later ptr layout = .error words) ↔ Changed after later ptr layout)
          ∧ (¬ Changed after later ptr layout →
            dealloc later ptr layout = .ok (some (inner.alloc new, new))) := by
  unfold alloc
  cases hnew : newLayout layout with
  | none => exact .inl rfl
  | some new =>
    dsimp only
    split
    case isTrue => exact .inl rfl
    case isFalse =>
      obtain ⟨hsize, halign⟩ := of_newLayout hnew
      have hoffset : 8 ≤ offset layout := le_max_left ..
      have hraw : layout.align ∣ inner.alloc new :=
        layout.align_dvd_max.trans (halign ▸ inner.dvd_alloc new)
      have hdvd : layout.align ∣ offset layout := by
        rw [offset, max_comm]
        exact layout.align_dvd_max
      refine .inr ⟨new, hraw.add hdvd, ⟨by omega, by omega⟩,
        ⟨Span.apart_of_le ?_, Span.apart_of_ge le_rfl⟩, fun later => ?_⟩
      · exact (Nat.sub_add_cancel (by omega)).le
      · have hpassed : (newLayout layout).map (inner.alloc new + offset layout - offset layout, ·)
            = some (inner.alloc new, new) := by
          rw [hnew, map_some, Nat.add_sub_cancel]
        rw [← hpassed]
        refine dealloc_spec (by omega) ?_ (readUnaligned_write _) later
        rw [readUnaligned_write_of_le _ (by omega), readUnaligned_write]

/-- An inner allocator with a kilobyte from the address `0x1010` on. -/
def kilobyte : InnerAlloc where
  alloc layout :=
    let start := Span.alignUp layout.align 0x1010
    if start + layout.size ≤ 0x1410 then start else 0
  dvd_alloc layout := by
    dsimp only
    split
    · exact Span.dvd_alignUp _ _
    · exact dvd_zero _

/-- The layout of 24 bytes at the start of a cache line. -/
def cacheLine : Layout := ⟨24, 64, ⟨6, by decide, rfl⟩, by decide⟩

theorem debug_alloc_cacheLine :
    (alloc kilobyte (fun _ => 0) cacheLine).2 = 0x1080
      ∧ ∃ new, kilobyte.alloc new ≤ 0x1078 ∧ 0x10a0 ≤ kilobyte.alloc new + new.size
        ∧ dealloc (alloc kilobyte (fun _ => 0) cacheLine).1 0x1080 cacheLine
          = .ok (some (kilobyte.alloc new, new)) := by
  have hptr : (alloc kilobyte (fun _ => 0) cacheLine).2 = 0x1080 := by decide +kernel
  have h := debug_alloc kilobyte (fun _ => 0) cacheLine
  cases halloc : alloc kilobyte (fun _ => 0) cacheLine with
  | mk after ptr =>
    rw [halloc] at h hptr
    obtain rfl : ptr = 0x1080 := hptr
    obtain hnull | ⟨new, -, ⟨hstart, hstop⟩, -, hlater⟩ := h
    · cases hnull
    · exact ⟨rfl, new, hstart, hstop, (hlater after).2 fun ⟨_, _, hne⟩ => hne rfl⟩

end DebugAlloc

end ThingOS
