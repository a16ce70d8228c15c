import ThingOS.Kernel.Mm.Pools

/-!
# Allocation from the general pools

When the boot frame allocator over the general pools can be asked for frames until none are left
without stopping. The pools leave out the first megabyte and what is carved out of the largest
region; `allocate_frame` refuses frames below 16 MiB and in a stack range.
-/

namespace ThingOS

open Checked List

namespace BootFrameAllocator

open PoolManager (drawn reservedLow ptSize stackSize largestIdx Recorded generalPart
  inside_generalPart)

variable {entries : List MemoryRegion} {pm : PoolManager} {a b : BootFrameAllocator} {r : Span}
  {f : ℕ}

/-- The range in which `allocate_frame` refuses a frame. -/
def stackRange : Span := ⟨0x37a5000, 0x4000000⟩

lemma checkFrame_eq_ok {bounds : Option SanityBounds} : checkFrame bounds f = .ok () ↔
    f < physAddrSize ∧ ¬ stackRange.Contains f ∧ checkReservedRanges bounds f = .ok () := by
  constructor
  · intro h
    obtain ⟨_, hphys, h⟩ := bind_eq_ok.mp h
    obtain ⟨_, hstack, h⟩ := bind_eq_ok.mp h
    exact ⟨of_require hphys, of_require hstack, h⟩
  · rintro ⟨hphys, hstack, h⟩
    have hstack : ¬ (0x37a5000 ≤ f ∧ f < 0x4000000) := hstack
    unfold checkFrame
    rw [require_of _ hphys, ok_bind, require_of _ hstack, ok_bind]
    exact h

/-- The search for a frame can look at the range, and every address in it may be handed out. -/
structure Harmless (r : Span) : Prop where
  fits : r.start + pageSize < u64Size
  allowed : ∀ x, r.Contains x →
    x < physAddrSize ∧ ¬ sanityForbiddenRange.Contains x ∧ ¬ stackRange.Contains x

lemma harmless_iff (hlow : reservedLow ≤ r.start) (hordered : r.start ≤ r.stop) : Harmless r ↔
    (r.start = r.stop ∧ r.stop + 0x1000 < 2 ^ 64)
      ∨ 0x1000000 ≤ r.start ∧ r.stop ≤ 2 ^ 52
        ∧ (r.stop ≤ 0x37a5000 ∨ 0x4000000 ≤ r.start) := by
  constructor
  · rintro ⟨hfits, hallowed⟩
    simp only [Span.Contains, physAddrSize, sanityForbiddenRange, stackRange, pageSize, u64Size,
      reservedLow] at *
    by_cases hempty : r.start = r.stop
    · omega
    -- the first address, the last one and the first that may be in the stack range
    · have hfirst := hallowed r.start (by omega)
      have hlast := hallowed (r.stop - 1) (by omega)
      have hstack := hallowed (max r.start 0x37a5000)
      omega
  · refine fun h => ⟨by simp only [pageSize, u64Size]; omega, fun x hx => ?_⟩
    simp only [Span.Contains, physAddrSize, sanityForbiddenRange, stackRange] at *
    omega

/-- What the pools leave of each of the first 32 recorded regions is empty, or starts at or above
16 MiB, ends at or below `2 ^ 52` and is apart from the stack range. They leave what lies above the
first megabyte, without the 8 MiB carved out of the largest region. -/
def HarmlessMap (entries : List MemoryRegion) : Prop :=
  ∀ e ∈ ((entries.take 128).zipIdx.filter fun e => Recorded e.1).take 32,
    let low := max e.1.base reservedLow
    let stop := e.1.base + e.1.len
    let start := if e.2 = largestIdx (entries.take 128)
      ∧ ptSize + stackSize + pageSize ≤ stop - low then low + ptSize + stackSize else low
    (start = stop ∧ stop + 0x1000 < 2 ^ 64)
      ∨ 0x1000000 ≤ start ∧ stop ≤ 2 ^ 52 ∧ (stop ≤ 0x37a5000 ∨ 0x4000000 ≤ start)
deriving Decidable

lemma harmlessMap_iff : HarmlessMap entries ↔ ∀ r ∈ drawn entries, Harmless r := by
  simp only [drawn, ← map_take, forall_mem_map]
  refine forall₂_congr fun e he => ?_
  have hinside := @inside_generalPart (largestIdx (entries.take 128)) e
    (of_decide_eq_true (mem_filter.mp (mem_of_mem_take he)).2)
  rw [collectMemoryRegions, harmless_iff hinside.low hinside.ordered, generalPart,
    apply_ite Span.start, apply_ite Span.stop, ite_self]
  rfl

/-- What is known of the ranges that the search has passed. -/
structure Visited (a : BootFrameAllocator) : Prop where
  next : ∀ range, a.usableRanges.list[a.currentRange]? = some range → range.start ≤ a.next
  passed : ∀ i < a.currentRange, ∀ range, a.usableRanges.list[i]? = some range →
    range.start + pageSize < u64Size

/-- A search that returns has computed the end of a page from the start of each range it passed. If
it finds nothing, it has passed them all. -/
lemma Visited.allocateFrom {left : ℕ} {found : Option ℕ} (h : a.Visited)
    (hleft : a.usableRanges.list.length - a.currentRange ≤ left)
    (hok : allocateFrom left a = .ok (found, b)) :
    b.Visited ∧ b.usableRanges = a.usableRanges
      ∧ (found = none → a.usableRanges.list.length ≤ b.currentRange) := by
  induction left generalizing a with
  | zero =>
    cases hok
    exact ⟨h, rfl, fun _ => Nat.le_of_sub_eq_zero (Nat.le_zero.mp hleft)⟩
  | succ left ih =>
    cases hrange : a.usableRanges.list[a.currentRange]? with
    | none =>
      rw [BootFrameAllocator.allocateFrom, hrange] at hok
      cases hok
      exact ⟨h, rfl, fun _ => getElem?_eq_none_iff.mp hrange⟩
    | some range =>
      rw [allocateFrom_succ hrange] at hok
      split at hok
      case isFalse => cases hok
      case isTrue hfits =>
        have hstart : range.start ≤ Span.alignUp pageSize a.next :=
          (h.next range hrange).trans (Span.le_alignUp pageSize_pos _)
        split at hok
        case isTrue =>
          cases hok
          refine ⟨⟨fun other hother => ?_, h.passed⟩, rfl, fun hnone => by cases hnone⟩
          cases hrange.symm.trans hother
          exact hstart.trans (Nat.le_add_right _ _)
        case isFalse =>
          refine ih (a := a.nextRange)
            ⟨fun other hother => ?_, fun i hi other hother => ?_⟩ ?_ hok
          · have hother : a.usableRanges.list[a.currentRange + 1]? = some other := hother
            simp only [nextRange, hother, le_refl]
          · rcases Nat.lt_succ_iff_lt_or_eq.mp hi with hlt | rfl
            · exact h.passed i hlt other hother
            · cases hrange.symm.trans hother
              exact (Nat.add_le_add_right hstart _).trans_lt hfits.2
          · show a.usableRanges.list.length - (a.currentRange + 1) ≤ left
            omega

lemma visited_of_start {first : Span} {rest : List Span} (hcurrent : a.currentRange = 0)
    (hfirst : a.usableRanges.list = first :: rest) (hnext : a.next = first.start) : a.Visited := by
  refine ⟨fun range hrange => ?_, fun i hi => ?_⟩
  · rw [hcurrent, hfirst, getElem?_cons_zero, Option.some.injEq] at hrange
    rw [hnext, hrange]
  · rw [hcurrent] at hi
    exact absurd hi (Nat.not_lt_zero i)

section

variable (hvisited : a.Visited)
  (hruns : ∀ n, ∃ result, a.allocateFrames (List.replicate n none) = .ok result)
include hvisited hruns

/-- If allocation never stops, every state is reached in which some of the frames have been handed
out. -/
lemma reaches {n : ℕ} :
    ∃ b : BootFrameAllocator, b.remaining = a.remaining.drop n ∧ b.Visited
      ∧ b.usableRanges = a.usableRanges ∧ ∃ result, b.allocateFrame none = .ok result := by
  obtain ⟨result, hresult⟩ := hruns (n + 1)
  rw [allocateFrames_eq_calls, replicate_succ'] at hresult
  obtain ⟨xs, b, hb, hlast⟩ := Supply.of_calls_concat hresult
  have hcalls := @Supply.calls_spec _ _ _ _ (fun now a => allocateFrame a now) remaining
    (fun _ => True) (fun b => b.Visited ∧ b.usableRanges = a.usableRanges) (fun _ => True) ?_
    (List.replicate n none) (fun _ _ => trivial) a ⟨hvisited, rfl⟩
  · grind
  rintro now b - ⟨hb, hranges⟩
  rcases allocateFrame_spec 0 now b
    with ⟨c, hc, hremaining, -, hinternal, -⟩ | ⟨hb, -⟩ | ⟨_, -, p, -, hb⟩
  · obtain ⟨hvisited, hsame, -⟩ := hb.allocateFrom le_rfl hinternal
    exact .inl ⟨c, hc, hremaining, hvisited, hsame.trans hranges⟩
  · exact .inr ⟨_, hb, trivial⟩
  · exact .inr ⟨_, hb, trivial⟩

/-- If allocation never stops, all frames pass the checks. -/
lemma checkFrame_of_runs (hf : f ∈ a.remaining) : checkFrame none f = .ok () := by
  obtain ⟨n, hn⟩ := mem_iff_getElem?.mp hf
  obtain ⟨b, hremaining, -, -, result, hresult⟩ := reaches (n := n) hvisited hruns
  have hhead : b.remaining.head? = some f := by rw [hremaining, head?_drop, hn]
  rcases allocateFrame_spec 0 none b with ⟨_, -, -, -, -, hcheck⟩ | ⟨hb, -⟩ | ⟨_, -, p, -, hb⟩
  · exact hcheck f hhead
  · cases hresult.symm.trans hb
  · cases hresult.symm.trans hb

/-- If allocation never stops, the search has looked at every range. -/
lemma fits_of_runs (hr : r ∈ a.usableRanges.list) : r.start + pageSize < u64Size := by
  obtain ⟨b, hremaining, hb, hsame, result, hresult⟩ :=
    reaches (n := a.remaining.length) hvisited hruns
  rw [drop_length] at hremaining
  obtain ⟨⟨found, c⟩, hfound, -⟩ := bind_eq_ok.mp hresult
  have hnone : found = none := by
    rcases allocateFrom_spec (a := b) 0 le_rfl with ⟨_, hc, -⟩ | ⟨hc, -⟩
    · cases hfound.symm.trans hc
      rw [hremaining, head?_nil]
    · cases hfound.symm.trans hc
  obtain ⟨hc, hranges, hall⟩ := hb.allocateFrom le_rfl hfound
  obtain ⟨i, hi⟩ := mem_iff_getElem?.mp hr
  have hlt : i < c.currentRange := by
    rw [hsame] at hall
    exact (List.getElem?_eq_some_iff.mp hi).1.trans_le (hall hnone)
  refine hc.passed i hlt r ?_
  rw [hranges, hsame]
  exact hi

end

/-- What is true of every frame of an aligned range is true of every address. -/
lemma harmless_of_frames (hstart : pageSize ∣ r.start) (hstop : pageSize ∣ r.stop)
    (hfits : r.start + pageSize < u64Size)
    (hframes : ∀ f ∈ r.blocks pageSize, checkFrame none f = .ok ()) : Harmless r := by
  refine ⟨hfits, fun x hx => ?_⟩
  have hmem := Span.block_mem_blocks pageSize_pos hstart hstop hx
  obtain ⟨hphys, hstack, hwindow⟩ := checkFrame_eq_ok.mp (hframes _ hmem)
  obtain ⟨_, hwindow, -⟩ := bind_eq_ok.mp hwindow
  refine ⟨?_, fun h => of_require hwindow ?_, fun h => hstack ?_⟩
  · have hspan : (⟨0, physAddrSize⟩ : Span).Contains (x / pageSize * pageSize) :=
      ⟨Nat.zero_le _, hphys⟩
    exact ((Span.contains_block pageSize_pos (by decide) (by decide)).mp hspan).2
  all_goals exact (Span.contains_block pageSize_pos (by decide) (by decide)).mpr h

lemma within_of_harmless (hne : ∃ first rest, a.usableRanges.list = first :: rest
      ∧ a.next = first.start) (hranges : ∀ r ∈ a.usableRanges.list, Harmless r ∧ r.start ≤ r.stop
      ∧ pageSize ∣ r.start) : a.Within searchLimit := by
  have hall : ∀ r ∈ a.usableRanges.list, r.start ≤ r.stop ∧ r.stop ≤ searchLimit := by
    intro r hr
    obtain ⟨hharmless, hordered, ⟨k, hk⟩⟩ := hranges r hr
    refine ⟨hordered, ?_⟩
    rcases hordered.eq_or_lt with heq | hlt
    · have hfits := hharmless.fits
      simp only [searchLimit, u64Size, pageSize] at hk hfits ⊢
      omega
    · obtain ⟨hphys, -⟩ := hharmless.allowed (r.stop - 1) ⟨by omega, by omega⟩
      simp only [searchLimit, u64Size, pageSize, physAddrSize] at hphys ⊢
      omega
  obtain ⟨first, rest, hfirst, hnext⟩ := hne
  obtain ⟨hordered, hstop⟩ := hall first (hfirst ▸ mem_cons_self)
  exact ⟨hnext ▸ hordered.trans hstop, hall⟩

/-- Frames of harmless ranges pass the checks, whatever bounds are known by then. -/
lemma checkFrame_of_harmless {bounds : Option SanityBounds} (hr : r ∈ drawn entries)
    (hharmless : Harmless r) (hexcludes : ∀ known ∈ bounds, Excludes entries known)
    (hf : f ∈ r.blocks pageSize) : checkFrame bounds f = .ok () := by
  obtain ⟨-, hstart, hstop⟩ := (Span.mem_blocks pageSize_pos).mp hf
  have hin : r.Contains f := ⟨hstart, (Nat.lt_add_of_pos_right pageSize_pos).trans_le hstop⟩
  obtain ⟨hphys, hwindow, hstack⟩ := hharmless.allowed f hin
  obtain ⟨region, hregion, hkind, hinside, -⟩ := of_mem_drawn hr
  refine checkFrame_eq_ok.mpr ⟨hphys, hstack, ?_⟩
  exact checkReservedRanges_of_usable hexcludes hregion hkind
    ⟨hinside.start.trans hin.1, hin.2.trans_le hinside.stop⟩ hwindow

/-- Over harmless ranges no allocation stops. -/
lemma allocateFrames_of_harmless (hwithin : a.Within searchLimit)
    (hcheck : ∀ now, (∀ known ∈ now, Excludes entries known) → ∀ f ∈ a.remaining,
      checkFrame now f = .ok ()) (bounds : List (Option SanityBounds))
    (hexcludes : ∀ now ∈ bounds, ∀ known ∈ now, Excludes entries known) :
    ∃ result, a.allocateFrames bounds = .ok result := by
  rw [allocateFrames_eq_calls]
  have hcalls := @Supply.calls_spec _ _ _ _ (fun now a => allocateFrame a now) remaining
    (fun now => ∀ known ∈ now, Excludes entries known)
    (fun b => b.remaining ⊆ a.remaining ∧ b.Within searchLimit) (fun _ => False) ?_ bounds hexcludes
    a ⟨List.Subset.refl _, hwithin⟩
  · rcases hcalls with ⟨b, hb, -⟩ | ⟨-, -, h⟩
    · exact ⟨_, hb⟩
    · exact h.elim
  rintro now b hnow ⟨hsub, hb⟩
  rcases allocateFrame_spec searchLimit now b
    with ⟨c, hc, hremaining, hnext, -⟩ | ⟨-, hlimit⟩ | ⟨f, hf, p, hp, -⟩
  · exact .inl ⟨c, hc, hremaining, fun f hf => hsub (mem_of_mem_tail (hremaining ▸ hf)),
      hnext hb⟩
  · exact absurd hb hlimit
  · cases (hcheck now hnow f (hsub hf)).symm.trans hp

/-- Allocation from the pools never stops exactly if what they leave of the memory map is out of the
way of the checks. -/
theorem advanced_never_stops (halign : Aligned entries) (hnew : newAdvanced entries = .ok (pm, a)) :
    (∀ bounds, (∀ now ∈ bounds, ∀ known ∈ now, Excludes entries known) →
        ∃ result, a.allocateFrames bounds = .ok result)
      ↔ HarmlessMap entries := by
  obtain ⟨hinit, hpools⟩ := of_newAdvanced hnew
  obtain ⟨hperm, hcurrent, first, rest, hfirst, hnext⟩ := of_newFromPools hpools
  rw [PoolManager.generalRanges_eq_drawn hinit] at hperm
  have hframes : a.remaining = a.frames := remaining_of_start hcurrent hfirst hnext
  rw [harmlessMap_iff]
  refine ⟨fun hnever r hr => ?_, fun hharmless bounds hexcludes => ?_⟩
  · have hvisited := visited_of_start hcurrent hfirst hnext
    have hruns : ∀ n, ∃ result, a.allocateFrames (List.replicate n none) = .ok result := by
      refine fun n => hnever _ fun now hnow known hknown => ?_
      rw [eq_of_mem_replicate hnow] at hknown
      cases hknown
    have hmem := hperm.mem_iff.mpr hr
    obtain ⟨-, -, -, -, hdvd⟩ := of_mem_drawn hr
    obtain ⟨hstart, hstop⟩ := hdvd halign
    refine harmless_of_frames hstart hstop (fits_of_runs hvisited hruns hmem) fun f hf => ?_
    exact checkFrame_of_runs hvisited hruns (hframes ▸ mem_flatMap.mpr ⟨r, hmem, hf⟩)
  · refine allocateFrames_of_harmless ?_ ?_ bounds hexcludes
    · refine within_of_harmless ⟨first, rest, hfirst, hnext⟩ fun r hr => ?_
      have hr := hperm.mem_iff.mp hr
      obtain ⟨_, -, -, hinside, hdvd⟩ := of_mem_drawn hr
      exact ⟨hharmless r hr, hinside.ordered, (hdvd halign).1⟩
    · intro now hnow f hf
      rw [hframes] at hf
      obtain ⟨r, hr, hf⟩ := mem_flatMap.mp hf
      have hr := hperm.mem_iff.mp hr
      exact checkFrame_of_harmless hr (hharmless r hr) hnow hf

def twoPages : List MemoryRegion := [⟨0x1000000, 0x2000, .usable⟩]

theorem advanced_never_stops_twoPages :
    ∃ a, newAdvanced twoPages = .ok a
      ∧ ∀ bounds, (∀ now ∈ bounds, ∀ known ∈ now, Excludes twoPages known) →
        ∃ result, a.2.allocateFrames bounds = .ok result := by
  have halign : Aligned twoPages := by unfold Aligned; decide
  have hnew : ∃ a, newAdvanced twoPages = .ok a := ⟨_, rfl⟩
  obtain ⟨⟨pm, a⟩, hnew⟩ := hnew
  exact ⟨_, hnew, (advanced_never_stops halign hnew).mpr (by decide)⟩

/-- With one usable region from 1 MiB to 128 MiB the first general frame lies in the forbidden
window. With memory around the start of the stack range the allocator gets as far as that. -/
theorem general_frame_forbidden :
    Aligned [⟨0x100000, 0x7F00000, .usable⟩] ∧ DisjointUsable [⟨0x100000, 0x7F00000, .usable⟩]
      ∧ (newAdvanced [⟨0x100000, 0x7F00000, .usable⟩]).bind
          (fun a => a.2.allocateFrames [none]) = .error (.forbiddenRange 0x900000)
      ∧ (newAdvanced [⟨0x37A4000, 0x5C000, .usable⟩]).bind
          (fun a => a.2.allocateFrames [none, none]) = .error (.stackRange 0x37a5000) := by
  refine ⟨by unfold Aligned; decide, pairwise_singleton _ _, ?_, ?_⟩
  · rfl
  · rfl

end BootFrameAllocator

end ThingOS
