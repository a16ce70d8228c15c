import Mathlib

/-!
# Spans of addresses

A span is a half-open interval of natural numbers. Cutting holes out of one, from left to right,
leaves exactly the points that lie in no hole, provided the holes are sorted by their starts. The
aligned blocks of a span are the blocks of a given size, at multiples of that size, that lie wholly
inside.
-/

namespace ThingOS

open List

/-- The addresses from `start` up to, but not including, `stop`. -/
structure Span where
  start : ℕ
  stop : ℕ
deriving DecidableEq

variable {start stop : ℕ} {holes : List Span}

namespace Span

variable {r s : Span} {x unit : ℕ}

def Contains (r : Span) (x : ℕ) : Prop := r.start ≤ x ∧ x < r.stop
deriving Decidable

/-- No address lies in both. -/
def Apart (r s : Span) : Prop := ∀ x, r.Contains x → ¬ s.Contains x

lemma apart_of_le (h : r.stop ≤ s.start) : r.Apart s :=
  fun _ hr hs => Nat.not_le.mpr hr.2 (h.trans hs.1)

lemma apart_of_ge (h : s.stop ≤ r.start) : r.Apart s :=
  fun _ hr hs => Nat.not_le.mpr hs.2 (h.trans hr.1)

/-! ## Cutting holes -/

/-- The span as a list: none if it is empty. -/
def piece (start stop : ℕ) : List Span := if start < stop then [⟨start, stop⟩] else []

/-- What is left of the span from `start` to `stop` when the holes are cut out from left to
right. -/
def cut (stop : ℕ) : (start : ℕ) → (holes : List Span) → List Span
  | start, [] => piece start stop
  | start, hole :: holes =>
    piece start (min stop hole.start) ++ cut stop (max start hole.stop) holes

@[simp] lemma mem_piece :
    r ∈ piece start stop ↔ start < stop ∧ r = ⟨start, stop⟩ := by
  unfold piece
  split <;> simp_all

/-- What is left lies inside, and is not empty. -/
lemma of_mem_cut (h : r ∈ cut stop start holes) :
    start ≤ r.start ∧ r.start < r.stop ∧ r.stop ≤ stop := by
  induction holes generalizing start with
  | nil =>
    obtain ⟨hlt, rfl⟩ := mem_piece.mp h
    exact ⟨le_rfl, hlt, le_rfl⟩
  | cons hole holes ih =>
    rcases mem_append.mp h with h | h
    · obtain ⟨hlt, rfl⟩ := mem_piece.mp h
      exact ⟨le_rfl, hlt, min_le_left _ _⟩
    · obtain ⟨hstart, hlt, hstop⟩ := ih h
      exact ⟨(le_max_left _ _).trans hstart, hlt, hstop⟩

def Sorted (holes : List Span) : Prop := holes.Pairwise fun h k => h.start ≤ k.start

lemma cut_sound (hsorted : Sorted holes)
    (h : r ∈ cut stop start holes) (hx : r.Contains x) : ∀ hole ∈ holes, ¬ hole.Contains x := by
  induction holes generalizing start with
  | nil => exact fun hole hmem => absurd hmem not_mem_nil
  | cons first holes ih =>
    obtain ⟨hfirst, hsorted⟩ := pairwise_cons.mp hsorted
    intro hole hmem hhole
    rcases mem_append.mp h with h | h
    · -- the piece before the first hole is also before all later ones
      obtain ⟨-, rfl⟩ := mem_piece.mp h
      have hlt : x < first.start := hx.2.trans_le (min_le_right _ _)
      have hle : first.start ≤ hole.start := by
        rcases mem_cons.mp hmem with rfl | hmem
        · exact le_rfl
        · exact hfirst hole hmem
      exact absurd hhole.1 (Nat.not_le.mpr (hlt.trans_le hle))
    · rcases mem_cons.mp hmem with rfl | hmem
      · have hstart := (of_mem_cut h).1
        have hstop : hole.stop ≤ x := (le_max_right _ _).trans (hstart.trans hx.1)
        exact absurd hhole.2 (Nat.not_lt.mpr hstop)
      · exact ih hsorted h hole hmem hhole

/-- The pieces that are left are apart from one another: each starts where a hole has ended that
the one before has not reached. -/
lemma pairwise_apart_cut (hholes : ∀ hole ∈ holes, hole.start ≤ hole.stop) :
    (cut stop start holes).Pairwise Apart := by
  induction holes generalizing start with
  | nil =>
    unfold cut piece
    split
    · exact pairwise_singleton _ _
    · exact List.Pairwise.nil
  | cons first holes ih =>
    refine pairwise_append.mpr ⟨?_, ih fun hole hmem => hholes hole
      (mem_cons_of_mem _ hmem), ?_⟩
    · unfold piece
      split
      · exact pairwise_singleton _ _
      · exact List.Pairwise.nil
    · intro p hp q hq x hxp hxq
      obtain ⟨-, rfl⟩ := mem_piece.mp hp
      have hlt : x < first.start := hxp.2.trans_le (min_le_right _ _)
      have hle : first.stop ≤ x := (le_max_right _ _).trans ((of_mem_cut hq).1.trans hxq.1)
      have := hholes first mem_cons_self
      omega

/-! ## Aligned blocks -/

/-- The next multiple of `unit`. -/
def alignUp (unit x : ℕ) : ℕ := (x + (unit - 1)) / unit * unit

lemma le_alignUp (hunit : 0 < unit) (x : ℕ) : x ≤ alignUp unit x := by
  have h := Nat.div_add_mod (x + (unit - 1)) unit
  have hmod := Nat.mod_lt (x + (unit - 1)) hunit
  rw [alignUp, Nat.mul_comm]
  omega

lemma dvd_alignUp (unit x : ℕ) : unit ∣ alignUp unit x := Nat.dvd_mul_left _ _

/-- There is no smaller multiple. -/
lemma alignUp_le {y : ℕ} (hunit : 0 < unit) (hdvd : unit ∣ y) (h : x ≤ y) :
    alignUp unit x ≤ y := by
  obtain ⟨k, rfl⟩ := hdvd
  have hdiv : (x + (unit - 1)) / unit ≤ k := by
    apply Nat.le_of_lt_succ
    rw [Nat.div_lt_iff_lt_mul hunit, Nat.succ_mul, Nat.mul_comm k unit]
    omega
  rw [alignUp, Nat.mul_comm]
  exact Nat.mul_le_mul_left unit hdiv

lemma alignUp_of_dvd (hunit : 0 < unit) (hdvd : unit ∣ x) : alignUp unit x = x :=
  (alignUp_le hunit hdvd le_rfl).antisymm (le_alignUp hunit x)

/-- The starts of the aligned blocks that lie wholly inside, in ascending order. -/
def blocks (unit : ℕ) (r : Span) : List ℕ :=
  (List.range ((r.stop - alignUp unit r.start) / unit)).map fun i =>
    alignUp unit r.start + i * unit

lemma mem_blocks (hunit : 0 < unit) :
    x ∈ r.blocks unit ↔ unit ∣ x ∧ r.start ≤ x ∧ x + unit ≤ r.stop := by
  have hfirst := dvd_alignUp unit r.start
  have hle := le_alignUp hunit r.start
  simp only [blocks, mem_map, mem_range, Nat.lt_iff_add_one_le,
    Nat.le_div_iff_mul_le hunit, Nat.succ_mul]
  constructor
  · rintro ⟨i, hi, rfl⟩
    exact ⟨Nat.dvd_add hfirst (Nat.dvd_mul_left _ _), by omega, by omega⟩
  · rintro ⟨hdvd, hstart, hstop⟩
    have hlow := alignUp_le hunit hdvd hstart
    obtain ⟨i, hi⟩ := Nat.dvd_sub hdvd hfirst
    rw [Nat.mul_comm] at hi
    exact ⟨i, by omega, by omega⟩

lemma pairwise_lt_blocks (hunit : 0 < unit) (r : Span) : (r.blocks unit).Pairwise (· < ·) := by
  unfold blocks
  rw [pairwise_map]
  refine pairwise_lt_range.imp ?_
  intro i j hij
  have := Nat.mul_lt_mul_of_pos_right hij hunit
  omega

/-- The blocks of a span are its first one, if there is room for it, and those of the rest. -/
lemma blocks_eq (hunit : 0 < unit) (r : Span) :
    r.blocks unit = if alignUp unit r.start + unit ≤ r.stop
      then alignUp unit r.start :: blocks unit ⟨alignUp unit r.start + unit, r.stop⟩ else [] := by
  -- both sides ascend, so it is enough that they have the same members
  have hrest := pairwise_lt_blocks hunit ⟨alignUp unit r.start + unit, r.stop⟩
  have hle := le_alignUp hunit r.start
  split
  case isTrue hroom =>
    refine (pairwise_lt_blocks hunit r).eq_of_mem_iff (pairwise_cons.mpr ⟨?_, hrest⟩) ?_
    · intro x hx
      obtain ⟨-, hstart, -⟩ := (mem_blocks hunit).mp hx
      exact (Nat.lt_add_of_pos_right hunit).trans_le hstart
    · intro x
      rw [mem_cons, mem_blocks hunit, mem_blocks hunit]
      constructor
      · rintro ⟨hdvd, hstart, hstop⟩
        have hlow := alignUp_le hunit hdvd hstart
        refine hlow.eq_or_lt.imp Eq.symm fun hlt => ⟨hdvd, ?_, hstop⟩
        have hgap := Nat.le_of_dvd (Nat.sub_pos_of_lt hlt)
          (Nat.dvd_sub hdvd (dvd_alignUp unit r.start))
        dsimp only
        omega
      · rintro (rfl | ⟨hdvd, hstart, hstop⟩)
        · exact ⟨dvd_alignUp unit r.start, hle, hroom⟩
        · exact ⟨hdvd, by dsimp only at hstart; omega, hstop⟩
  case isFalse hroom =>
    refine eq_nil_iff_forall_not_mem.mpr fun x hx => hroom ?_
    obtain ⟨hdvd, hstart, hstop⟩ := (mem_blocks hunit).mp hx
    exact (Nat.add_le_add_right (alignUp_le hunit hdvd hstart) unit).trans hstop

/-- A span between multiples of `unit` consists of whole blocks. -/
lemma contains_block (hunit : 0 < unit) (hstart : unit ∣ r.start) (hstop : unit ∣ r.stop) :
    r.Contains (x / unit * unit) ↔ r.Contains x := by
  obtain ⟨i, hi⟩ := hstart
  obtain ⟨j, hj⟩ := hstop
  unfold Contains
  rw [hi, hj, Nat.mul_comm unit i, Nat.mul_comm unit j, Nat.mul_le_mul_right_iff hunit,
    Nat.mul_lt_mul_right hunit, Nat.le_div_iff_mul_le hunit, Nat.div_lt_iff_lt_mul hunit]

lemma block_mem_blocks (hunit : 0 < unit) (hstart : unit ∣ r.start) (hstop : unit ∣ r.stop)
    (hx : r.Contains x) : x / unit * unit ∈ r.blocks unit := by
  have hblock := (contains_block hunit hstart hstop).mpr hx
  refine (mem_blocks hunit).mpr ⟨Nat.dvd_mul_left _ _, hblock.1, ?_⟩
  have hgap := Nat.le_of_dvd (Nat.sub_pos_of_lt hblock.2)
    (Nat.dvd_sub hstop (Nat.dvd_mul_left unit (x / unit)))
  omega

end Span

end ThingOS
