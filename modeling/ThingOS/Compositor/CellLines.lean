import ThingOS.Compositor.CellLayout

/-!
# Rows and columns

The loop of a row adds up the sizes and the gaps, so that the last cell ends where the container
does and the position behind it is one gap further on. The children are counted in 32 bits; those
that the count leaves out come behind the last cell.
-/

namespace ThingOS.Compositor.CellLayout

open EqualCells

variable {c : EqualCells} {rect : ℤ → ℕ → Rect} {pos : ℤ} {children : List LayoutItem}

/-- The loop of a row or a column after the computations before it. -/
def place (c : EqualCells) (rect : ℤ → ℕ → Rect) :
    List LayoutItem → ℕ → ℤ → Except LayoutPanic (List (Uuid × Rect)) :=
  placeCells rect c.size c.count c.item (countedGaps c) c.gap

lemma line_eq_ok (hc : Bounded c) (hchildren : children.length % 2 ^ 32 = c.count)
    {rects : List (Uuid × Rect)} :
    line rect pos c.size children c.gap = .ok rects
      ↔ Prepared c ∧ place c rect children 0 pos = .ok rects := by
  simp only [line, hchildren, Checked.bind_eq_ok, totalGap, i32_eq_ok, available_eq_ok hc,
    divU32_eq_ok]
  constructor
  · rintro ⟨_, ⟨htotal, rfl⟩, _, ⟨hrest, rfl⟩, _, ⟨hcount, rfl⟩, h⟩
    have hprepared : Prepared c := ⟨Nat.pos_of_ne_zero hcount, htotal, hrest⟩
    rw [← countedGaps, item_eq hc hprepared] at h
    exact ⟨hprepared, h⟩
  · rintro ⟨hprepared, h⟩
    rw [place, ← item_eq hc hprepared] at h
    exact ⟨_, ⟨hprepared.total, rfl⟩, _, ⟨hprepared.rest, rfl⟩, _,
      ⟨hprepared.count_pos.ne', rfl⟩, h⟩

/-- Where the cells of a row start. The children after the last cell are those that the count, cut
to 32 bits, leaves out. -/
def lineOffset (c : EqualCells) (k : ℕ) : ℕ :=
  if k < c.count then c.offset k else c.size + c.gap + (k - c.count) * (c.item + c.gap)

lemma lineOffset_zero (hpos : 0 < c.count) : lineOffset c 0 = 0 := by
  rw [lineOffset, if_pos hpos, offset, Nat.zero_mul]

lemma lineOffset_count : lineOffset c c.count = c.size + c.gap := by
  rw [lineOffset, if_neg (lt_irrefl _), Nat.sub_self, Nat.zero_mul, Nat.add_zero]

lemma lineOffset_succ (hpos : 0 < c.count) {k : ℕ} (hk : k = c.count - 1 → c.gaps ≤ c.size) :
    lineOffset c (k + 1) = lineOffset c k + c.extent k + c.gap := by
  rcases Nat.lt_trichotomy (k + 1) c.count with hlt | heq | hgt
  · grind [lineOffset, offset, extent]
  · have hlast : k = c.count - 1 := by omega
    rw [heq, lineOffset_count, lineOffset, if_pos (by omega), hlast,
      offset_last_add_extent hpos (hk hlast)]
  · have hnext : k + 1 - c.count = k - c.count + 1 := by omega
    rw [lineOffset, lineOffset, if_neg (by omega), if_neg (by omega), extent,
      if_neg (by omega), hnext, Nat.succ_mul]
    omega

section Loop

variable (rect pos) (hc : Bounded c) (h : Prepared c)

include hc h

/-- One turn of the loop. -/
lemma place_cons (child : LayoutItem) (children : List LayoutItem) (i : ℕ)
    (rects : List (Uuid × Rect)) :
    place c rect (child :: children) i (pos + lineOffset c i) = .ok rects
      ↔ ((i = c.count - 1 → c.gaps ≤ c.size) ∧ InI32 (pos + lineOffset c (i + 1)))
        ∧ ∃ rest, place c rect children (i + 1) (pos + lineOffset c (i + 1)) = .ok rest
          ∧ (child.id, rect (pos + lineOffset c i) (c.extent i)) :: rest = rects := by
  have hsize := hc.size_le
  have hgap := hc.gap_le
  have hextent := c.extent_le i
  have hcast : asI32 (c.extent i) = c.extent i := asI32_of_inI32 ⟨by omega, by omega⟩
  have hnext : (i = c.count - 1 → c.gaps ≤ c.size) →
      pos + lineOffset c i + (c.extent i + c.gap) = pos + lineOffset c (i + 1) := fun hcell => by
    rw [lineOffset_succ h.count_pos hcell]
    push_cast
    ring
  simp only [place, placeCells, Checked.bind_eq_ok, cellSize_eq_ok hc h, i32_eq_ok,
    Except.ok.injEq]
  constructor
  · grind
  · rintro ⟨⟨hcell, hin⟩, rest, hrest, hrects⟩
    refine ⟨_, ⟨hcell, rfl⟩, c.extent i + c.gap, ⟨?_, by rw [hcast]⟩, _, ⟨?_, hnext hcell⟩, rest,
      hrest, hrects⟩
    · rw [hcast]
      exact ⟨by omega, by omega⟩
    · rw [hnext hcell]
      exact hin

lemma place_eq_ok (children : List LayoutItem) (i : ℕ) (rects : List (Uuid × Rect)) :
    place c rect children i (pos + lineOffset c i) = .ok rects
      ↔ (∀ k, i ≤ k → k < i + children.length →
          (k = c.count - 1 → c.gaps ≤ c.size) ∧ InI32 (pos + lineOffset c (k + 1)))
        ∧ (children.zipIdx i).map (fun p =>
          (p.1.id, rect (pos + lineOffset c p.2) (c.extent p.2))) = rects := by
  induction children generalizing i rects with
  | nil =>
    rw [place, placeCells, Except.ok.injEq]
    exact ⟨fun hnil => ⟨fun k hk hk' => absurd hk' (by simpa using hk), hnil⟩, fun hnil => hnil.2⟩
  | cons child children ih =>
    rw [place_cons rect pos hc h, List.zipIdx_cons, List.map_cons, List.length_cons]
    simp only [ih]
    constructor
    · grind
    · rintro ⟨hall, rfl⟩
      exact ⟨hall i le_rfl (by omega), _, ⟨fun k hk hk' => hall k (by omega) (by omega), rfl⟩, rfl⟩

end Loop

/-- The gaps fit, the count is not cut or all but one of the children get nothing, and the position
behind the last child with its gap is an `i32`. -/
structure LineFits (pos : ℤ) (size n gap : ℕ) : Prop where
  gaps : (n - 1) * gap ≤ size
  count : n < 2 ^ 32 ∨ size < n % 2 ^ 32
  stop : pos + size + gap < 2 ^ 31

lemma prepared_of_gaps (hc : Bounded c) (hpos : 0 < c.count) (hgaps : c.gaps ≤ c.size) :
    Prepared c := by
  have hsize := hc.size_le
  rcases countedGaps_eq hc with heq | ⟨-, -, hwrapped⟩
  · refine ⟨hpos, ?_, ?_⟩ <;> rw [heq] <;> exact ⟨by omega, by omega⟩
  · omega

lemma lineOffset_mono (hpos : 0 < c.count) (hgaps : c.gaps ≤ c.size) :
    Monotone (lineOffset c) :=
  monotone_nat_of_le_succ fun k => by
    rw [lineOffset_succ hpos fun _ => hgaps]
    omega

section Fits

variable {n : ℕ} (hcount : n % 2 ^ 32 = c.count)

include hcount

/-- All the cells are inside. -/
lemma LineFits.lineOffset_add_extent_le (hfits : LineFits pos c.size n c.gap)
    (hsize : c.size ≤ 2 ^ 30) {k : ℕ} (hk : k < n) : lineOffset c k + c.extent k ≤ c.size := by
  have hgaps := hfits.gaps
  by_cases hcell : k < c.count
  · have hle : k * c.gap ≤ (n - 1) * c.gap := Nat.mul_le_mul_right _ (by omega)
    rw [lineOffset, if_pos hcell]
    exact offset_add_extent_le hcell (hle.trans hgaps)
  · -- the count was cut, so that there is no gap and the cells have no size
    have hsmall := hfits.count.resolve_left (by omega)
    have hzero : c.gap = 0 := by
      by_contra hne
      have hle : (n - 1) * 1 ≤ (n - 1) * c.gap := Nat.mul_le_mul_left _ (by omega)
      omega
    have hitem : c.item = 0 := Nat.div_eq_of_lt (by omega)
    rw [lineOffset, if_neg hcell, extent, if_neg (by omega), hitem, hzero]
    simp

/-- If the count is cut, the child after the last cell has to be inside, too. -/
lemma lineFits_of_inside (hpos : 0 < c.count) (hgaps : c.gaps ≤ c.size)
    (hstop : pos + lineOffset c n < 2 ^ 31)
    (hbehind : c.count < n → lineOffset c c.count + c.extent c.count ≤ c.size) :
    LineFits pos c.size n c.gap := by
  rw [lineOffset_count] at hbehind
  by_cases hsmall : n < 2 ^ 32
  · rw [Nat.mod_eq_of_lt hsmall] at hcount
    rw [hcount, lineOffset_count] at hstop
    exact ⟨hcount ▸ hgaps, .inl hsmall, by omega⟩
  · have hinside := hbehind (by omega)
    rw [extent, if_neg (by omega)] at hinside
    have hzero : c.gap = 0 := by omega
    have hitem : c.item = 0 := by omega
    have hlt : c.size < c.count := by
      rcases Nat.div_eq_zero_iff.mp hitem with h | h
      · omega
      · simpa [gaps, hzero] using h
    rw [lineOffset, if_neg (by omega), hitem, hzero] at hstop
    exact ⟨by simp [hzero], .inr (by omega), by omega⟩

end Fits

lemma line_arranged_iff {container : Rect} (hc : Bounded c) (hpos : InI32 pos)
    (hwithin : ∀ (p : ℤ) (w : ℕ), (rect p w).Within container ↔ pos ≤ p ∧ p + w ≤ pos + c.size)
    (hapart : ∀ (p p' : ℤ) (w w' : ℕ), p + w ≤ p' → (rect p w).Apart (rect p' w'))
    (hchildren : children ≠ []) (hlength : children.length % 2 ^ 32 = c.count) :
    (∃ rects, line rect pos c.size children c.gap = .ok rects
        ∧ Arranged container children rects)
      ↔ LineFits pos c.size children.length c.gap := by
  have hn : 0 < children.length := List.length_pos_iff.mpr hchildren
  have hstart : 0 < c.count → pos = pos + lineOffset c 0 := fun hcount => by
    rw [lineOffset_zero hcount, Nat.cast_zero, add_zero]
  let cell : LayoutItem → ℕ → Rect := fun _ k => rect (pos + lineOffset c k) (c.extent k)
  constructor
  · rintro ⟨rects, hline, harranged⟩
    obtain ⟨hprepared, hplace⟩ := (line_eq_ok hc hlength).mp hline
    have hcount := hprepared.count_pos
    rw [hstart hcount] at hplace
    obtain ⟨hchecks, rfl⟩ := (place_eq_ok rect pos hc hprepared children 0 rects).mp hplace
    have hgaps := (hchecks (c.count - 1) (by omega) (by omega)).1 rfl
    have hstop := (hchecks (children.length - 1) (by omega) (by omega)).2.2
    rw [Nat.sub_add_cancel hn] at hstop
    refine lineFits_of_inside hlength hcount hgaps hstop fun hlt => ?_
    have hbehind := (hwithin _ _).mp <| ((arranged_zipIdx_iff cell).mp harranged).1 _ _
      (List.getElem?_eq_getElem hlt)
    omega
  · intro hfits
    have hcount : 0 < c.count := by
      rcases hfits.count with h | h <;> omega
    have hgaps : c.gaps ≤ c.size := (Nat.mul_le_mul_right _ (by omega)).trans hfits.gaps
    have hprepared := prepared_of_gaps hc hcount hgaps
    have hinside := fun k (hk : k < children.length) =>
      hfits.lineOffset_add_extent_le hlength hc.size_le hk
    have hplace := (place_eq_ok rect pos hc hprepared children 0 _).mpr ⟨fun k _ hk => ?_, rfl⟩
    · rw [← hstart hcount] at hplace
      refine ⟨_, (line_eq_ok hc hlength).mpr ⟨hprepared, hplace⟩,
        (arranged_zipIdx_iff cell).mpr ⟨fun i a hi => ?_, fun i j a b hij hi hj => ?_⟩⟩
      · have hcell := hinside i (List.getElem?_eq_some_iff.mp hi).1
        exact (hwithin _ _).mpr ⟨by omega, by omega⟩
      · have hmono := lineOffset_mono hcount hgaps hij
        rw [Nat.succ_eq_add_one, lineOffset_succ hcount fun _ => hgaps] at hmono
        exact hapart _ _ _ _ (by omega)
    · have hstop := hfits.stop
      have hcell := hinside k (by omega)
      have hlow := hpos.1
      refine ⟨fun _ => hgaps, ?_⟩
      rw [lineOffset_succ hcount fun _ => hgaps]
      exact ⟨by omega, by omega⟩

end ThingOS.Compositor.CellLayout
