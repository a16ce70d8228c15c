import ThingOS.Compositor.CellLines

/-!
# Grids

Whether a cell of a grid can be computed and is inside the container is decided by the last column
and the last row in use: the gaps up to there have to fit, also when there are fewer children than
columns. The last cell of a direction takes what is left, and there gaps that do not fit underflow.
-/

namespace ThingOS.Compositor.CellLayout

open List

/-! ## A cell along one direction -/

section Cells

variable {pos : ℤ} {c : EqualCells} {last i : ℕ}

/-- Where a cell starts, as the code computes it. -/
def countedOffset (c : EqualCells) (i : ℕ) : ℤ := asI32 i * (c.item + c.gap)

lemma cellPos_eq_ok (hc : Bounded c) {x : ℤ} :
    cellPos pos c.item c.gap i = .ok x
      ↔ (InI32 (countedOffset c i) ∧ InI32 (pos + countedOffset c i))
        ∧ pos + countedOffset c i = x := by
  have hsize := hc.size_le
  have hgap := hc.gap_le
  have hitem := c.item_le
  have hstep : InI32 (c.item + c.gap) := ⟨by omega, by omega⟩
  rw [cellPos, asI32_of_inI32 ⟨by omega, by omega⟩]
  simp only [Checked.bind_eq_ok, i32_eq_ok]
  constructor
  · rintro ⟨_, ⟨-, rfl⟩, _, ⟨hoffset, rfl⟩, hstart, rfl⟩
    exact ⟨⟨hoffset, hstart⟩, rfl⟩
  · rintro ⟨⟨hoffset, hstart⟩, rfl⟩
    exact ⟨_, ⟨hstep, rfl⟩, _, ⟨hoffset, rfl⟩, hstart, rfl⟩

lemma countedOffset_of_step_zero (hzero : c.item + c.gap = 0) (i : ℕ) :
    countedOffset c i = 0 ∧ c.offset i = 0 := by
  have hzero' : (c.item : ℤ) + c.gap = 0 := by exact_mod_cast hzero
  rw [countedOffset, EqualCells.offset, hzero, hzero']
  simp

lemma countedOffset_of_asI32 (hcast : asI32 i = i) : countedOffset c i = c.offset i := by
  rw [countedOffset, EqualCells.offset, hcast]
  push_cast
  rfl

/-- A cell of the grid can be computed along one direction. -/
structure CellOk (pos : ℤ) (c : EqualCells) (i : ℕ) : Prop where
  shift : InI32 (countedOffset c i)
  start : InI32 (pos + countedOffset c i)
  last : i = c.count - 1 → c.gaps ≤ c.size

/-- The gaps up to the last cell in use fit, and so does where it starts. -/
structure AxisFits (pos : ℤ) (c : EqualCells) (last : ℕ) : Prop where
  prepared : Prepared c
  gaps : last * c.gap ≤ c.size
  stop : pos + c.offset last < 2 ^ 31

lemma AxisFits.cell (h : AxisFits pos c last) (hc : Bounded c) (hi : i ≤ last)
    (hlt : i < c.count) :
    countedOffset c i = c.offset i ∧ c.offset i + c.extent i ≤ c.size := by
  have hsize := hc.size_le
  have hinside := EqualCells.offset_add_extent_le hlt
    ((Nat.mul_le_mul_right _ hi).trans h.gaps)
  refine ⟨?_, hinside⟩
  rcases Nat.eq_zero_or_pos (c.item + c.gap) with hzero | hpos
  · obtain ⟨hcounted, hoffset⟩ := countedOffset_of_step_zero hzero i
    rw [hcounted, hoffset, Nat.cast_zero]
  · have hle : i ≤ c.offset i := Nat.le_mul_of_pos_right i hpos
    exact countedOffset_of_asI32 (asI32_of_inI32 ⟨by omega, by omega⟩)

lemma AxisFits.cellOk (h : AxisFits pos c last) (hc : Bounded c) (hpos : InI32 pos)
    (hi : i ≤ last) (hlt : i < c.count) : CellOk pos c i := by
  obtain ⟨heq, hinside⟩ := h.cell hc hi hlt
  have hmono : c.offset i ≤ c.offset last := Nat.mul_le_mul_right _ hi
  have hstop := h.stop
  have hlow := hpos.1
  have hsize := hc.size_le
  refine ⟨?_, ?_, ?_⟩
  · rw [heq]
    exact ⟨by omega, by omega⟩
  · rw [heq]
    exact ⟨by omega, by omega⟩
  · rintro rfl
    exact (Nat.mul_le_mul_right _ hi).trans h.gaps

lemma CellOk.axisFits (h : CellOk pos c last) (hprepared : Prepared c) (hlast : last < 2 ^ 32)
    (hlow : 0 ≤ countedOffset c last) (hhigh : countedOffset c last ≤ c.size) :
    AxisFits pos c last := by
  have hstart := h.start.2
  rcases Nat.eq_zero_or_pos (c.item + c.gap) with hzero | hpos
  · obtain ⟨hcounted, hoffset⟩ := countedOffset_of_step_zero hzero last
    have hgap : c.gap = 0 := by omega
    exact ⟨hprepared, by simp [hgap], by omega⟩
  · have hnonneg : 0 ≤ asI32 last := nonneg_of_mul_nonneg_left hlow (by omega)
    have hcast : asI32 last = last := by
      unfold asI32 at *
      rw [Int.bmod_def] at *
      omega
    rw [countedOffset_of_asI32 hcast] at hstart hhigh
    have hgaps : last * c.gap ≤ c.offset last := Nat.mul_le_mul_left _ (by omega)
    exact ⟨hprepared, by omega, hstart⟩

end Cells

/-! ## The loop -/

/-- A grid, with its numbers of rows and columns in 32 bits. -/
structure Table where
  container : Rect
  rows : ℕ
  cols : ℕ
  gap : ℕ

namespace Table

variable (t : Table)

abbrev across : EqualCells := ⟨t.container.width, t.cols, t.gap⟩

abbrev down : EqualCells := ⟨t.container.height, t.rows, t.gap⟩

def col (i : ℕ) : ℕ := i % 2 ^ 32 % t.cols

def row (i : ℕ) : ℕ := i % 2 ^ 32 / t.cols

def cell (child : LayoutItem) (i : ℕ) : Rect where
  x := t.container.x + countedOffset t.across (t.col i)
  y := t.container.y + countedOffset t.down (t.row i)
  width := atMost (t.across.extent (t.col i)) child.maxWidth
  height := atMost (t.down.extent (t.row i)) child.maxHeight

structure Bounded : Prop where
  across : CellLayout.Bounded t.across
  down : CellLayout.Bounded t.down

def Computed (i : ℕ) : Prop :=
  CellOk t.container.x t.across (t.col i) ∧ CellOk t.container.y t.down (t.row i)

/-- The loop after the computations before it. -/
def place : List LayoutItem → ℕ → Except LayoutPanic (List (Uuid × Rect)) :=
  placeGrid t.container t.rows t.cols t.across.item t.down.item (countedGaps t.across)
    (countedGaps t.down) t.gap

/-- The children that the loop comes to before it breaks off. -/
def reached (children : List LayoutItem) (i : ℕ) : List (LayoutItem × ℕ) :=
  (children.zipIdx i).takeWhile fun p => t.row p.2 < t.rows

end Table

/-- The children that get a cell. The indices are cut to 32 bits, so that a grid with more cells
than that never runs out of them. -/
def gridChildren (rows cols : ℕ) (children : List LayoutItem) : List LayoutItem :=
  if rows * cols < 2 ^ 32 then children.take (rows * cols) else children

section Loop

variable {t : Table} (ht : t.Bounded) {children : List LayoutItem} {rects : List (Uuid × Rect)}

include ht

lemma grid_eq_ok {rows cols : ℕ} (hrows : max rows 1 % 2 ^ 32 = t.rows)
    (hcols : max cols 1 % 2 ^ 32 = t.cols) :
    grid t.container rows cols children t.gap = .ok rects
      ↔ (Prepared t.across ∧ Prepared t.down) ∧ t.place children 0 = .ok rects := by
  simp only [grid, hrows, hcols, Checked.bind_eq_ok, totalGap, i32_eq_ok, divU32_eq_ok,
    available_eq_ok ht.across, available_eq_ok ht.down]
  constructor
  · rintro ⟨_, ⟨htotalX, rfl⟩, _, ⟨htotalY, rfl⟩, _, ⟨hrestX, rfl⟩, _, ⟨hrestY, rfl⟩, _,
      ⟨hcountX, rfl⟩, _, ⟨hcountY, rfl⟩, h⟩
    have hx : Prepared t.across := ⟨Nat.pos_of_ne_zero hcountX, htotalX, hrestX⟩
    have hy : Prepared t.down := ⟨Nat.pos_of_ne_zero hcountY, htotalY, hrestY⟩
    rw [Table.place, ← item_eq ht.across hx, ← item_eq ht.down hy]
    exact ⟨⟨hx, hy⟩, h⟩
  · rintro ⟨⟨hx, hy⟩, h⟩
    rw [Table.place, ← item_eq ht.across hx, ← item_eq ht.down hy] at h
    exact ⟨_, ⟨hx.total, rfl⟩, _, ⟨hy.total, rfl⟩, _, ⟨hx.rest, rfl⟩, _, ⟨hy.rest, rfl⟩, _,
      ⟨hx.count_pos.ne', rfl⟩, _, ⟨hy.count_pos.ne', rfl⟩, h⟩

lemma Table.place_eq_ok (hx : Prepared t.across) (hy : Prepared t.down)
    (children : List LayoutItem) (i : ℕ) (rects : List (Uuid × Rect)) :
    t.place children i = .ok rects
      ↔ (∀ p ∈ t.reached children i, t.Computed p.2)
        ∧ (t.reached children i).map (fun p => (p.1.id, t.cell p.1 p.2)) = rects := by
  induction children generalizing i rects with
  | nil => simp [Table.place, placeGrid, Table.reached]
  | cons child children ih =>
    rw [Table.place] at ih ⊢
    have hi : i % 2 ^ 32 / t.cols = t.row i := rfl
    rw [placeGrid, hi, Table.reached, zipIdx_cons]
    by_cases hrow : t.rows ≤ t.row i
    · rw [if_pos hrow, takeWhile_cons_of_neg (by simpa using hrow)]
      simp
    · rw [if_neg hrow, takeWhile_cons_of_pos (by simpa using hrow), map_cons,
        forall_mem_cons]
      simp only [Checked.bind_eq_ok, cellPos_eq_ok ht.across, cellPos_eq_ok ht.down,
        cellSize_eq_ok ht.across hx, cellSize_eq_ok ht.down hy, Except.ok.injEq, ih]
      constructor
      · rintro ⟨_, ⟨⟨hshiftX, hstartX⟩, rfl⟩, _, ⟨⟨hshiftY, hstartY⟩, rfl⟩, _, ⟨hlastX, rfl⟩, _,
          ⟨hlastY, rfl⟩, _, ⟨hrest, rfl⟩, rfl⟩
        exact ⟨⟨⟨⟨hshiftX, hstartX, hlastX⟩, hshiftY, hstartY, hlastY⟩, hrest⟩, rfl⟩
      · rintro ⟨⟨⟨hcellX, hcellY⟩, hrest⟩, rfl⟩
        exact ⟨_, ⟨⟨hcellX.shift, hcellX.start⟩, rfl⟩, _, ⟨⟨hcellY.shift, hcellY.start⟩, rfl⟩, _,
          ⟨hcellX.last, rfl⟩, _, ⟨hcellY.last, rfl⟩, _, ⟨hrest, rfl⟩, rfl⟩

end Loop

lemma takeWhile_zipIdx {α : Type} (l : List α) (q : ℕ → Prop) [DecidablePred q] {m : ℕ}
    (hbefore : ∀ k < m, q k) (hat : m < l.length → ¬ q m) :
    (l.zipIdx.takeWhile fun p => q p.2) = (l.take m).zipIdx := by
  conv_lhs => rw [← take_append_drop m l, zipIdx_append]
  rw [takeWhile_append_of_pos fun p hp => ?_]
  · by_cases hm : m < l.length
    · rw [drop_eq_getElem_cons hm, zipIdx_cons,
        takeWhile_cons_of_neg (by simpa [hm.le] using hat hm), append_nil]
    · simp [drop_eq_nil_of_le (Nat.not_lt.mp hm)]
  · have hlt := snd_lt_of_mem_zipIdx hp
    rw [length_take] at hlt
    exact decide_eq_true (hbefore _ (by omega))

section Placed

variable {t : Table} {children : List LayoutItem}

lemma reached_eq (hcols : 0 < t.cols) :
    t.reached children 0 = (gridChildren t.rows t.cols children).zipIdx := by
  have hrow {k : ℕ} : t.row k < t.rows ↔ k % 2 ^ 32 < t.rows * t.cols :=
    Nat.div_lt_iff_lt_mul hcols
  unfold gridChildren
  split
  · rename_i hfew
    refine takeWhile_zipIdx children (fun k => t.row k < t.rows) (fun k hk => ?_) fun _ => ?_
    · exact hrow.mpr ((Nat.mod_le _ _).trans_lt hk)
    · rw [hrow, Nat.mod_eq_of_lt hfew]
      exact lt_irrefl _
  · rename_i hmany
    have hall := takeWhile_zipIdx children (fun k => t.row k < t.rows) (m := children.length)
      (fun k _ => hrow.mpr ((Nat.mod_lt _ (by norm_num)).trans_le (Nat.not_lt.mp hmany)))
      fun hlt => absurd hlt (lt_irrefl _)
    rwa [take_length] at hall

lemma row_lt (hcols : 0 < t.cols) {k : ℕ} {a : LayoutItem}
    (hk : (gridChildren t.rows t.cols children)[k]? = some a) : t.row k < t.rows := by
  have hmem := List.mk_mem_zipIdx_iff_getElem?.mpr hk
  rw [← reached_eq hcols] at hmem
  simpa using mem_takeWhile_imp hmem

lemma gridChildren_ne_nil {rows cols : ℕ} (hrows : 0 < rows) (hcols : 0 < cols)
    (hchildren : children ≠ []) : gridChildren rows cols children ≠ [] := by
  have hcells := Nat.mul_pos hrows hcols
  unfold gridChildren
  split
  · simpa [hchildren] using hcells.ne'
  · exact hchildren

end Placed

/-! ## Which grids fit -/

/-- A child that is left without an area. -/
def Table.NoArea (t : Table) (child : LayoutItem) (i : ℕ) : Prop :=
  (t.cell child i).width = 0 ∨ (t.cell child i).height = 0

lemma Table.NoArea.not_holds {t : Table} {child : LayoutItem} {i : ℕ} (h : t.NoArea child i)
    (x y : ℤ) : ¬ (t.cell child i).Holds x y := by
  unfold Rect.Holds
  rcases h with h | h <;> rw [h] <;> omega

lemma Table.holds_corner {t : Table} {child : LayoutItem} {i : ℕ} (h : ¬ t.NoArea child i) :
    (t.cell child i).Holds (t.cell child i).x (t.cell child i).y := by
  unfold NoArea at h
  exact ⟨⟨le_rfl, by omega⟩, le_rfl, by omega⟩

/-- The columns and the rows in use fit, and of two children in one cell one has no area. That two
children get one cell takes more than `2 ^ 32` of them. -/
structure GridFits (t : Table) (placed : List LayoutItem) : Prop where
  columns : AxisFits t.container.x t.across (min placed.length t.cols - 1)
  lines : AxisFits t.container.y t.down ((min placed.length (2 ^ 32) - 1) / t.cols)
  shared : ∀ i j a b, i < j → placed[i]? = some a → placed[j]? = some b →
    i % 2 ^ 32 = j % 2 ^ 32 → t.NoArea a i ∨ t.NoArea b j

lemma atMost_le (n : ℕ) (bound : Option ℕ) : atMost n bound ≤ n := by
  cases bound with
  | none => exact le_rfl
  | some b => exact min_le_left n b

section Grid

variable {t : Table} {placed : List LayoutItem} {i j : ℕ} {a b : LayoutItem}

lemma GridFits.col_le (h : GridFits t placed) (hi : i < placed.length) :
    t.col i ≤ min placed.length t.cols - 1 ∧ t.col i < t.cols := by
  have hpos : 0 < t.cols := h.columns.prepared.count_pos
  have hlt := Nat.mod_lt (i % 2 ^ 32) hpos
  have hle := Nat.mod_le (i % 2 ^ 32) t.cols
  unfold Table.col
  omega

lemma Table.row_le (hi : i < placed.length) :
    t.row i ≤ (min placed.length (2 ^ 32) - 1) / t.cols :=
  Nat.div_le_div_right (by omega)

section

variable (h : GridFits t placed) (ht : t.Bounded) (hi : i < placed.length) (hrow : t.row i < t.rows)
  (child : LayoutItem)
include h ht hi hrow

/-- The place of a child's cell and that it is inside. -/
lemma GridFits.cell_spec : ((t.cell child i).x = t.container.x + t.across.offset (t.col i)
      ∧ (t.cell child i).width ≤ t.across.extent (t.col i)
      ∧ t.across.offset (t.col i) + t.across.extent (t.col i) ≤ t.container.width)
    ∧ (t.cell child i).y = t.container.y + t.down.offset (t.row i)
      ∧ (t.cell child i).height ≤ t.down.extent (t.row i)
      ∧ t.down.offset (t.row i) + t.down.extent (t.row i) ≤ t.container.height := by
  obtain ⟨hcol, hlt⟩ := h.col_le hi
  obtain ⟨hx, hinsideX⟩ := h.columns.cell ht.across hcol hlt
  obtain ⟨hy, hinsideY⟩ := h.lines.cell ht.down (Table.row_le hi) hrow
  refine ⟨⟨?_, atMost_le _ _, hinsideX⟩, ?_, atMost_le _ _, hinsideY⟩
  · rw [Table.cell, hx]
  · rw [Table.cell, hy]

lemma GridFits.within : (t.cell child i).Within t.container := by
  obtain ⟨⟨hx, hw, hinsideX⟩, hy, hh, hinsideY⟩ := h.cell_spec ht hi hrow child
  exact ⟨⟨by omega, by omega⟩, by omega, by omega⟩

end

lemma GridFits.apart (h : GridFits t placed) (ht : t.Bounded) (hij : i < j)
    (hi : placed[i]? = some a) (hj : placed[j]? = some b) (hrow : t.row i < t.rows)
    (hrow' : t.row j < t.rows) : (t.cell a i).Apart (t.cell b j) := by
  have hilt := (List.getElem?_eq_some_iff.mp hi).1
  have hjlt := (List.getElem?_eq_some_iff.mp hj).1
  obtain ⟨⟨hx, hw, -⟩, hy, hh, -⟩ := h.cell_spec ht hilt hrow a
  obtain ⟨⟨hx', hw', -⟩, hy', hh', -⟩ := h.cell_spec ht hjlt hrow' b
  by_cases hindex : i % 2 ^ 32 = j % 2 ^ 32
  · intro x y ⟨ha, hb⟩
    rcases h.shared i j a b hij hi hj hindex with hnone | hnone
    · exact hnone.not_holds x y ha
    · exact hnone.not_holds x y hb
  apply apart_of_separated
  by_cases hcol : t.col i = t.col j
  · have hne : t.row i ≠ t.row j := fun heq => hindex <| by
      rw [← Nat.div_add_mod (i % 2 ^ 32) t.cols, ← Nat.div_add_mod (j % 2 ^ 32) t.cols]
      exact congrArg₂ (t.cols * · + ·) heq hcol
    have hseparated := EqualCells.separated_of_ne (c := t.down) hne hrow hrow'
    omega
  · have hseparated := EqualCells.separated_of_ne (c := t.across) hcol (h.col_le hilt).2
      (h.col_le hjlt).2
    omega

/-- The last column and the last row in use decide. -/
lemma gridFits_of_within (hx : Prepared t.across) (hy : Prepared t.down)
    (hcols : t.cols < 2 ^ 32) (hm : 0 < placed.length) (hcells : ∀ i < placed.length, t.Computed i)
    (hwithin : ∀ i a, placed[i]? = some a → (t.cell a i).Within t.container)
    (hapart : ∀ i j a b, i < j → placed[i]? = some a → placed[j]? = some b →
      (t.cell a i).Apart (t.cell b j)) : GridFits t placed := by
  have hpos : 0 < t.cols := hx.count_pos
  refine ⟨?_, ?_, fun i j a b hij hi hj hindex => ?_⟩
  · have hlast : min placed.length t.cols - 1 < placed.length := by omega
    have hcol : t.col (min placed.length t.cols - 1) = min placed.length t.cols - 1 := by
      rw [Table.col, Nat.mod_eq_of_lt (by omega : min placed.length t.cols - 1 < 2 ^ 32),
        Nat.mod_eq_of_lt (by omega)]
    have hcell := (hcells _ hlast).1
    have hinside := (hwithin _ _ (getElem?_eq_getElem hlast)).1
    dsimp only [Table.cell] at hinside
    rw [hcol] at hcell hinside
    exact hcell.axisFits hx (by omega) (by omega) (by dsimp only; omega)
  · have hlast : min placed.length (2 ^ 32) - 1 < placed.length := by omega
    have hrow : t.row (min placed.length (2 ^ 32) - 1)
        = (min placed.length (2 ^ 32) - 1) / t.cols := by
      rw [Table.row, Nat.mod_eq_of_lt (by omega)]
    have hle := Nat.div_le_self (min placed.length (2 ^ 32) - 1) t.cols
    have hcell := (hcells _ hlast).2
    have hinside := (hwithin _ _ (getElem?_eq_getElem hlast)).2
    dsimp only [Table.cell] at hinside
    rw [hrow] at hcell hinside
    exact hcell.axisFits hy (by omega) (by omega) (by dsimp only; omega)
  · by_contra hareas
    obtain ⟨ha, hb⟩ := not_or.mp hareas
    have hb' := Table.holds_corner hb
    have hcorner : (t.cell b j).x = (t.cell a i).x ∧ (t.cell b j).y = (t.cell a i).y := by
      simp only [Table.cell, Table.col, Table.row, hindex, and_self]
    rw [hcorner.1, hcorner.2] at hb'
    exact hapart i j a b hij hi hj _ _ ⟨Table.holds_corner ha, hb'⟩

lemma grid_arranged_iff (ht : t.Bounded) (hx : InI32 t.container.x) (hy : InI32 t.container.y)
    {rows cols : ℕ} (hrows : max rows 1 % 2 ^ 32 = t.rows) (hcols : max cols 1 % 2 ^ 32 = t.cols)
    {children : List LayoutItem} (hchildren : children ≠ []) :
    (∃ rects, grid t.container rows cols children t.gap = .ok rects
        ∧ Arranged t.container (gridChildren t.rows t.cols children) rects)
      ↔ GridFits t (gridChildren t.rows t.cols children) := by
  constructor
  · rintro ⟨rects, hgrid, harranged⟩
    obtain ⟨⟨hpreparedX, hpreparedY⟩, hplace⟩ := (grid_eq_ok ht hrows hcols).mp hgrid
    obtain ⟨hcells, rfl⟩ := (Table.place_eq_ok ht hpreparedX hpreparedY _ _ _).mp hplace
    rw [reached_eq hpreparedX.count_pos] at hcells harranged
    obtain ⟨hwithin, hapart⟩ := (arranged_zipIdx_iff t.cell).mp harranged
    have hplaced := gridChildren_ne_nil hpreparedY.count_pos hpreparedX.count_pos hchildren
    exact gridFits_of_within hpreparedX hpreparedY ht.across.count_lt
      (length_pos_iff.mpr hplaced) (fun i hi => hcells (_, i)
        (List.mk_mem_zipIdx_iff_getElem?.mpr (getElem?_eq_getElem hi))) hwithin hapart
  · intro hfits
    have hpreparedX := hfits.columns.prepared
    have hpreparedY := hfits.lines.prepared
    have hrow {i : ℕ} {a : LayoutItem} (hi : (gridChildren t.rows t.cols children)[i]? = some a) :
        t.row i < t.rows := row_lt hpreparedX.count_pos hi
    have hplace := (Table.place_eq_ok ht hpreparedX hpreparedY children 0 _).mpr
      ⟨fun p hp => ?_, rfl⟩
    · refine ⟨_, (grid_eq_ok ht hrows hcols).mpr ⟨⟨hpreparedX, hpreparedY⟩, hplace⟩, ?_⟩
      rw [reached_eq hpreparedX.count_pos]
      refine (arranged_zipIdx_iff t.cell).mpr ⟨fun i a hi => ?_, fun i j a b hij hi hj => ?_⟩
      · exact hfits.within ht (List.getElem?_eq_some_iff.mp hi).1 (hrow hi) a
      · exact hfits.apart ht hij hi hj (hrow hi) (hrow hj)
    · rw [reached_eq hpreparedX.count_pos] at hp
      have hi := List.mk_mem_zipIdx_iff_getElem?.mp hp
      have hlt := (List.getElem?_eq_some_iff.mp hi).1
      obtain ⟨hcol, hcol'⟩ := hfits.col_le hlt
      exact ⟨hfits.columns.cellOk ht.across hx hcol hcol',
        hfits.lines.cellOk ht.down hy (Table.row_le hlt) (hrow hi)⟩

end Grid

/-! ## Every layout -/

/-- The children that get a rectangle. -/
def placed (children : List LayoutItem) : CellSpec → List LayoutItem
  | .row | .column => children
  | .grid rows cols => gridChildren (max rows 1 % 2 ^ 32) (max cols 1 % 2 ^ 32) children

def Fits (container : Rect) (children : List LayoutItem) (gap : ℕ) : CellSpec → Prop
  | .row => LineFits container.x container.width children.length gap
  | .column => LineFits container.y container.height children.length gap
  | .grid rows cols =>
    GridFits ⟨container, max rows 1 % 2 ^ 32, max cols 1 % 2 ^ 32, gap⟩
      (placed children (.grid rows cols))

/-- A layout finishes, with one rectangle for each placed child, inside the container and apart from
the others, precisely when the gaps fit and so do the numbers it computes. -/
theorem layout_arranges_iff (container : Rect) (spec : CellSpec) (children : List LayoutItem)
    (gap : ℕ) (hx : InI32 container.x) (hy : InI32 container.y)
    (hwidth : container.width ≤ 2 ^ 30) (hheight : container.height ≤ 2 ^ 30)
    (hchildren : children ≠ []) (hgap : gap ≤ 2 ^ 15) :
    (∃ rects, layout container spec children gap = .ok rects
        ∧ Arranged container (placed children spec) rects)
      ↔ Fits container children gap spec := by
  have hnonempty : ¬ children.isEmpty := by simpa using hchildren
  cases spec with
  | row =>
    simp only [layout, if_neg hnonempty, row]
    refine line_arranged_iff (c := ⟨_, _, _⟩) ⟨hwidth, Nat.mod_lt _ (by norm_num), hgap⟩ hx
      (fun p w => ?_) (fun p p' w w' h => ?_) hchildren rfl
    · simp only [Rect.Within, le_refl, and_self, and_true]
    · exact apart_of_separated (.inl (.inl h))
  | column =>
    simp only [layout, if_neg hnonempty, column]
    refine line_arranged_iff (c := ⟨_, _, _⟩) ⟨hheight, Nat.mod_lt _ (by norm_num), hgap⟩ hy
      (fun p w => ?_) (fun p p' w w' h => ?_) hchildren rfl
    · simp only [Rect.Within, le_refl, and_self, true_and]
    · exact apart_of_separated (.inr (.inl h))
  | grid rows cols =>
    simp only [layout, if_neg hnonempty]
    exact grid_arranged_iff (t := ⟨_, _, _, _⟩)
      ⟨⟨hwidth, Nat.mod_lt _ (by norm_num), hgap⟩, ⟨hheight, Nat.mod_lt _ (by norm_num), hgap⟩⟩
      hx hy rfl rfl hchildren

def anyChild : LayoutItem := ⟨0, 0, 0, none, none, 0⟩

theorem layout_arranges_three :
    (∃ rects, layout ⟨0, 0, 100, 50⟩ .row [anyChild, anyChild, anyChild] 8 = .ok rects
        ∧ Arranged ⟨0, 0, 100, 50⟩ [anyChild, anyChild, anyChild] rects)
      ∧ ∃ rects, layout ⟨0, 0, 100, 50⟩ (.grid 2 2) [anyChild, anyChild, anyChild] 8 = .ok rects
        ∧ Arranged ⟨0, 0, 100, 50⟩ [anyChild, anyChild, anyChild] rects := by
  constructor
  · exact (layout_arranges_iff ⟨0, 0, 100, 50⟩ .row [anyChild, anyChild, anyChild] 8 (by decide)
      (by decide) (by decide) (by decide) (by simp) (by decide)).mpr
      ⟨by decide, .inl (by decide), by decide⟩
  · refine (layout_arranges_iff ⟨0, 0, 100, 50⟩ (.grid 2 2) [anyChild, anyChild, anyChild] 8
      (by decide) (by decide) (by decide) (by decide) (by simp) (by decide)).mpr
      ⟨⟨⟨by decide, by decide, by decide⟩, by decide, by decide⟩,
        ⟨⟨by decide, by decide, by decide⟩, by decide, by decide⟩, ?_⟩
    intro i j a b hij hi hj hindex
    have hlt : j < 3 := (List.getElem?_eq_some_iff.mp hj).1
    omega

/-- Three children in a row of ten pixels, with gaps of eight between them. -/
theorem layout_underflows :
    layout ⟨0, 0, 10, 10⟩ .row [anyChild, anyChild, anyChild] 8 = .error .overflow := by
  decide +kernel

end ThingOS.Compositor.CellLayout
