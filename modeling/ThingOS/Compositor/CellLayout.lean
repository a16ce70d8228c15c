import ThingOS.Common.Checked
import ThingOS.Common.EqualCells
import ThingOS.Compositor.Layout

/-!
# Rows, columns and grids

`LayoutSpec::Row`, `LayoutSpec::Column` and `LayoutSpec::Grid` of `layout` in
`compositor/src/layout.rs`, in a build with overflow checks. All three cut the container into equal
cells. What the gaps leave is kept from becoming negative for the size of a cell, but not for the
last cell, so that gaps which do not fit make it underflow.
-/

namespace ThingOS.Compositor

inductive LayoutPanic where
  | overflow
  | divideByZero
deriving DecidableEq

/-- The specifications that cut the container into equal cells. -/
inductive CellSpec where
  | row
  | column
  | grid (rows cols : ℕ)

namespace Rect

def Within (r container : Rect) : Prop :=
  (container.x ≤ r.x ∧ r.x + r.width ≤ container.x + container.width)
    ∧ container.y ≤ r.y ∧ r.y + r.height ≤ container.y + container.height

def Holds (r : Rect) (x y : ℤ) : Prop :=
  (r.x ≤ x ∧ x < r.x + r.width) ∧ r.y ≤ y ∧ y < r.y + r.height

/-- No point is in both. -/
def Apart (a b : Rect) : Prop := ∀ x y, ¬ (a.Holds x y ∧ b.Holds x y)

end Rect

namespace CellLayout

/-- A result of arithmetic on `i32`. -/
def i32 (v : ℤ) : Except LayoutPanic ℤ := if InI32 v then .ok v else .error .overflow

/-- A result of arithmetic on `u32`. -/
def u32 (v : ℤ) : Except LayoutPanic ℕ :=
  if 0 ≤ v ∧ v < 2 ^ 32 then .ok v.toNat else .error .overflow

def divU32 (a b : ℕ) : Except LayoutPanic ℕ :=
  if b = 0 then .error .divideByZero else .ok (a / b)

def totalGap (count : ℕ) (gap : ℤ) : Except LayoutPanic ℤ := i32 (asI32 (count - 1 : ℕ) * gap)

def available (size : ℕ) (totalGap : ℤ) : Except LayoutPanic ℕ := do
  let rest ← i32 (asI32 size - totalGap)
  .ok (asU32 (max rest 0))

/-- The size of a cell, where the last one takes what is left. -/
def cellSize (size count item : ℕ) (totalGap : ℤ) (i : ℕ) : Except LayoutPanic ℕ := do
  let last ← u32 (count - 1)
  if i = last then
    let items ← u32 (item * last)
    let rest ← u32 (size - items)
    u32 (rest - asU32 totalGap)
  else .ok item

/-- The loop over the children of a row or a column; `rect` is the rectangle of a cell. -/
def placeCells (rect : ℤ → ℕ → Rect) (size count item : ℕ) (totalGap gap : ℤ) :
    (children : List LayoutItem) → (i : ℕ) → (pos : ℤ) → Except LayoutPanic (List (Uuid × Rect))
  | [], _, _ => .ok []
  | child :: children, i, pos => do
    let w ← cellSize size count item totalGap i
    let next ← i32 (pos + (← i32 (asI32 w + gap)))
    let rest ← placeCells rect size count item totalGap gap children (i + 1) next
    .ok ((child.id, rect pos w) :: rest)

/-- Equal cells along one direction, from `pos` on. -/
def line (rect : ℤ → ℕ → Rect) (pos : ℤ) (size : ℕ) (children : List LayoutItem) (gap : ℤ) :
    Except LayoutPanic (List (Uuid × Rect)) := do
  let count := children.length % 2 ^ 32
  let totalGap ← totalGap count gap
  let available ← available size totalGap
  let item ← divU32 available count
  placeCells rect size count item totalGap gap children 0 pos

def row (container : Rect) : List LayoutItem → ℤ → Except LayoutPanic (List (Uuid × Rect)) :=
  line (fun x w => ⟨x, container.y, w, container.height⟩) container.x container.width

def column (container : Rect) : List LayoutItem → ℤ → Except LayoutPanic (List (Uuid × Rect)) :=
  line (fun y h => ⟨container.x, y, container.width, h⟩) container.y container.height

/-- Where a cell of the grid starts. -/
def cellPos (pos : ℤ) (item : ℕ) (gap : ℤ) (i : ℕ) : Except LayoutPanic ℤ := do
  let step ← i32 (asI32 item + gap)
  let offset ← i32 (asI32 i * step)
  i32 (pos + offset)

def placeGrid (container : Rect) (rows cols itemWidth itemHeight : ℕ)
    (totalGapX totalGapY gap : ℤ) :
    (children : List LayoutItem) → (i : ℕ) → Except LayoutPanic (List (Uuid × Rect))
  | [], _ => .ok []
  | child :: children, i =>
    let row := i % 2 ^ 32 / cols
    let col := i % 2 ^ 32 % cols
    if rows ≤ row then .ok []
    else do
      let x ← cellPos container.x itemWidth gap col
      let y ← cellPos container.y itemHeight gap row
      let w ← cellSize container.width cols itemWidth totalGapX col
      let h ← cellSize container.height rows itemHeight totalGapY row
      let rest ← placeGrid container rows cols itemWidth itemHeight totalGapX totalGapY gap children
        (i + 1)
      .ok ((child.id, ⟨x, y, atMost w child.maxWidth, atMost h child.maxHeight⟩) :: rest)

def grid (container : Rect) (rows cols : ℕ) (children : List LayoutItem) (gap : ℤ) :
    Except LayoutPanic (List (Uuid × Rect)) := do
  let rows := max rows 1 % 2 ^ 32
  let cols := max cols 1 % 2 ^ 32
  let totalGapX ← totalGap cols gap
  let totalGapY ← totalGap rows gap
  let availableWidth ← available container.width totalGapX
  let availableHeight ← available container.height totalGapY
  let itemWidth ← divU32 availableWidth cols
  let itemHeight ← divU32 availableHeight rows
  placeGrid container rows cols itemWidth itemHeight totalGapX totalGapY gap children 0

def layout (container : Rect) (spec : CellSpec) (children : List LayoutItem) (gap : ℤ) :
    Except LayoutPanic (List (Uuid × Rect)) :=
  if children.isEmpty then .ok []
  else
    match spec with
    | .row => row container children gap
    | .column => column container children gap
    | .grid rows cols => grid container rows cols children gap

/-! ## One direction -/

lemma i32_eq_ok {v r : ℤ} : i32 v = .ok r ↔ InI32 v ∧ v = r := by
  unfold i32
  split <;> simp_all

lemma u32_eq_ok {v : ℤ} {r : ℕ} : u32 v = .ok r ↔ v < 2 ^ 32 ∧ v = r := by
  unfold u32
  split
  · rename_i h
    rw [Except.ok.injEq]
    omega
  · rename_i h
    exact iff_of_false nofun (by omega)

lemma divU32_eq_ok {a b r : ℕ} : divU32 a b = .ok r ↔ b ≠ 0 ∧ a / b = r := by
  unfold divU32
  split <;> simp_all

def countedGaps (c : EqualCells) : ℤ := asI32 (c.count - 1 : ℕ) * c.gap

structure Bounded (c : EqualCells) : Prop where
  size_le : c.size ≤ 2 ^ 30
  count_lt : c.count < 2 ^ 32
  gap_le : c.gap ≤ 2 ^ 15

/-- The computations before the loop can be done. -/
structure Prepared (c : EqualCells) : Prop where
  count_pos : 0 < c.count
  total : InI32 (countedGaps c)
  rest : InI32 (c.size - countedGaps c)

section Direction

variable {c : EqualCells} (hc : Bounded c)

include hc

lemma available_eq_ok {total : ℤ} {r : ℕ} :
    available c.size total = .ok r
      ↔ InI32 (c.size - total) ∧ asU32 (max (c.size - total) 0) = r := by
  have hsize := hc.size_le
  rw [available, asI32_of_inI32 ⟨by omega, by omega⟩]
  simp only [Checked.bind_eq_ok, i32_eq_ok, Except.ok.injEq]
  constructor
  · rintro ⟨_, ⟨hin, rfl⟩, hr⟩
    exact ⟨hin, hr⟩
  · rintro ⟨hin, hr⟩
    exact ⟨_, ⟨hin, rfl⟩, hr⟩

/-- The gaps are counted right, or have wrapped around and are negative. -/
lemma countedGaps_eq :
    countedGaps c = c.gaps ∨ 2 ^ 31 < c.count ∧ countedGaps c < 0 ∧ 2 ^ 31 ≤ c.gaps := by
  have hcount := hc.count_lt
  unfold countedGaps EqualCells.gaps
  rcases Nat.eq_zero_or_pos c.gap with hzero | hgap
  · simp [hzero]
  rcases Nat.lt_or_ge (2 ^ 31) c.count with hlarge | hsmall
  · have hcast : asI32 (c.count - 1 : ℕ) = (c.count - 1 : ℕ) - 2 ^ 32 :=
      asI32_eq ⟨by omega, by omega⟩ (by omega)
    have hgaps : 2 ^ 31 * 1 ≤ (c.count - 1) * c.gap := Nat.mul_le_mul (by omega) hgap
    exact .inr ⟨hlarge, by rw [hcast]; exact mul_neg_of_neg_of_pos (by omega) (by omega), hgaps⟩
  · rw [asI32_of_inI32 ⟨by omega, by omega⟩, Nat.cast_mul]
    exact .inl rfl

lemma item_eq (h : Prepared c) : asU32 (max (c.size - countedGaps c) 0) / c.count = c.item := by
  have hsize := hc.size_le
  have hrest := h.rest.2
  unfold EqualCells.item asU32
  rcases countedGaps_eq hc with htotal | ⟨hlarge, -⟩
  · have hfit : (max ((c.size : ℤ) - c.gaps) 0 % 2 ^ 32).toNat = c.size - c.gaps := by
      omega
    rw [htotal, hfit]
  · rw [Nat.div_eq_of_lt (by omega), Nat.div_eq_of_lt (by omega)]

lemma cellSize_eq_ok (h : Prepared c) {i w : ℕ} :
    cellSize c.size c.count c.item (countedGaps c) i = .ok w
      ↔ (i = c.count - 1 → c.gaps ≤ c.size) ∧ c.extent i = w := by
  have hsize := hc.size_le
  have hcount := hc.count_lt
  have hpos := h.count_pos
  have hlast : u32 (c.count - 1) = .ok (c.count - 1) := u32_eq_ok.mpr ⟨by omega, by omega⟩
  rw [cellSize, hlast, Checked.ok_bind, EqualCells.extent]
  by_cases hi : i = c.count - 1
  · rw [if_pos hi, if_pos hi]
    have hle := EqualCells.items_le hpos
    have hitems : u32 (c.item * (c.count - 1 : ℕ)) = .ok (c.item * (c.count - 1)) :=
      u32_eq_ok.mpr ⟨by norm_cast; omega, by push_cast; rfl⟩
    have hrest : u32 (c.size - (c.item * (c.count - 1) : ℕ))
        = .ok (c.size - c.item * (c.count - 1)) :=
      u32_eq_ok.mpr ⟨by omega, by omega⟩
    rw [hitems, Checked.ok_bind, hrest, Checked.ok_bind, u32_eq_ok]
    have htotal := h.total
    unfold InI32 at htotal
    rcases countedGaps_eq hc with heq | ⟨-, hneg, hgaps⟩
    · rw [heq] at htotal ⊢
      unfold asU32
      omega
    · -- wrapped around, the gaps are more than the container
      have hmore : c.size < asU32 (countedGaps c) := by
        unfold asU32
        omega
      exact iff_of_false (by omega) fun hfits => absurd (hfits.1 hi) (by omega)
  · rw [if_neg hi, if_neg hi, Except.ok.injEq]
    exact ⟨fun hw => ⟨fun heq => absurd heq hi, hw⟩, fun hw => hw.2⟩

end Direction

/-! ## What a layout is to be -/

/-- One rectangle for each child in order, inside the container and apart from the others. -/
structure Arranged (container : Rect) (children : List LayoutItem) (rects : List (Uuid × Rect)) :
    Prop where
  ids : rects.map Prod.fst = children.map LayoutItem.id
  within : ∀ p ∈ rects, p.2.Within container
  apart : rects.Pairwise fun p q => p.2.Apart q.2

lemma arranged_zipIdx_iff {container : Rect} {children : List LayoutItem}
    (rect : LayoutItem → ℕ → Rect) :
    Arranged container children (children.zipIdx.map fun p => (p.1.id, rect p.1 p.2))
      ↔ (∀ i a, children[i]? = some a → (rect a i).Within container)
        ∧ ∀ i j a b, i < j → children[i]? = some a → children[j]? = some b →
          (rect a i).Apart (rect b j) := by
  constructor
  · intro h
    refine ⟨fun i a hi => ?_, fun i j a b hij hi hj => ?_⟩
    · exact List.forall_mem_map.mp h.within (a, i) (List.mk_mem_zipIdx_iff_getElem?.mpr hi)
    · obtain ⟨hi', rfl⟩ := List.getElem?_eq_some_iff.mp hi
      obtain ⟨hj', rfl⟩ := List.getElem?_eq_some_iff.mp hj
      have hpair := List.pairwise_iff_getElem.mp (List.pairwise_map.mp h.apart) i j
        (by simpa using hi') (by simpa using hj') hij
      simpa using hpair
  · rintro ⟨hwithin, hapart⟩
    refine ⟨?_, ?_, ?_⟩
    · conv_rhs => rw [← List.zipIdx_map_fst 0 children, List.map_map]
      exact List.map_map
    · exact List.forall_mem_map.mpr fun p hp =>
        hwithin p.2 p.1 (List.mk_mem_zipIdx_iff_getElem?.mp hp)
    · refine List.pairwise_iff_getElem.mpr fun i j hi hj hij => ?_
      rw [List.length_map, List.length_zipIdx] at hi hj
      simpa using hapart i j _ _ hij (List.getElem?_eq_getElem hi) (List.getElem?_eq_getElem hj)

lemma apart_of_separated {a b : Rect}
    (h : (a.x + a.width ≤ b.x ∨ b.x + b.width ≤ a.x)
      ∨ a.y + a.height ≤ b.y ∨ b.y + b.height ≤ a.y) : a.Apart b := by
  intro x y
  unfold Rect.Holds
  omega

end CellLayout

end ThingOS.Compositor
