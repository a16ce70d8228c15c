import ThingOS.Compositor.Window

/-!
# The layout engine

`layout` of `compositor/src/layout.rs`, for the grid in which windows are tiled and the flex layout
of widgets. Sizes are `u32` and stand here as natural numbers; where the source casts or subtracts,
the result is taken modulo `2^32`. The arithmetic of `f32`, in which the growth of a widget is
measured, is a parameter.
-/

namespace ThingOS.Compositor

open Ui List

/-- What the engine does with `f32`. -/
structure FlexArithmetic where
  F32 : Type
  ofInt : ℤ → F32
  add : F32 → F32 → F32
  mul : F32 → F32 → F32
  div : F32 → F32 → F32
  isZero : F32 → Bool
  isPositive : F32 → Bool
  toU32 : F32 → ℕ

/-- `LayoutItem`, without the `flex_shrink` that the engine does not look at. -/
structure LayoutItem where
  id : Uuid
  minWidth : ℕ
  minHeight : ℕ
  maxWidth : Option ℕ
  maxHeight : Option ℕ
  flexGrow : ℤ

structure FlexSpec where
  direction : FlexDirection
  wrap : FlexWrap
  justify : JustifyContent
  align : AlignItems

/-- `min` with a bound that may be absent. -/
def atMost (n : ℕ) (bound : Option ℕ) : ℕ := (bound.map (min n)).getD n

/-! ## The grid -/

def gridLayout (container : Rect) (rows cols : ℕ) (children : List LayoutItem) (gap : ℤ) :
    List (Uuid × Rect) :=
  let rows := max rows 1
  let cols := max cols 1
  let totalGapX := (cols - 1 : ℕ) * gap
  let totalGapY := (rows - 1 : ℕ) * gap
  let itemWidth := (asI32 container.width - totalGapX).toNat / cols
  let itemHeight := (asI32 container.height - totalGapY).toNat / rows
  (children.zipIdx.takeWhile fun (_, i) => i / cols < rows).map fun (child, i) =>
    let row := i / cols
    let col := i % cols
    let x := container.x + col * (asI32 itemWidth + gap)
    let y := container.y + row * (asI32 itemHeight + gap)
    -- the last column and the last row take what the division left
    let w := if col = cols - 1 then asU32 (container.width - itemWidth * (cols - 1) - totalGapX)
      else itemWidth
    let h := if row = rows - 1 then asU32 (container.height - itemHeight * (rows - 1) - totalGapY)
      else itemHeight
    (child.id, ⟨x, y, atMost w child.maxWidth, atMost h child.maxHeight⟩)

/-! ## The flex layout -/

namespace FlexSpec

variable (fa : FlexArithmetic) (spec : FlexSpec) (container : Rect)

def isRow : Bool := spec.direction = .row

/-- The least size along the lines. -/
def basis (item : LayoutItem) : ℕ := if spec.isRow then item.minWidth else item.minHeight

/-- The least size across the lines. -/
def cross (item : LayoutItem) : ℕ := if spec.isRow then item.minHeight else item.minWidth

/-- The children from `current` on, broken into lines; `used` is how long `current` is already. -/
def breakLines (spec : FlexSpec) (mainSize gap : ℕ) :
    List LayoutItem → (current : List LayoutItem) → (used : ℕ) → List (List LayoutItem)
  | [], current, _ => if current = [] then [] else [current]
  | child :: children, current, used =>
    let basis := spec.basis child
    if current = [] then breakLines spec mainSize gap children [child] basis
    else if mainSize < used + gap + basis then
      current :: breakLines spec mainSize gap children [child] basis
    else breakLines spec mainSize gap children (current ++ [child]) (used + gap + basis)

/-- The children of one line, from a position in it on. -/
def placeLine (fa : FlexArithmetic) (spec : FlexSpec) (container : Rect)
    (crossPos crossSize available effectiveGap extraGap : ℕ) (totalGrow : fa.F32) :
    List LayoutItem → (mainPos : ℕ) → List (Uuid × Rect)
  | [], _ => []
  | child :: line, mainPos =>
    let growShare :=
      if fa.isPositive totalGrow then
        fa.toU32 (fa.mul (fa.ofInt available) (fa.div (fa.ofInt child.flexGrow) totalGrow))
      else 0
    let maxMain := if spec.isRow then child.maxWidth else child.maxHeight
    let maxCross := if spec.isRow then child.maxHeight else child.maxWidth
    let itemMain := atMost (spec.basis child + growShare) maxMain
    let itemCross := atMost (if spec.align = .stretch then crossSize else spec.cross child) maxCross
    let crossOffset :=
      match spec.align with
      | .start | .stretch => 0
      | .center => (crossSize - itemCross) / 2
      | .end_ => crossSize - itemCross
    let rect : Rect :=
      if spec.isRow then
        ⟨container.x + asI32 mainPos, container.y + asI32 crossPos + asI32 crossOffset, itemMain,
          itemCross⟩
      else
        ⟨container.x + asI32 crossPos + asI32 crossOffset, container.y + asI32 mainPos, itemCross,
          itemMain⟩
    let secondHalf := if spec.justify = .spaceAround then extraGap else 0
    (child.id, rect) ::
      placeLine fa spec container crossPos crossSize available effectiveGap extraGap totalGrow line
        (mainPos + itemMain + effectiveGap + secondHalf)

/-- One line, and how far across the next begins. -/
def layoutLine (fa : FlexArithmetic) (spec : FlexSpec) (container : Rect) (mainSize : ℕ) (gap : ℤ)
    (crossPos : ℕ) (line : List LayoutItem) : List (Uuid × Rect) × ℕ :=
  let count := line.length
  let totalGap := ((count - 1 : ℕ) * gap).toNat
  let totalBasis := (line.map spec.basis).sum
  let totalGrow :=
    line.foldl (fun total child => fa.add total (fa.ofInt child.flexGrow)) (fa.ofInt 0)
  let crossSize :=
    if spec.wrap = .noWrap then if spec.isRow then container.height else container.width
    else (line.map spec.cross).foldl max 0
  let available := mainSize - (totalBasis + totalGap)
  -- the space that is left is shared out only if nothing grows into it
  let shared := fa.isZero totalGrow && decide (0 < available)
  let mainPos :=
    match shared, spec.justify with
    | true, .center => available / 2
    | true, .end_ => available
    | true, .spaceAround => available / (count * 2)
    | _, _ => 0
  let extraGap :=
    match shared, spec.justify with
    | true, .spaceBetween => if 1 < count then available / (count - 1) else 0
    | true, .spaceAround => available / count
    | _, _ => 0
  (placeLine fa spec container crossPos crossSize available (asU32 gap + extraGap) extraGap
    totalGrow line mainPos, crossPos + crossSize + asU32 gap)

def layoutLines (fa : FlexArithmetic) (spec : FlexSpec) (container : Rect) (mainSize : ℕ)
    (gap : ℤ) : List (List LayoutItem) → (crossPos : ℕ) → List (Uuid × Rect)
  | [], _ => []
  | line :: lines, crossPos =>
    let (placed, next) := layoutLine fa spec container mainSize gap crossPos line
    placed ++ layoutLines fa spec container mainSize gap lines next

lemma flatten_breakLines (mainSize gap : ℕ) (children current : List LayoutItem) (used : ℕ) :
    (spec.breakLines mainSize gap children current used).flatten = current ++ children := by
  induction children generalizing current used with
  | nil =>
    unfold breakLines
    split <;> simp_all
  | cons child children ih =>
    unfold breakLines
    dsimp only
    split
    · simp_all
    · split <;> simp [ih]

lemma map_fst_placeLine (crossPos crossSize available effectiveGap extraGap : ℕ)
    (totalGrow : fa.F32) (line : List LayoutItem) (mainPos : ℕ) :
    (spec.placeLine fa container crossPos crossSize available effectiveGap extraGap totalGrow line
      mainPos).map Prod.fst = line.map LayoutItem.id := by
  induction line generalizing mainPos with
  | nil => rfl
  | cons child line ih => simp only [placeLine, map_cons, ih]

lemma map_fst_layoutLines (mainSize : ℕ) (gap : ℤ) (lines : List (List LayoutItem)) (crossPos : ℕ) :
    (spec.layoutLines fa container mainSize gap lines crossPos).map Prod.fst
      = lines.flatten.map LayoutItem.id := by
  induction lines generalizing crossPos with
  | nil => rfl
  | cons line lines ih =>
    rw [layoutLines, map_append, ih, flatten_cons, map_append, layoutLine,
      map_fst_placeLine]

section Greedy

variable (spec : FlexSpec) (mainSize gap : ℕ)

/-- What a line takes up along the main axis. -/
def extent (line : List LayoutItem) : ℕ := (line.map spec.basis).sum + (line.length - 1) * gap

/-- The lines are not empty, those of several items fit, and the first item of a line would not have
fitted into the one before. -/
structure Greedy (lines : List (List LayoutItem)) : Prop where
  nonempty : ∀ line ∈ lines, line ≠ []
  fits : ∀ line ∈ lines, 2 ≤ line.length → spec.extent gap line ≤ mainSize
  full : lines.IsChain fun line next => ∀ child, next.head? = some child →
    mainSize < spec.extent gap line + gap + spec.basis child

variable {spec mainSize gap}

lemma Greedy.cons {line : List LayoutItem} {lines : List (List LayoutItem)} (hne : line ≠ [])
    (hfits : 2 ≤ line.length → spec.extent gap line ≤ mainSize)
    (hfull : ∀ child, (lines.head?.bind List.head?) = some child →
      mainSize < spec.extent gap line + gap + spec.basis child)
    (h : spec.Greedy mainSize gap lines) : spec.Greedy mainSize gap (line :: lines) where
  nonempty := forall_mem_cons.mpr ⟨hne, h.nonempty⟩
  fits := forall_mem_cons.mpr ⟨hfits, h.fits⟩
  full := by
    cases lines with
    | nil => exact .singleton line
    | cons next lines => exact .cons_cons hfull h.full

/-- The loop goes on with a line that is already begun. -/
lemma greedy_breakLines (children : List LayoutItem) {current : List LayoutItem}
    (hne : current ≠ []) (hfits : 2 ≤ current.length → spec.extent gap current ≤ mainSize) :
    spec.Greedy mainSize gap
        (spec.breakLines mainSize gap children current (spec.extent gap current))
      ∧ (spec.breakLines mainSize gap children current (spec.extent gap current)).head?.bind
        List.head? = current.head? := by
  induction children generalizing current with
  | nil =>
    rw [breakLines, if_neg hne]
    exact ⟨.cons hne hfits nofun ⟨nofun, nofun, .nil⟩, rfl⟩
  | cons child children ih =>
    have hone : spec.extent gap [child] = spec.basis child := by simp [extent]
    have hmore : spec.extent gap (current ++ [child])
        = spec.extent gap current + gap + spec.basis child := by
      obtain ⟨n, hn⟩ := Nat.exists_eq_succ_of_ne_zero (length_pos_iff.mpr hne).ne'
      simp [extent, hn, Nat.succ_mul]
      omega
    simp only [breakLines, if_neg hne]
    split
    · next hfull =>
      obtain ⟨hgreedy, hhead⟩ := @ih [child] (by simp) (by simp)
      rw [hone] at hgreedy hhead
      refine ⟨.cons hne hfits ?_ hgreedy, rfl⟩
      rw [hhead]
      rintro _ ⟨⟩
      exact hfull
    · next hfull =>
      obtain ⟨hgreedy, hhead⟩ := @ih (current ++ [child]) (by simp)
        fun _ => hmore.trans_le (not_lt.mp hfull)
      rw [hmore] at hgreedy hhead
      exact ⟨hgreedy, hhead.trans (head?_append_of_ne_nil _ hne)⟩

end Greedy

end FlexSpec

def flexLayout (fa : FlexArithmetic) (container : Rect) (spec : FlexSpec)
    (children : List LayoutItem) (gap : ℤ) : List (Uuid × Rect) :=
  if children = [] then []
  else
    let mainSize := if spec.isRow then container.width else container.height
    let lines :=
      if spec.wrap = .noWrap then [children]
      else spec.breakLines mainSize (asU32 gap) children [] 0
    spec.layoutLines fa container mainSize gap lines 0

/-- However it is broken into lines, the layout places every child once and in order. -/
lemma map_fst_flexLayout (spec : FlexSpec) (children : List LayoutItem) (gap : ℤ) :
    (flexLayout fa container spec children gap).map Prod.fst = children.map LayoutItem.id := by
  unfold flexLayout
  split
  case isTrue hnil => simp [hnil]
  case isFalse =>
    rw [FlexSpec.map_fst_layoutLines]
    split
    · rw [flatten_singleton]
    · rw [FlexSpec.flatten_breakLines, nil_append]

/-- Wrapping cuts the children into lines as long as they can be, and all of them are laid out in
their order. -/
theorem flex_wrapping (spec : FlexSpec) (mainSize gap : ℕ) (children : List LayoutItem) :
    (spec.breakLines mainSize gap children [] 0).flatten = children
      ∧ spec.Greedy mainSize gap (spec.breakLines mainSize gap children [] 0)
      ∧ ∀ fa container gap', (flexLayout fa container spec children gap').map Prod.fst
        = children.map LayoutItem.id := by
  refine ⟨FlexSpec.flatten_breakLines .., ?_, fun _ _ _ => map_fst_flexLayout ..⟩
  cases children with
  | nil => exact ⟨nofun, nofun, .nil⟩
  | cons child children =>
    have hone : spec.extent gap [child] = spec.basis child := by simp [FlexSpec.extent]
    rw [FlexSpec.breakLines, if_pos rfl, ← hone]
    exact (FlexSpec.greedy_breakLines children (by simp) (by simp)).1

end ThingOS.Compositor
