import ThingOS.Compositor.Gesture
import ThingOS.Compositor.Layout

/-!
# The widget at a point

`draw_widgets` and `hit_test_widgets` of `compositor/src/widget_manager.rs` each find out for
themselves where a widget is. A widget with coordinates of its own is painted relative to the window
and looked for relative to the screen; the others are painted where the flex layout puts them and
looked for where their heights, added up, would put them. What a press tells the widget is measured
from its coordinates, wherever it was painted.

Whatever the heights, both begin a column at its corner. So the three agree over a toolbar that
begins the column of a window, if it and its buttons have the coordinates of their places.

Both recursions follow the parents of widgets downwards and are endless on a circle; here they are
cut off at a depth, and what is shown holds for every depth that reaches the buttons. Positions are
added up in the integers, which is what `i32` does as long as no sum leaves it.
-/

namespace ThingOS.Compositor

open Ui Host Widgets List Option

/-- A rectangle as the arguments `x`, `y`, `w` and `h` give it. -/
structure Area where
  x : ℤ
  y : ℤ
  w : ℤ
  h : ℤ

/-- The test that `hit_test_widgets` makes. -/
def Area.Has (a : Area) (mx my : ℤ) : Prop :=
  (a.x ≤ mx ∧ mx < a.x + a.w) ∧ a.y ≤ my ∧ my < a.y + a.h
deriving Decidable

/-- The area keeps well clear of the ends of `i32`. -/
def Area.Small (a : Area) : Prop :=
  (-2 ^ 30 ≤ a.x ∧ 0 ≤ a.w ∧ a.x + a.w < 2 ^ 30) ∧ -2 ^ 30 ≤ a.y ∧ 0 ≤ a.h ∧ a.y + a.h < 2 ^ 30
deriving Decidable

/-- `Rect::new(x, y, w as u32, h as u32)`. -/
def Area.rect (a : Area) : Rect := ⟨a.x, a.y, asU32 a.w, asU32 a.h⟩

/-- A point on the screen is in a rectangle that was painted. -/
def Rect.Covers (r : Rect) (mx my : ℤ) : Prop :=
  (r.x ≤ mx ∧ mx < r.x + r.width) ∧ r.y ≤ my ∧ my < r.y + r.height
deriving Decidable

def toolbarHeight : ℤ := 32

def toolbarButtonSize : ℤ := 24

def toolbarButtonSpacing : ℤ := 2

/-- The buttons of a toolbar from `childX` on, as far as they fit. Drawing and hit test go through
them in the same way. -/
def toolbarButtons (y toolbarEnd : ℤ) : List Widget → (childX : ℤ) → List (Widget × Area)
  | [], _ => []
  | child :: children, childX =>
    if toolbarEnd < childX + toolbarButtonSize then []
    else
      (child, ⟨childX, y + (toolbarHeight - toolbarButtonSize) / 2, toolbarButtonSize,
        toolbarButtonSize⟩) ::
        toolbarButtons y toolbarEnd children (childX + toolbarButtonSize + toolbarButtonSpacing)

def canvasArea (x y : ℤ) (child : Widget) : Area :=
  ⟨x + asI32 (child.x.getD 0), y + asI32 (child.y.getD 0), asI32 (child.width.getD 32),
    asI32 (child.height.getD 32)⟩

variable (mx my : ℤ) (p : Pointer)

namespace WidgetManager

variable (widget : Widget) (m : WidgetManager)

def childrenOf (parent : Uuid) : List Widget :=
  ((mapValues m.widgets).filter fun w => w.parent = some parent).filterMap fun w => m.widgets[w.id]?

/-- The buttons of a toolbar that lies in an area. -/
def toolbarIn (widget : Widget) (a : Area) : List (Widget × Area) :=
  toolbarButtons a.y (a.x + a.w) (m.childrenOf widget.id) a.x

/-! ## Painting -/

/-- The height of a leaf, and the default of its role. -/
def ownHeight (widget : Widget) (default : ℤ) : ℤ :=
  (widget.height.map fun h : ℕ => asI32 h).getD default

/-- The sizing hints of a widget, for the layout. -/
def layoutItem (w : Widget) : LayoutItem where
  id := w.id
  minWidth := asU32 (w.minWidth.getD (w.width.getD 0))
  minHeight := asU32 (w.minHeight.getD (w.height.getD 30))
  maxWidth := w.maxWidth.map fun n => asU32 n
  maxHeight := w.maxHeight.map fun n => asU32 n
  flexGrow := w.flexGrow.getD 0

/-- The layout of a container without a direction. -/
def columnSpec : FlexSpec := ⟨.column, .noWrap, .start, .stretch⟩

/-- The layout of the children of a container. -/
def containerSpec (widget : Widget) : FlexSpec :=
  match widget.flexDirection with
  | some direction => ⟨direction, widget.flexWrap.getD .noWrap, widget.justifyContent.getD .start,
      widget.alignItems.getD .start⟩
  | none => columnSpec

/-- The rectangles of `layout_and_draw_children`, with the widgets drawn there. -/
def laidOut (fa : FlexArithmetic) (m : WidgetManager) (container : Rect) (children : List Widget)
    (spec : FlexSpec) (gap : ℤ) : List (Widget × Area) :=
  (flexLayout fa container spec (children.map layoutItem) gap).filterMap fun (id, rect) =>
    m.widgets[id]?.map (·, ⟨rect.x, rect.y, asI32 rect.width, asI32 rect.height⟩)

/-- Children below one another, each as high as `draw` says it was drawn, and what was painted. -/
def drawStacked (draw : Widget → Area → List (Uuid × Rect) × ℤ) (x w : ℤ) :
    List Widget → (childY remaining : ℤ) → List (Uuid × Rect)
  | [], _, _ => []
  | child :: children, childY, remaining =>
    let (painted, height) := draw child ⟨x, childY, w, remaining⟩
    painted ++ drawStacked draw x w children (childY + height) (remaining - height)

/-- The smallest rectangle around a line. -/
def lineRect (x y dx dy : ℤ) : Rect :=
  ⟨min x (x + dx), min y (y + dy), dx.natAbs + 1, dy.natAbs + 1⟩

section Painting

/- The icon or the bitmap of a tile is looked up in the graph, and the content of a window is
painted if the window is among `windows`. -/
variable (fa : FlexArithmetic) (tile : Widget → Area → List Rect) (content : Bool)

/-- `draw_widget_recursive`: the widgets for which it pushes something, each with the rectangle, and
the height it returns. What is drawn within a filled one is left out, and a connector's label. -/
def drawWidgetRecursive (m : WidgetManager) : ℕ → Widget → Area → List (Uuid × Rect) × ℤ
  | 0, _, _ => ([], 0)
  | depth + 1, widget, a =>
    let draw := drawWidgetRecursive m depth
    let fill := fun height : ℤ => [(widget.id, Area.rect ⟨a.x, a.y, a.w, height⟩)]
    let text := fun area : Area => if widget.label.isSome then [(widget.id, area.rect)] else []
    if !widget.visible then ([], 0)
    else if widget.bitmap.isSome ∧ widget.width.isSome ∧ widget.height.isSome then (fill a.h, a.h)
    else
      match widget.role with
      | "container.toolbar" | "toolbar" =>
        (fill toolbarHeight ++
          (m.toolbarIn widget a).map fun (child, button) => (child.id, button.rect), toolbarHeight)
      | "container.vertical" | "window_root" | "container.editor_root" =>
        ((if widget.role = "container.editor_root" ∧ content then fill a.h else []) ++
          (laidOut fa m a.rect (m.childrenOf widget.id) (containerSpec widget)
            (widget.gap.getD 0)).flatMap fun (child, area) => (draw child area).1, a.h)
      | "canvas" =>
        ((m.childrenOf widget.id).flatMap fun child => (draw child (canvasArea a.x a.y child)).1,
          a.h)
      | "button" =>
        let height := ownHeight widget 30
        ([(widget.id, ⟨a.x, a.y, a.w.toNat, height.toNat⟩)], height)
      | "listbox_default" | "primary_list" =>
        let height := ownHeight widget 100
        (fill height ++
          drawStacked draw (a.x + 2) (a.w - 4) (m.childrenOf widget.id) (a.y + 2) (height - 4),
          height)
      | "scrollbar_thumb" => (fill (ownHeight widget 30), ownHeight widget 30)
      | "connector" =>
        ([(widget.id,
          lineRect a.x a.y (asI32 (widget.width.getD 0)) (asI32 (widget.height.getD 0)))],
          0)
      | "thing_tile" =>
        let height := ownHeight widget 100
        ((tile widget a).map (widget.id, ·) ++ text ⟨a.x + 4, a.y + height - 30, a.w - 8, 24⟩,
          height)
      | "list_item" =>
        let height := ownHeight widget 20
        (text ⟨a.x + 4, a.y + 2, a.w - 8, height - 4⟩, height)
      | "label" =>
        let height := ownHeight widget fontHeight
        let padY := (height - fontHeight).tdiv 2
        (text ⟨a.x + 4, a.y + padY, a.w - 8, height - padY * 2⟩, height)
      -- a widget with any other role is not painted
      | _ => ([], 0)

/-- The layout of the widgets of a window and the gap between them. -/
def windowSpec : Option Ui.Window → FlexSpec × ℤ
  | none => (columnSpec, 0)
  | some window =>
    (match window.flexDirection with
      | some direction => ⟨direction, .noWrap, window.justifyContent.getD .start,
          window.alignItems.getD .start⟩
      | none => columnSpec, window.gap.getD 0)

/-- The widget has coordinates of its own. -/
def Placed (widget : Widget) : Prop := widget.x.isSome ∧ widget.y.isSome
deriving Decidable

def overlayArea (layout : WindowLayout) (widget : Widget) : Area :=
  ⟨layout.clientX + asI32 (widget.x.getD 0), layout.clientY + asI32 (widget.y.getD 0),
    asI32 (widget.width.getD 0), asI32 (widget.height.getD 0)⟩

/-- `draw_widgets`: the widgets of a window that are painted, each with its rectangle. -/
def drawWidgets (m : WidgetManager) (depth : ℕ) (windowId : Uuid) (layout : WindowLayout)
    (areaWidth : ℤ) (window : Option Ui.Window) (exclude : Option Uuid) : List (Uuid × Rect) :=
  let roots := (m.childrenOf windowId).filter fun w => some w.id ≠ exclude
  let container : Rect :=
    ⟨layout.clientX, layout.clientY, (max areaWidth 0).toNat, (max layout.clientH 0).toNat⟩
  let (spec, gap) := windowSpec window
  let relative := laidOut fa m container (roots.filter fun w => ¬Placed w) spec gap
  let overlays := (roots.filter fun w => Placed w).map fun w => (w, overlayArea layout w)
  (relative ++ overlays).flatMap fun (widget, area) =>
    (drawWidgetRecursive fa tile content m depth widget area).1

end Painting

/-! ## The hit test -/

/-- Children below one another, each as high as `height` says. -/
def stacked (height : Widget → ℤ → ℤ → ℤ) (x w : ℤ) :
    List Widget → (childY remaining : ℤ) → List (Widget × Area)
  | [], _, _ => []
  | child :: children, childY, remaining =>
    let childH := height child w remaining
    (child, ⟨x, childY, w, childH⟩) ::
      stacked height x w children (childY + childH) (remaining - childH)

def getWidgetHeight (m : WidgetManager) : ℕ → Widget → (w h : ℤ) → ℤ
  | 0, _, _, _ => 0
  | depth + 1, widget, w, h =>
    if !widget.visible then 0
    else
      match widget.role with
      | "container.toolbar" => toolbarHeight
      | "control.toolbar_button" | "toolbar_button" => ownHeight widget 32
      | "container.vertical" | "window_root" =>
        ((stacked (getWidgetHeight m depth) 0 w (m.childrenOf widget.id) 0 h).map
          fun (_, area) => area.h).sum
      | "container.editor_root" => h
      | _ => 0

/-- Where the hit test looks for the children of a widget other than a toolbar. -/
def lookedFor (depth : ℕ) (widget : Widget) (a : Area) (height : ℤ) : List (Widget × Area) :=
  let children := m.childrenOf widget.id
  match widget.role with
  | "container.vertical" | "window_root" | "container.editor_root" =>
    stacked (getWidgetHeight m depth) a.x a.w children a.y a.h
  | "canvas" => children.map fun child => (child, canvasArea a.x a.y child)
  | "listbox_default" | "primary_list" =>
    stacked (getWidgetHeight m depth) (a.x + 2) (a.w - 4) children (a.y + 2) (height - 4)
  | _ => []

def hitTestWidgetRecursive (m : WidgetManager) (mx my : ℤ) : ℕ → Widget → Area → Option Uuid
  | 0, _, _ => none
  | depth + 1, widget, a =>
    let height := m.getWidgetHeight (depth + 1) widget a.w a.h
    if !widget.visible then none
    else if ¬Area.Has ⟨a.x, a.y, a.w, height⟩ mx my then none
    else if widget.role = "container.toolbar" then
      let button := (m.toolbarIn widget a).find? fun (_, button) => button.Has mx my
      (button.map fun (child, _) => child.id).or (some widget.id)
    else
      let hit := (m.lookedFor depth widget a height).findSome? fun (child, area) =>
        hitTestWidgetRecursive m mx my depth child area
      hit.or (some widget.id)

/-- The rectangle of a widget all of whose coordinates are given, on the screen. -/
def absoluteArea (widget : Widget) : Option Area :=
  match widget.x, widget.y, widget.width, widget.height with
  | some x, some y, some w, some h => some ⟨asI32 x, asI32 y, asI32 w, asI32 h⟩
  | _, _, _, _ => none

/-- The area in which the hit test looks for the widgets that have no coordinates; `contentWidth` is
the width of the content, zero if it has none. -/
def clientArea (layout : WindowLayout) (contentWidth : ℕ) : Area :=
  let width := if 0 < contentWidth then asI32 contentWidth else layout.clientW
  ⟨layout.clientX, layout.clientY, max width 0, layout.clientH⟩

def hitTestWidgets (depth : ℕ) (windowId : Uuid) (layout : WindowLayout) (contentWidth : ℕ)
    (mx my : ℤ) : Option Uuid :=
  let roots := m.childrenOf windowId
  let absolute := roots.find? fun w => (absoluteArea w).any fun area => area.Has mx my
  (absolute.map Widget.id).or
    ((roots.filter fun w => ¬Placed w).findSome? fun w =>
      m.hitTestWidgetRecursive mx my depth w (clientArea layout contentWidth))

/-! ## The two compared -/

section Agreement

variable (fa : FlexArithmetic) (tile : Widget → Area → List Rect) (content : Bool) (depth : ℕ)
  (windowId : Uuid) (layout : WindowLayout) (contentWidth : ℕ) (areaWidth : ℤ)
  (window : Option Ui.Window) (exclude : Option Uuid)

def pointerEnv : PointerEnv where
  width := 0
  height := 0
  hitWidget := fun mx my => m.hitTestWidgets depth windowId layout contentWidth mx my

/-- If the hit test finds a widget under the pointer, the widget is visible and painted there, and a
press tells it where the pointer is in the rectangle in which it is painted. -/
def HitsPainted (p : Pointer) : Prop :=
  ∀ id, p.manager.hitTestWidgets depth windowId layout contentWidth p.x p.y = some id →
    (∃ widget, p.manager.widgets[id]? = some widget ∧ widget.visible = true)
      ∧ ∃ rect, (id, rect) ∈ p.manager.drawWidgets fa tile content depth windowId layout areaWidth
          window exclude
        ∧ rect.Covers p.x p.y
        ∧ ∃ fields, (p.onPointerDown (p.manager.pointerEnv depth windowId layout contentWidth)).2
            = [.fiat ⟨id, Canon.widget, fields⟩]
          ∧ fields[Canon.mouseX]? = some (.i64 (p.x - rect.x))
          ∧ fields[Canon.mouseY]? = some (.i64 (p.y - rect.y))

/-- The widget is drawn as its role says, over the whole width it is given. -/
def Plain (widget : Widget) : Prop :=
  widget.visible = true ∧ widget.bitmap = none ∧ widget.maxWidth = none
deriving Decidable

/-- If the point is in the area, the widget is visible and has the corner as its coordinates. -/
def Carries (mx my : ℤ) (widget : Widget) (a : Area) : Prop :=
  a.Has mx my →
    widget.visible = true ∧ asI32 (widget.x.getD 0) = a.x ∧ asI32 (widget.y.getD 0) = a.y
deriving Decidable

/-- The toolbar of an area and its buttons. -/
def toolbarParts (bar : Widget) (a : Area) : List (Widget × Area) :=
  (bar, ⟨a.x, a.y, a.w, toolbarHeight⟩) :: m.toolbarIn bar a

/-- The numbers of a widget are small against `i32`. -/
def Moderate (widget : Widget) : Prop :=
  (∀ n ∈ [widget.x, widget.y, widget.width, widget.height, widget.minWidth, widget.minHeight,
      widget.maxWidth, widget.maxHeight].reduceOption, n < 2 ^ 16)
    ∧ (widget.gap.getD 0).natAbs < 2 ^ 16 ∧ 0 ≤ widget.flexGrow.getD 0
deriving Decidable

/-- The point is in a toolbar with which the only column of the window begins, and in no rectangle
that another widget of the window has on the screen. The part of the toolbar that is there has the
coordinates of its place. No sum of positions and sizes leaves `i32`. -/
structure OverToolbar (p : Pointer) (root bar : Widget) (rest : List Widget) : Prop where
  keyed : ∀ e ∈ p.manager.widgets.toList, e.2.id = e.1
  clear : ∀ w ∈ p.manager.childrenOf windowId, ∀ area ∈ absoluteArea w, ¬area.Has p.x p.y
  roots : ((p.manager.childrenOf windowId).filter fun w => ¬Placed w) = [root]
  shown : some root.id ≠ exclude
  spec : (windowSpec window).1 = columnSpec ∧ root.flexDirection = none
  width : max areaWidth 0 = (clientArea layout contentWidth).w
  column : root.role = "container.vertical" ∨ root.role = "window_root"
  children : p.manager.childrenOf root.id = bar :: rest
  toolbar : bar.role = "container.toolbar"
  plain : Plain root ∧ Plain bar
  small : (clientArea layout contentWidth).Small ∧ (windowSpec window).2.natAbs < 2 ^ 16
  moderate : p.manager.widgets.size ≤ 2 ^ 10 ∧ ∀ w ∈ mapValues p.manager.widgets, Moderate w
  under : Area.Has { clientArea layout contentWidth with h := toolbarHeight } p.x p.y
  carries : ∀ c ∈ p.manager.toolbarParts bar (clientArea layout contentWidth),
    Carries p.x p.y c.1 c.2

variable {fa tile content depth windowId layout contentWidth areaWidth window exclude}
variable {a : Area} {children : List Widget} {x y : ℤ}

lemma asU32_eq {n : ℤ} (h0 : 0 ≤ n) (hn : n < 2 ^ 32) : (asU32 n : ℤ) = n := by
  rw [asU32, Int.emod_eq_of_lt h0 hn, Int.toNat_of_nonneg h0]

/-- Whatever the heights, the flex layout begins a column at its corner. -/
lemma laidOut_first (fa : FlexArithmetic) (container : Rect) (gap : ℤ) (children : List Widget)
    {first : Widget} (hfiled : m.widgets[first.id]? = some first) (hmax : first.maxWidth = none) :
    ∃ area, (first, area) ∈ laidOut fa m container (first :: children) columnSpec gap
      ∧ area.x = container.x ∧ area.y = container.y ∧ area.w = asI32 container.width := by
  have hline : flexLayout fa container columnSpec ((first :: children).map layoutItem) gap
      = (columnSpec.layoutLine fa container container.height gap 0
        ((first :: children).map layoutItem)).1 := by
    rw [flexLayout, if_neg (by simp)]
    exact append_nil _
  obtain ⟨rect, hrect, hx, hy, hwidth⟩ : ∃ rect : Rect, (first.id, rect)
      ∈ flexLayout fa container columnSpec ((first :: children).map layoutItem) gap
      ∧ rect.x = container.x ∧ rect.y = container.y ∧ rect.width = container.width := by
    have hitem : (layoutItem first).maxWidth = none := by simp [layoutItem, hmax]
    rw [hline, map_cons, FlexSpec.layoutLine]
    -- nothing is left free before the first item, shared out or not
    generalize (fa.isZero _ && decide (0 < container.height - _)) = shared
    cases shared <;> refine ⟨_, mem_cons_self, ?_, ?_, ?_⟩ <;>
      simp [columnSpec, FlexSpec.isRow, hitem, atMost, asI32]
  refine ⟨⟨rect.x, rect.y, asI32 rect.width, asI32 rect.height⟩,
    mem_filterMap.mpr ⟨_, hrect, ?_⟩, hx, hy, by rw [hwidth]⟩
  dsimp only
  rw [hfiled]
  rfl

lemma filed_of_mem_childrenOf (hkeyed : ∀ e ∈ m.widgets.toList, e.2.id = e.1) (parent : Uuid) :
    ∀ c ∈ m.childrenOf parent, m.widgets[c.id]? = some c := by
  intro c hc
  obtain ⟨w, -, hw⟩ := mem_filterMap.mp hc
  rw [hkeyed (w.id, c) (Std.ExtTreeMap.mem_toList_iff_getElem?_eq_some.mpr hw)]
  exact hw

lemma mem_toolbarButtons {c : Widget × Area} {toolbarEnd : ℤ}
    (hc : c ∈ toolbarButtons y toolbarEnd children x) :
    c.1 ∈ children ∧ c.2.w = toolbarButtonSize ∧ c.2.h = toolbarButtonSize := by
  induction children generalizing x with
  | nil => cases hc
  | cons child children ih =>
    rw [toolbarButtons] at hc
    split at hc
    · cases hc
    · rcases mem_cons.mp hc with rfl | hc
      · exact ⟨mem_cons_self, rfl, rfl⟩
      · exact (ih hc).imp_left (mem_cons_of_mem _)

variable {root bar : Widget} {rest : List Widget} {c : Widget × Area} {id : Uuid} {mx my}

/-- Where a part of a toolbar is hit, its rectangle covers the point. -/
lemma covers_toolbarParts (hc : c ∈ m.toolbarParts bar a)
    (hw : a.w < 2 ^ 31) (hhas : c.2.Has mx my) :
    (c.1 = bar ∨ c.1 ∈ m.childrenOf bar.id) ∧ c.2.rect.Covers mx my := by
  obtain ⟨hmem, hcw, hch⟩ : (c.1 = bar ∨ c.1 ∈ m.childrenOf bar.id) ∧ c.2.w < 2 ^ 31
      ∧ c.2.h < 2 ^ 31 := by
    rcases mem_cons.mp hc with rfl | hc
    · exact ⟨.inl rfl, hw, show (32 : ℤ) < _ by omega⟩
    · obtain ⟨hchild, hcw, hch⟩ := mem_toolbarButtons hc
      exact ⟨.inr hchild, hcw.trans_lt (by decide), hch.trans_lt (by decide)⟩
  simp only [Area.Has] at hhas
  refine ⟨hmem, ?_⟩
  simp only [Rect.Covers, Area.rect, asU32_eq (show 0 ≤ c.2.w by omega) (by omega),
    asU32_eq (show 0 ≤ c.2.h by omega) (by omega)]
  exact hhas

lemma onPointerDown_hit {p : Pointer} {id : Uuid} {widget : Widget}
    (hhit : p.manager.hitTestWidgets depth windowId layout contentWidth p.x p.y = some id)
    (hwidget : p.manager.widgets[id]? = some widget) :
    (p.onPointerDown (p.manager.pointerEnv depth windowId layout contentWidth)).2
      = [.fiat ⟨id, Canon.widget, (p.localFields widget).insert Canon.mouseDown (.bool true)⟩] := by
  have henv : (p.manager.pointerEnv depth windowId layout contentWidth).hitWidget p.x p.y
      = some id := hhit
  unfold Pointer.onPointerDown
  rw [henv]
  simp only [hwidget]

lemma localFields_mouseX (widget : Widget) :
    ((p.localFields widget).insert Canon.mouseDown (.bool true))[Canon.mouseX]?
      = some (.i64 (p.x - asI32 (widget.x.getD 0))) := by
  simp (disch := decide) only [Pointer.localFields, getElem?_insert_of_ne,
    Std.ExtTreeMap.getElem?_insert_self]

lemma localFields_mouseY (widget : Widget) :
    ((p.localFields widget).insert Canon.mouseDown (.bool true))[Canon.mouseY]?
      = some (.i64 (p.y - asI32 (widget.y.getD 0))) := by
  simp (disch := decide) only [Pointer.localFields, getElem?_insert_of_ne,
    Std.ExtTreeMap.getElem?_insert_self]

/-- Over its first strip, a column that begins with a toolbar is hit in a part of that. -/
lemma hit_toolbarParts (hcolumn : root.role = "container.vertical" ∨ root.role = "window_root")
    (hchildren : m.childrenOf root.id = bar :: rest) (hbar : bar.role = "container.toolbar")
    (hvisible : bar.visible = true) (hunder : Area.Has { a with h := toolbarHeight } mx my)
    (hhit : m.hitTestWidgetRecursive mx my (depth + 2) root a = some id) :
    ∃ c ∈ m.toolbarParts bar a, c.2.Has mx my ∧ c.1.id = id := by
  have hheight (w h : ℤ) : m.getWidgetHeight (depth + 1) bar w h = toolbarHeight := by
    simp [getWidgetHeight, hvisible, hbar]
  have hfirst : m.hitTestWidgetRecursive mx my (depth + 1) bar ⟨a.x, a.y, a.w, toolbarHeight⟩
      = (((m.toolbarIn bar a).find? fun c => c.2.Has mx my).map fun c => c.1.id).or
        (some bar.id) := by
    rw [hitTestWidgetRecursive, if_neg (by simp [hvisible]), hheight, if_neg (not_not.mpr hunder),
      if_pos hbar]
    rfl
  have hlooked (height : ℤ) : m.lookedFor (depth + 1) root a height
      = stacked (m.getWidgetHeight (depth + 1)) a.x a.w (bar :: rest) a.y a.h := by
    rcases hcolumn with hrole | hrole <;> simp [lookedFor, hrole, hchildren]
  rw [hitTestWidgetRecursive] at hhit
  split at hhit
  · cases hhit
  split at hhit
  · cases hhit
  rw [if_neg (by rcases hcolumn with hrole | hrole <;> simp [hrole]), hlooked, stacked] at hhit
  simp only [hheight, findSome?_cons, hfirst] at hhit
  cases hfind : (m.toolbarIn bar a).find? fun c => c.2.Has mx my with
  | none =>
    simp only [hfind, Option.map_none, none_or, some_or, Option.some.injEq] at hhit
    exact ⟨_, mem_cons_self, hunder, hhit⟩
  | some c =>
    simp only [hfind, Option.map_some, some_or, Option.some.injEq] at hhit
    exact ⟨c, mem_cons_of_mem _ (mem_of_find?_eq_some hfind), by simpa using find?_some hfind, hhit⟩

/-- The parts of the toolbar are painted. -/
lemma painted_toolbarParts (hcolumn : root.role = "container.vertical" ∨ root.role = "window_root")
    (hspec : root.flexDirection = none) (hchildren : m.childrenOf root.id = bar :: rest)
    (hfiled : m.widgets[bar.id]? = some bar) (hbar : bar.role = "container.toolbar")
    (hplain : Plain root ∧ Plain bar) (hw : 0 ≤ a.w ∧ a.w < 2 ^ 31)
    (hc : c ∈ m.toolbarParts bar a) :
    (c.1.id, c.2.rect) ∈ (drawWidgetRecursive fa tile content m (depth + 2) root a).1 := by
  obtain ⟨⟨hvisible, hbitmap, -⟩, hbarVisible, hbarBitmap, hmax⟩ := hplain
  obtain ⟨area, harea, hx, hy, hwidth⟩ :=
    m.laidOut_first fa a.rect (root.gap.getD 0) rest hfiled hmax
  rw [Area.rect, asU32_eq hw.1 (by omega), asI32_of_inI32 ⟨by omega, hw.2⟩] at hwidth
  have hdrawn : (c.1.id, c.2.rect) ∈ (drawWidgetRecursive fa tile content m (depth + 1) bar area).1
      := by
    have hparts := mem_map_of_mem (f := fun c : Widget × Area => (c.1.id, c.2.rect)) hc
    simpa [drawWidgetRecursive, hbarVisible, hbarBitmap, hbar, toolbarParts, toolbarIn, hx, hy,
      hwidth, Area.rect] using hparts
  have hlaid : (drawWidgetRecursive fa tile content m (depth + 2) root a).1
      = (laidOut fa m a.rect (bar :: rest) columnSpec (root.gap.getD 0)).flatMap
        fun c => (drawWidgetRecursive fa tile content m (depth + 1) c.1 c.2).1 := by
    rcases hcolumn with hrole | hrole <;>
      simp [drawWidgetRecursive, hvisible, hbitmap, hrole, hchildren, containerSpec, hspec]
  rw [hlaid]
  exact mem_flatMap.mpr ⟨_, harea, hdrawn⟩

section OverToolbar

variable {p} (h : OverToolbar windowId layout contentWidth areaWidth window exclude p root bar rest)
include h

lemma hit_of_overToolbar
    (hhit : p.manager.hitTestWidgets (depth + 2) windowId layout contentWidth p.x p.y = some id) :
    ∃ c ∈ p.manager.toolbarParts bar (clientArea layout contentWidth),
      c.2.Has p.x p.y ∧ c.1.id = id := by
  have hnone : (p.manager.childrenOf windowId).find?
      (fun w => (absoluteArea w).any fun area => area.Has p.x p.y) = none := by
    rw [find?_eq_none]
    intro w hw hover
    obtain ⟨area, harea, hhas⟩ := (Option.any_eq_true _ _).mp hover
    exact h.clear w hw area harea (of_decide_eq_true hhas)
  rw [hitTestWidgets, hnone, h.roots, Option.map_none, none_or, findSome?_singleton] at hhit
  exact p.manager.hit_toolbarParts h.column h.children h.toolbar h.plain.2.1 h.under hhit

lemma OverToolbar.width_lt : 0 ≤ (clientArea layout contentWidth).w
    ∧ (clientArea layout contentWidth).w < 2 ^ 31 := by
  have hsmall := h.small.1
  simp only [Area.Small] at hsmall
  omega

/-- The column is painted in the whole width of the client area, and the parts of the toolbar where
the hit test looks for them. -/
lemma painted_of_overToolbar
    (hc : c ∈ p.manager.toolbarParts bar (clientArea layout contentWidth)) :
    (c.1.id, c.2.rect) ∈ p.manager.drawWidgets fa tile content (depth + 2) windowId layout
      areaWidth window exclude := by
  have hfiled := p.manager.filed_of_mem_childrenOf h.keyed
  have hrelative : ((p.manager.childrenOf windowId).filter fun w => some w.id ≠ exclude).filter
      (fun w => ¬Placed w) = [root] := by
    rw [filter_comm, h.roots]
    simp [h.shown]
  have hroot : root ∈ p.manager.childrenOf windowId :=
    mem_of_mem_filter (h.roots ▸ mem_singleton_self root)
  have hbar : bar ∈ p.manager.childrenOf root.id := h.children ▸ mem_cons_self
  have hw := h.width_lt
  obtain ⟨area, harea, hx, hy, hwidth⟩ := p.manager.laidOut_first fa ⟨layout.clientX,
    layout.clientY, (max areaWidth 0).toNat, (max layout.clientH 0).toNat⟩ (windowSpec window).2 []
    (hfiled _ _ hroot) h.plain.1.2.2
  simp only [h.width, Int.toNat_of_nonneg hw.1, asI32_of_inI32 ⟨by omega, hw.2⟩] at hwidth
  have hsame : p.manager.toolbarParts bar area
      = p.manager.toolbarParts bar (clientArea layout contentWidth) := by
    simp only [toolbarParts, toolbarIn, hx, hy, hwidth]
    rfl
  simp only [drawWidgets, hrelative, h.spec.1]
  exact mem_flatMap.mpr ⟨_, mem_append_left _ harea,
    p.manager.painted_toolbarParts h.column h.spec.2 h.children (hfiled _ _ hbar) h.toolbar
      h.plain (hwidth ▸ hw) (hsame ▸ hc)⟩

end OverToolbar

end Agreement

/-- No arithmetic is needed where nothing grows. -/
def noGrowth : FlexArithmetic where
  F32 := Unit
  ofInt := fun _ => ()
  add := fun _ _ => ()
  mul := fun _ _ => ()
  div := fun _ _ => ()
  isZero := fun _ => true
  isPositive := fun _ => false
  toU32 := fun _ => 0

def noIcons : Widget → Area → List Rect := fun _ _ => []

/-- The insides of a window in the corner of the screen. -/
def cornerLayout : WindowLayout := ⟨6, 6, 188, 32, 6, 38, 188, 156⟩

def column : Widget := { Widget.blank 2 with role := "window_root", parent := some 1 }

def toolbar : Widget :=
  { Widget.blank 3 with
    role := "container.toolbar", parent := some 2, x := some 6, y := some 38 }

def toolbarButton : Widget :=
  { Widget.blank 4 with role := "button", parent := some 3, x := some 6, y := some 42 }

/-- The pointer over the button of a toolbar in the column of a window. -/
def pressedButton : Pointer where
  x := 20
  y := 50
  buttons := 0
  manager := ⟨Std.ExtTreeMap.ofList [(2, column), (3, toolbar), (4, toolbarButton)] compare, none⟩

/-- A button ten pixels into a window. -/
def shiftedButton : Widget :=
  { Widget.blank 2 with
    role := "button", parent := some 1, x := some 10, y := some 10, width := some 20,
    height := some 20 }

/-- A window with the button as its only widget, and the pointer where the button would be if its
coordinates were those of the screen. -/
def pressedAbove : Pointer where
  x := 15
  y := 15
  buttons := 0
  manager := ⟨(∅ : Std.ExtTreeMap Uuid Widget compare).insert 2 shiftedButton, none⟩

end WidgetManager

end ThingOS.Compositor
