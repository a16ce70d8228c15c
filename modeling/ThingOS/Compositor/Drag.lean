import ThingOS.Compositor.Gesture
import ThingOS.Compositor.Modes

/-!
# Windows in the hands of the user

What the pointer and the keys do to windows (`on_pointer_down`, `continue_drag`, `tile_windows` and
`handle_scroll_key` of `compositor/src/compositor.rs`). A press on a window makes it the active one
and takes hold of its title bar, an edge or its scrollbar; while the button is held, the window
follows. Keys tile the windows and scroll the active one.

Coordinates are `i32` and stand here as integers. What is written to the graph is left out, and so
is the drag of a close button, which nothing begins.
-/

namespace ThingOS.Compositor

open Ui Host ModeState Option

/-- The windows and the modes of a compositor. All windows of the modes are known, and none of them
stands in two places. -/
def WindowState := {σ : ModeState // σ.OnlyKnown ∧ σ.AtMostOnce}

namespace WindowState

def step (env : ScreenEnv) (ws : WindowState) (s : ModeStep) : WindowState :=
  ⟨ws.1.step env s, onlyKnown_step env s ws.2.1,
    atMostOnce_step env s ws.2.1 ws.2.2⟩

/-- The windows change, but not which of them are known. -/
def withWindows (ws : WindowState) (windows : Windows)
    (h : ∀ k, flags windows k = none → flags ws.1.windows k = none) : WindowState :=
  ⟨{ ws.1 with windows }, fun k hk => ws.2.1 k (h k hk), ws.2.2⟩

lemma flags_modifyWindow_eq_none {windows : Windows} {id : Uuid}
    {f : WindowSurface → WindowSurface} {k : Uuid}
    (h : flags (modifyWindow windows id f) k = none) :
    flags windows k = none := by
  simp only [flags, map_eq_none_iff, getElem?_modifyWindow] at h ⊢
  split at h
  · exact map_eq_none_iff.mp h
  · exact h

/-- `get_mut`. -/
def modify (ws : WindowState) (id : Uuid) (f : WindowSurface → WindowSurface) : WindowState :=
  ws.withWindows (modifyWindow ws.1.windows id f) fun _ => flags_modifyWindow_eq_none

/-- A mode, as scenes are made of it. -/
def slot (ws : WindowState) (i : Fin 12) : ModeSlot where
  rootWindow := (ws.1.modes i).rootWindow
  windows := (ws.1.modes i).windows
  placeId := (ws.1.modes i).placeId
  apart _ := ws.2.2.apart

end WindowState

/-! ## Scrolling -/

/-- The scrollbar of `ContentMetrics`. -/
structure Scrollbar where
  track : Rect
  thumb : Rect
  thumbOffset : ℤ

/-- What the hands of the user depend on besides: the scrollbar that a window gets and where it is,
the widgets at a point, and `((offset as f32 / travel as f32) * max_scroll as f32 + 0.5) as i32`. -/
structure DragEnv extends SurfaceEnv where
  newScrollbar : WindowSurface → Option Uuid
  scrollbar : WindowSurface → Option Scrollbar
  hitTestWidgets : WidgetManager → WindowSurface → WindowLayout → ℤ → ℤ → Option Uuid
  thumbScroll : ℤ → ℤ → ℤ → ℤ

namespace DragEnv

variable (env : DragEnv)

/-- The same on a screen of some size. -/
def on (width height : ℕ) : ScreenEnv := ⟨env.toSurfaceEnv, width, height, env.newScrollbar⟩

def setScrollOffset (newOffset : ℤ) (surface : WindowSurface) : WindowSurface :=
  match env.metrics surface with
  | none => surface
  | some metrics =>
    { surface with
      scrollY := if metrics.maxScroll ≤ 0 then 0 else clampI32 newOffset 0 metrics.maxScroll }

def scrollWindowBy (delta : ℤ) (surface : WindowSurface) : WindowSurface :=
  if delta = 0 then surface
  else env.setScrollOffset (max (-2 ^ 31) (min (surface.scrollY + delta) i32Max)) surface

end DragEnv

inductive ScrollKey where
  | up
  | down
  | pageUp
  | pageDown
  | home
  | end_
deriving DecidableEq

def scrollStepLine : ℤ := fontHeight

/-- `handle_scroll_key`, for the active window. -/
def DragEnv.handleScrollKey (env : DragEnv) (key : ScrollKey) (surface : WindowSurface) :
    WindowSurface :=
  match env.metrics surface with
  | none => surface
  | some metrics =>
    if metrics.maxScroll ≤ 0 then surface
    else
      let page := max metrics.viewportHeight scrollStepLine
      match key with
      | .up => env.scrollWindowBy (-scrollStepLine) surface
      | .down => env.scrollWindowBy scrollStepLine surface
      | .pageUp => env.scrollWindowBy (-page) surface
      | .pageDown => env.scrollWindowBy page surface
      | .home => env.setScrollOffset 0 surface
      | .end_ => env.setScrollOffset metrics.maxScroll surface

/-! ## Edges -/

structure ResizeEdges where
  left : Bool
  right : Bool
  top : Bool
  bottom : Bool

def resizeCornerSize : ℤ := 8

/-- An edge is this close. -/
def near (bound dist : ℤ) : Bool := decide (0 ≤ dist ∧ dist ≤ bound)

def hitTestResize (winX winY winW winH cursorX cursorY : ℤ) : Option ResizeEdges :=
  let leftDist := cursorX - winX
  let rightDist := winX + winW - cursorX
  let topDist := cursorY - winY
  let bottomDist := winY + winH - cursorY
  let nearLeft := near resizeMargin leftDist
  let nearRight := near resizeMargin rightDist
  let nearTop := near resizeMargin topDist
  let nearBottom := near resizeMargin bottomDist
  let corner := fun a b : ℤ => near resizeCornerSize a && near resizeCornerSize b
  let edges : ResizeEdges :=
    if nearLeft && corner leftDist topDist then ⟨true, false, true, false⟩
    else if nearRight && corner rightDist topDist then ⟨false, true, true, false⟩
    else if nearLeft && corner leftDist bottomDist then ⟨true, false, false, true⟩
    else if nearRight && corner rightDist bottomDist then ⟨false, true, false, true⟩
    else ⟨nearLeft, !nearLeft && nearRight, nearTop, !nearTop && nearBottom⟩
  if edges.left || edges.right || edges.top || edges.bottom then some edges else none

/-- Along one axis, where a window begins and how long it is after an edge was dragged. -/
def resizeAxis (minSize : ℤ) (low high : Bool) (start size delta : ℤ) : ℤ × ℤ :=
  let (pos, len) :=
    if low then
      let clamped := max minSize (size - delta)
      (start + (size - clamped), clamped)
    else if high then (start, max minSize (size + delta))
    else (start, size)
  if pos < 0 then (0, max (len - pos) minSize) else (pos, len)

/-! ## Drags -/

inductive DragKind where
  | move (offsetX offsetY : ℤ)
  | resize (edges : ResizeEdges) (startCursorX startCursorY startX startY startW startH : ℤ)
  | scrollThumb (trackHeight thumbHeight thumbOffset maxScroll startCursorY : ℤ)

structure DragState where
  windowId : Uuid
  kind : DragKind

def rectContains (rect : Rect) (x y : ℤ) : Bool :=
  decide ((rect.x ≤ x ∧ x < rect.x + rect.width) ∧ rect.y ≤ y ∧ y < rect.y + rect.height)

def layoutOf (titleBarHeight : ℕ) (surface : WindowSurface) : Option WindowLayout :=
  computeWindowLayout (asI32 surface.window.x) (asI32 surface.window.y) (asI32 surface.window.width)
    (asI32 surface.window.height) titleBarHeight

/-- What a press on a window takes hold of. -/
inductive Grip where
  | drag (kind : DragKind)
  | page (delta : ℤ)
  | nothing

namespace DragEnv

variable (env : DragEnv)

/-- The edge or the title bar under the cursor. -/
def gripFrame (surface : WindowSurface) (layout : WindowLayout) (x y : ℤ) : Grip :=
  let winX := asI32 surface.window.x
  let winY := asI32 surface.window.y
  let winW := asI32 surface.window.width
  let winH := asI32 surface.window.height
  match hitTestResize winX winY winW winH x y with
  | some edges => .drag (.resize edges x y winX winY winW winH)
  | none =>
    if layout.titleY ≤ y ∧ y < layout.titleY + layout.titleH then
      .drag (.move (x - winX) (y - winY))
    else .nothing

/-- The scrollbar comes before the frame. -/
def grip (surface : WindowSurface) (layout : WindowLayout) (x y : ℤ) : Grip :=
  match env.metrics surface, env.scrollbar surface with
  | some metrics, some bar =>
    if 0 < metrics.maxScroll ∧ rectContains bar.track x y = true then
      if rectContains bar.thumb x y then
        .drag (.scrollThumb bar.track.height bar.thumb.height bar.thumbOffset metrics.maxScroll y)
      else
        let page := max metrics.viewportHeight scrollStepLine
        .page (if y < bar.thumb.y then -page else page)
    else gripFrame surface layout x y
  | _, _ => gripFrame surface layout x y

/-- The widget under the cursor, when a press has made its window the active one. -/
def widgetAt (titleBarHeight : ℕ) (σ : ModeState) (manager : WidgetManager) (x y : ℤ) :
    Option Uuid :=
  (σ.findFrom x y σ.orderedWindowIds.reverse).bind fun id =>
    (σ.onPointerDown x y).windows[id]?.bind fun surface =>
      (layoutOf titleBarHeight surface).bind fun layout =>
        env.hitTestWidgets manager surface layout x y

/-- `on_pointer_down`, as far as windows are concerned. -/
def onPointerDown (titleBarHeight : ℕ) (ws : WindowState) (manager : WidgetManager)
    (drag : Option DragState) (x y : ℤ) : WindowState × Option DragState :=
  let pressed := ws.step (env.on 0 0) (.press x y)
  match ws.1.findFrom x y ws.1.orderedWindowIds.reverse with
  | none => (pressed, drag)
  | some id =>
    match pressed.1.windows[id]? with
    | none => (pressed, drag)
    | some surface =>
      match layoutOf titleBarHeight surface with
      | none => (pressed, drag)
      | some layout =>
        if (env.hitTestWidgets manager surface layout x y).isSome then (pressed, drag)
        else
          match env.grip surface layout x y with
          | .drag kind => (pressed, some ⟨id, kind⟩)
          | .page delta => (pressed.modify id (env.scrollWindowBy delta), drag)
          | .nothing => (pressed, drag)

def continueDrag (ws : WindowState) (drag : Option DragState) (x y : ℤ) : WindowState :=
  match drag with
  | none => ws
  | some ⟨id, .move offsetX offsetY⟩ =>
    ws.modify id (WindowSurface.mapWindow fun window =>
      { window with x := (max 0 (x - offsetX)).toNat, y := (max 0 (y - offsetY)).toNat })
  | some ⟨id, .resize edges startCursorX startCursorY startX startY startW startH⟩ =>
    let (newX, newW) := resizeAxis 140 edges.left edges.right startX startW (x - startCursorX)
    let (newY, newH) := resizeAxis 100 edges.top edges.bottom startY startH (y - startCursorY)
    ws.modify id fun surface =>
      env.clampScroll (surface.mapWindow fun window =>
        { window with x := newX.toNat, y := newY.toNat, width := newW.toNat, height := newH.toNat })
  | some ⟨id, .scrollThumb trackHeight thumbHeight thumbOffset maxScroll startCursorY⟩ =>
    if maxScroll ≤ 0 then ws
    else
      let travel := max (trackHeight - thumbHeight) 1
      let newThumbOffset := clampI32 (thumbOffset + (y - startCursorY)) 0 travel
      ws.modify id (env.setScrollOffset (env.thumbScroll newThumbOffset travel maxScroll))

end DragEnv

/-! ## Tiling -/

def ModeState.visibleWindowIds (σ : ModeState) : List Uuid :=
  σ.orderedWindowIds.filter fun id => σ.windows[id]?.any fun surface => surface.surfaceId.isSome

def WindowState.tileWindows (ws : WindowState) (screenW screenH : ℕ) : WindowState :=
  let visible := ws.1.visibleWindowIds
  if visible = [] then ws
  else
    let cols := gridCols visible.length
    let rows := (visible.length + cols - 1) / cols
    let w := screenW / cols
    let h := screenH / rows
    visible.zipIdx.foldl (fun ws (id, i) =>
      ws.modify id (WindowSurface.mapWindow
        (tileTo ⟨(i % cols * w : ℕ), (i / cols * h : ℕ), w, h⟩))) ws

/-! ## The shape of the cursor -/

inductive CursorKind where
  | arrow
  | move
  | resizeN
  | resizeS
  | resizeE
  | resizeW
  | resizeNE
  | resizeNW
  | resizeSE
  | resizeSW

def cursorKindForEdges (edges : ResizeEdges) : CursorKind :=
  match edges.left, edges.right, edges.top, edges.bottom with
  | true, false, true, false => .resizeNW
  | false, true, true, false => .resizeNE
  | true, false, false, true => .resizeSW
  | false, true, false, true => .resizeSE
  | true, false, false, false => .resizeW
  | false, true, false, false => .resizeE
  | false, false, true, false => .resizeN
  | false, false, false, true => .resizeS
  | _, _, _, _ => .arrow

def computeCursorKind (σ : ModeState) (drag : Option DragState) (x y : ℤ) : CursorKind :=
  match drag with
  | some ⟨_, .move _ _⟩ => .move
  | some ⟨_, .resize edges _ _ _ _ _ _⟩ => cursorKindForEdges edges
  | some ⟨_, .scrollThumb _ _ _ _ _⟩ => .move
  | none =>
    match (σ.findFrom x y σ.orderedWindowIds.reverse).bind fun id => σ.windows[id]? with
    | none => .arrow
    | some surface =>
      match hitTestResize (asI32 surface.window.x) (asI32 surface.window.y)
          (asI32 surface.window.width) (asI32 surface.window.height) x y with
      | some edges => cursorKindForEdges edges
      | none => .arrow

/-! ## What a resize leaves alone -/

/-- Along one axis: an edge that is not dragged is where it was, and there is room between the
two. -/
def KeepsEdges (minSize : ℤ) (low high : Bool) (start size pos len : ℤ) : Prop :=
  minSize ≤ len ∧ (low = false → pos = start) ∧ (high = false → pos + len = start + size)

def Anchored (edges : ResizeEdges) (startX startY startW startH : ℤ) (window : Ui.Window) : Prop :=
  KeepsEdges 140 edges.left edges.right startX startW window.x window.width
    ∧ KeepsEdges 100 edges.top edges.bottom startY startH window.y window.height

/-- The low edge is not dragged over the border of the screen. -/
def StaysInside (low : Bool) (start delta : ℤ) : Prop := low = true → 0 ≤ start + delta

/-- Beyond the border the window grows at the other end. -/
lemma keepsEdges_resizeAxis_iff {minSize start size delta : ℤ} {low high : Bool}
    (hmin : 0 ≤ minSize) (hstart : 0 ≤ start) (hsize : minSize ≤ size)
    (hone : (low && high) = false) :
    KeepsEdges minSize low high start size
        (resizeAxis minSize low high start size delta).1.toNat
        (resizeAxis minSize low high start size delta).2.toNat
      ↔ StaysInside low start delta := by
  unfold KeepsEdges StaysInside resizeAxis
  cases low <;> cases high <;> grind

lemma one_edge_of_hitTestResize {winX winY winW winH cursorX cursorY : ℤ} {edges : ResizeEdges}
    (h : hitTestResize winX winY winW winH cursorX cursorY = some edges) :
    (edges.left && edges.right) = false ∧ (edges.top && edges.bottom) = false := by
  simp only [hitTestResize, ite_none_right_eq_some, some_inj] at h
  rw [← h.2]
  have hcases (a b : Bool) : (a && (!a && b)) = false := by cases a <;> rfl
  split_ifs
  iterate 4 exact ⟨rfl, rfl⟩
  exact ⟨hcases _ _, hcases _ _⟩

/-- The cursor has dragged the edges of a window that was at `x`, `y` to where it is now. -/
def DragEnv.resizeTo (env : DragEnv) (id : Uuid) (edges : ResizeEdges)
    (cursorX cursorY x y w h : ℤ) (ws : WindowState) (cursor : ℤ × ℤ) : WindowState :=
  env.continueDrag ws (some ⟨id, .resize edges cursorX cursorY x y w h⟩) cursor.1 cursor.2

/-- After every movement of a drag the window keeps the edges that are not dragged, exactly if the
cursor has not dragged an edge over the left or the upper border of the screen. -/
theorem anchored_resize_iff (env : DragEnv) (ws : WindowState) {id : Uuid}
    (hknown : id ∈ ws.1.windows) {x y w h cursorX cursorY : ℤ} {edges : ResizeEdges}
    (hx : 0 ≤ x) (hy : 0 ≤ y) (hw : 140 ≤ w) (hh : 100 ≤ h)
    (hgrab : hitTestResize x y w h cursorX cursorY = some edges) (cursors : List (ℤ × ℤ))
    (cursor : ℤ × ℤ) :
    (∃ entry, (run (env.resizeTo id edges cursorX cursorY x y w h) ws
          (cursors ++ [cursor])).1.windows[id]? = some entry ∧ Anchored edges x y w h entry.window)
      ↔ StaysInside edges.left x (cursor.1 - cursorX)
        ∧ StaysInside edges.top y (cursor.2 - cursorY) := by
  obtain ⟨hlr, htb⟩ := one_edge_of_hitTestResize hgrab
  have hthere :
      id ∈ (run (env.resizeTo id edges cursorX cursorY x y w h) ws cursors).1.windows := by
    refine run_invariant (P := fun ws : WindowState => id ∈ ws.1.windows) cursors hknown ?_
    intro ws cursor hmem
    rw [Std.ExtTreeMap.mem_iff_isSome_getElem?] at hmem ⊢
    simpa [DragEnv.resizeTo, DragEnv.continueDrag, WindowState.modify, WindowState.withWindows,
      getElem?_modifyWindow] using hmem
  obtain ⟨entry, hentry⟩ := isSome_iff_exists.mp
    (Std.ExtTreeMap.mem_iff_isSome_getElem?.mp hthere)
  rw [run_concat, DragEnv.resizeTo]
  simp only [DragEnv.continueDrag, WindowState.modify, WindowState.withWindows,
    getElem?_modifyWindow, hentry, if_true, map_some, some_inj, exists_eq_left']
  exact and_congr (keepsEdges_resizeAxis_iff (by decide) hx hw hlr)
    (keepsEdges_resizeAxis_iff (by decide) hy hh htb)

def oneWindow : WindowState :=
  WindowState.step plainScreen ⟨start fun _ => none, onlyKnown_start _,
    fun k => (onlyKnown_start _ k rfl).trans_le zero_le_one⟩ (.window (defaultWindow 5))

def plainDrag : DragEnv where
  toSurfaceEnv := plainEnv
  newScrollbar _ := none
  scrollbar _ := none
  hitTestWidgets _ _ _ _ _ := none
  thumbScroll _ _ _ := 0

theorem anchored_resize_left :
    hitTestResize 32 32 320 200 34 100 = some ⟨true, false, false, false⟩
      ∧ ∃ entry, (run (plainDrag.resizeTo 5 ⟨true, false, false, false⟩ 34 100 32 32 320 200)
          oneWindow ([(900, 0)] ++ [(10, 7)])).1.windows[(5 : Uuid)]? = some entry
        ∧ Anchored ⟨true, false, false, false⟩ 32 32 320 200 entry.window :=
  ⟨rfl, (anchored_resize_iff plainDrag oneWindow (by decide +kernel) (by decide) (by decide)
    (by decide) (by decide) rfl [(900, 0)] (10, 7)).mpr ⟨fun _ => by decide, nofun⟩⟩

/-- The left edge of a window at 32 is dragged to the border of the screen by the cursor two pixels
to the right of it: the right edge, which was at 352, goes to 356. -/
theorem resize_moves_right_edge :
    hitTestResize 32 32 320 200 34 100 = some ⟨true, false, false, false⟩
      ∧ (plainDrag.resizeTo 5 ⟨true, false, false, false⟩ 34 100 32 32 320 200 oneWindow
          (0, 100)).1.windows[(5 : Uuid)]?.map (fun entry => (entry.window.x, entry.window.width))
        = some (0, 356) :=
  ⟨rfl, by decide +kernel⟩

end ThingOS.Compositor
