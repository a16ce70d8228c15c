import ThingOS.Compositor.Drag
import ThingOS.Compositor.Repaint

/-!
# The compositor and its screen

`Compositor` of `compositor/src/compositor.rs` on a framebuffer, with the loop of `main.rs` around
it. Events change the windows, the wallpapers and the cursor, and raise a flag if the screen has to
be painted again. A tick paints everything when a flag is up, the surroundings of the cursor when
only the cursor has moved, and nothing otherwise.

Things other than surfaces, windows and widgets arrive as what the compositor reads out of them.
What is written to the graph is left out.
-/

namespace ThingOS.Compositor

open Ui Host

/-! ## The framebuffer -/

/-- `BitmapFramebufferDevice`. The memory has rows of `pitch / 4` pixels; there is none if the
address is null. -/
structure FramebufferDevice where
  width : ℕ
  height : ℕ
  pitch : ℕ
  memory : Option (Canvas Pixel)
  rows : ∀ m ∈ memory, m.width = pitch / 4 ∧ m.height = height

namespace FramebufferDevice

variable (d : FramebufferDevice)

def pixel (d : FramebufferDevice) (x y : ℕ) : Option Pixel := d.memory.bind fun m => m.pixel x y

def write (marks : List (Mark Pixel)) : FramebufferDevice where
  width := d.width
  height := d.height
  pitch := d.pitch
  memory := d.memory.map fun m => m.draw marks
  rows := by
    intro m hm
    obtain ⟨m', hm', rfl⟩ := Option.mem_map.mp hm
    rw [Canvas.draw_width, Canvas.draw_height]
    exact d.rows m' hm'

/-- Columns `x0..x1` of rows `y0..y1` are copied from a frame, row by row as long as it has them. -/
def copyRows (frame : List Pixel) (x0 x1 y0 y1 : ℕ) : FramebufferDevice :=
  d.write (scan x0 x1 y0 y1 fun x y =>
    if y * d.width + x1 ≤ frame.length then frame[y * d.width + x]?.map fun a _ => a else none)

def present (frame : List Pixel) : FramebufferDevice :=
  if d.pitch = 0 ∨ d.height = 0 then d
  else
    let copyWidth := min d.width (d.pitch / 4)
    let copyHeight := min d.height (frame.length / d.width)
    d.copyRows frame 0 copyWidth 0 copyHeight

def presentPartial (frame : List Pixel) (dirtyRect : Rect) : FramebufferDevice :=
  if d.pitch = 0 ∨ d.height = 0 then d
  else
    match intersectRect dirtyRect ⟨0, 0, d.width, d.height⟩ with
    | none => d
    | some rect =>
      let x := rect.x.toNat
      let y := rect.y.toNat
      d.copyRows frame x (x + rect.width) y (y + rect.height)

end FramebufferDevice

def resizeRenderer (r : BitmapRenderer) (width height : ℕ) : BitmapRenderer where
  width := width
  height := height
  storage := (r.storage ++ List.replicate (width * height) 0).take (width * height)
  size := by simp

def Rect.union (a b : Rect) : Rect :=
  let x := min a.x b.x
  let y := min a.y b.y
  let maxX := max (a.x + a.width) (b.x + b.width)
  let maxY := max (a.y + a.height) (b.y + b.height)
  ⟨x, y, (maxX - x).toNat, (maxY - y).toNat⟩

/-! ## The cursor -/

structure CursorIcon where
  bitmap : Bitmap
  hotspot : ℤ × ℤ

structure CursorSprites where
  arrow : CursorIcon
  moveIcon : CursorIcon
  resizeNs : CursorIcon
  resizeEw : CursorIcon
  resizeNeSw : CursorIcon
  resizeNwSe : CursorIcon

def CursorSprites.forKind (sprites : CursorSprites) : CursorKind → CursorIcon
  | .arrow => sprites.arrow
  | .move => sprites.moveIcon
  | .resizeN | .resizeS => sprites.resizeNs
  | .resizeE | .resizeW => sprites.resizeEw
  | .resizeNE | .resizeSW => sprites.resizeNeSw
  | .resizeNW | .resizeSE => sprites.resizeNwSe

/-! ## The state -/

/-- What only the insides of windows depend on. -/
structure Insides where
  manager : WidgetManager
  drag : Option DragState

/-- What the compositor takes from elsewhere: the fonts, what is drawn inside windows, the shapes of
the cursor, and the widget that the tab key goes to. -/
structure CompositorEnv (F : Type) extends DragEnv where
  fonts : FontManager
  painter : Painter Insides F
  sprites : CursorSprites
  nextFocus : Desk Insides F → Bool → Option Uuid

/-- `Compositor`. The cursor and the widget manager are in the `pointer`. -/
structure Screen (F : Type) where
  frameNo : ℕ
  device : FramebufferDevice
  renderer : BitmapRenderer
  windowing : WindowState
  wallpapers : Std.ExtTreeMap Uuid WallpaperState compare
  layers : Std.ExtTreeMap Uuid (LayerState F) compare
  bitmaps : Std.ExtTreeMap String Bitmap compare
  layout : Layout
  pointer : Pointer
  cursorVisible : Bool
  cursorKind : CursorKind
  cursorPrevRect : Option Rect
  drag : Option DragState
  altDown : Bool
  shiftDown : Bool
  fbDirty : Bool
  contentDirty : Bool
  /-- The cursor as it was painted last. Nothing reads it. -/
  painted : List SceneItem

variable {F : Type} (env : CompositorEnv F) (σ : Screen F)

namespace Screen

/-- The part that scenes are made of. -/
def desk : Desk Insides F where
  windows := σ.windowing.1.windows
  modes := σ.windowing.slot
  activeMode := σ.windowing.1.activeMode
  activePlace := σ.windowing.1.activePlace
  activeWindow := σ.windowing.1.activeWindow
  wallpapers := σ.wallpapers
  layers := σ.layers
  bitmaps := σ.bitmaps
  layout := σ.layout
  rest := ⟨σ.pointer.manager, σ.drag⟩

/-- The size of the screen goes into what windows depend on. -/
def screenEnv : ScreenEnv := env.on σ.device.width σ.device.height

def getCursorRect : Option Rect :=
  if !σ.cursorVisible then none
  else
    let icon := env.sprites.forKind σ.cursorKind
    some (spriteRect (σ.pointer.x, σ.pointer.y) icon.bitmap icon.hotspot)

def drawCursor (σ : Screen F) : List SceneItem :=
  if !σ.cursorVisible then []
  else
    let baseX := clampI32 σ.pointer.x 0 (σ.device.width - 1 : ℕ)
    let baseY := clampI32 σ.pointer.y 0 (σ.device.height - 1 : ℕ)
    let icon := env.sprites.forKind σ.cursorKind
    [.drawCursor (baseX, baseY) icon.bitmap icon.hotspot]

def drawn : List SceneItem :=
  σ.desk.drawMode env.painter σ.device.width σ.device.height σ.frameNo

def scene : List SceneItem :=
  .clear clearColor :: (σ.drawn env ++ σ.drawCursor env)

/-! ## Events -/

/-- `on_mouse_event`. `set_active_window` raises the flag when it changes the active window. -/
def onMouseEvent (σ : Screen F) (dx dy : ℤ) (buttons : ℕ) : Screen F :=
  let titleBarHeight := σ.layout.titleBarHeight
  let pointer := (σ.pointer.onMouseEvent ⟨σ.device.width, σ.device.height,
    env.widgetAt titleBarHeight σ.windowing.1 σ.pointer.manager⟩ dx dy buttons).1
  let (windowing, drag) :=
    if Pointer.leftDown buttons then
      let (windowing, drag) :=
        if !Pointer.leftDown σ.pointer.buttons then
          env.onPointerDown titleBarHeight σ.windowing σ.pointer.manager σ.drag pointer.x pointer.y
        else (σ.windowing, σ.drag)
      (env.continueDrag windowing drag pointer.x pointer.y, drag)
    else (σ.windowing, none)
  { σ with
    pointer, windowing, drag
    cursorKind := computeCursorKind windowing.1 drag pointer.x pointer.y
    contentDirty := σ.contentDirty
      || decide (windowing.1.activeWindow ≠ σ.windowing.1.activeWindow) }

end Screen

/-- The keys that mean something to the compositor. -/
inductive Key where
  | t
  | i
  | o
  | tab
  | alt
  | altGr
  | shift
  | scroll (key : ScrollKey)
  | other
deriving DecidableEq

structure KeyEvent where
  key : Key
  down : Bool
  scancode : Option ℕ

def KeyEvent.isAlt (e : KeyEvent) : Bool :=
  decide (e.scancode = some 0x38 ∨ e.scancode = none ∧ (e.key = .alt ∨ e.key = .altGr))

def KeyEvent.isShift (e : KeyEvent) : Bool :=
  decide (e.scancode = some 0x2A ∨ e.scancode = some 0x36 ∨ e.scancode = none ∧ e.key = .shift)

namespace Screen

/-- The modifiers are remembered. -/
def modified (e : KeyEvent) : Screen F :=
  { σ with
    altDown := if e.isAlt then e.down else σ.altDown
    shiftDown := if e.isShift then e.down else σ.shiftDown }

def handleTabFocus : Screen F :=
  match env.nextFocus σ.desk σ.shiftDown with
  | none => σ
  | some id =>
    { σ with
      pointer := { σ.pointer with manager := { σ.pointer.manager with activeWidget := some id } }
      fbDirty := true }

/-- The commands. The two debug views are not drawn by `draw_mode`, and the function keys change the
mode in the graph only. -/
def command : Key → Screen F
  | .t =>
    if σ.altDown then
      { σ with windowing := σ.windowing.tileWindows σ.device.width σ.device.height }
    else σ
  | .i | .o => if σ.altDown then { σ with fbDirty := true } else σ
  | .tab => σ.handleTabFocus env
  | .alt | .altGr | .shift | .scroll _ | .other => σ

def scrollActive : Key → Screen F
  | .scroll key =>
    match σ.windowing.1.activeWindow with
    | some id => { σ with windowing := σ.windowing.modify id (env.handleScrollKey key) }
    | none => σ
  | .t | .i | .o | .tab | .alt | .altGr | .shift | .other => σ

def ingestKeyEvent (e : KeyEvent) : Screen F :=
  if e.down then ((σ.modified e).command env e.key).scrollActive env e.key else σ.modified e

def ingestCursor (x y : Option ℤ) (visible : Option Bool) : Screen F :=
  let place := fun (current : ℤ) (size : ℕ) (given : Option ℤ) =>
    (given.map fun v => clampI32 (asI32 v) 0 (size - 1 : ℕ)).getD current
  { σ with
    pointer := { σ.pointer with
      x := place σ.pointer.x σ.device.width x
      y := place σ.pointer.y σ.device.height y }
    cursorVisible := visible.getD σ.cursorVisible }

lemma flags_syncScroll {windows : Windows} {widget : Widget} {thing : GraphThing} {k : Uuid}
    (h : flags (WidgetManager.syncScroll windows widget thing) k = none) :
    flags windows k = none := by
  unfold WidgetManager.syncScroll at h
  split at h
  · split at h
    case h_1 window hwindow =>
      split at h
      · by_cases hk : k = ‹Uuid›
        · rw [flags_insert, hk, Function.update_self] at h
          cases h
        · rwa [flags_insert, Function.update_of_ne hk] at h
      · exact h
    case h_2 => exact h
  · exact h

lemma flags_ingestWidget {m : WidgetManager} {windows : Windows} {thing : GraphThing} {k : Uuid}
    (h : flags (m.ingestWidget windows thing).2 k = none) : flags windows k = none := by
  unfold WidgetManager.ingestWidget at h
  split at h
  · exact flags_syncScroll h
  · split at h
    · exact flags_syncScroll h
    · exact h

def ingestWidget (σ : Screen F) (thing : GraphThing) : Screen F :=
  let ingested := σ.pointer.manager.ingestWidget σ.windowing.1.windows thing
  { σ with
    pointer := { σ.pointer with manager := ingested.1 }
    windowing := σ.windowing.withWindows ingested.2 fun _ => flags_ingestWidget }

def ingestWallpaper (id : Uuid) (modeNode placeId : Option Uuid) : Screen F :=
  let layers := (σ.wallpapers[id]?.map WallpaperState.layers).getD []
  { σ with wallpapers := σ.wallpapers.insert id ⟨modeNode, placeId, layers⟩ }

def ingestLayer (wallpaperId id : Uuid) (layer : LayerState F) : Screen F :=
  let wallpaper := σ.wallpapers[wallpaperId]?.getD ⟨none, none, []⟩
  let layers := σ.layers.insert id layer
  let zIndex := fun id => (layers[id]?.map LayerState.zIndex).getD 0
  let listed := if id ∈ wallpaper.layers then wallpaper.layers else wallpaper.layers ++ [id]
  { σ with
    layers
    wallpapers := σ.wallpapers.insert wallpaperId
      { wallpaper with layers := listed.insertionSort fun a b => zIndex a ≤ zIndex b } }

/-- The mode with a number, which is brought into the range of modes. -/
def modeOf (index : ℤ) : Fin 12 := ⟨(min (max index 0) 11).toNat, by omega⟩

/-- The flag is raised. -/
def soil : Screen F := { σ with contentDirty := true }

end Screen

inductive ScreenStep (F : Type) where
  | surface (s : InMemoryGraphStore) (thing : GraphThing)
  | window (thing : GraphThing)
  | widget (thing : GraphThing)
  | wallpaper (id : Uuid) (modeNode placeId : Option Uuid)
  | layer (wallpaperId id : Uuid) (layer : LayerState F)
  | mode (index : ℤ)
  | modeDef (index : ℤ) (placeId : Uuid)
  | mouse (dx dy : ℤ) (buttons : ℕ)
  | key (e : KeyEvent)
  | cursor (x y : Option ℤ) (visible : Option Bool)
  | framebuffer
  | resize (device : FramebufferDevice)
  | tick

namespace Screen

def ingestWindow (window : Ui.Window) : Screen F :=
  let windowing := σ.windowing.step (σ.screenEnv env) (.window window)
  { σ with
    windowing
    fbDirty := σ.fbDirty || (windowing.1.autoLayoutDone && !σ.windowing.1.autoLayoutDone) }

def windowStep (s : ModeStep) : Screen F :=
  { σ with windowing := σ.windowing.step (σ.screenEnv env) s }

/-- The resize in the kernel's loop of `main`; the loop of the host does not ask for the flag. -/
def resize (device : FramebufferDevice) : Screen F :=
  if σ.fbDirty then
    { σ with
      device
      renderer := resizeRenderer σ.renderer device.width device.height
      pointer := { σ.pointer with
        x := clampI32 σ.pointer.x 0 (device.width - 1 : ℕ)
        y := clampI32 σ.pointer.y 0 (device.height - 1 : ℕ) }
      contentDirty := true
      fbDirty := false }
  else σ

/-! ## Ticks -/

/-- What a tick does before it paints: `enforce_place_layout`, `ensure_active_window`,
`update_cursor_kind` and `update_scrollbars`. -/
def settle : Screen F :=
  let before := σ.windowing.1
  let active := (before.coverScreen (σ.screenEnv env)).ensureActiveWindow
  { σ with
    windowing := σ.windowing.step (σ.screenEnv env) .tick
    cursorKind := computeCursorKind active σ.drag σ.pointer.x σ.pointer.y
    contentDirty := σ.contentDirty
      || (enforcePlaceLayout before.activePlace σ.device.width σ.device.height before.windows).2.2
      || decide (active.activeWindow ≠ before.activeWindow) }

/-- A flag is up. -/
def dirty : Bool := σ.fbDirty || σ.contentDirty

/-- The rectangle that is painted when only the cursor has moved. -/
def dirtyRect : Rect :=
  match σ.cursorPrevRect, σ.getCursorRect env with
  | some prev, some curr => prev.union curr
  | some prev, none => prev
  | none, curr => curr.getD ⟨0, 0, 0, 0⟩

/-- What is left of a tick when something has been painted. -/
def painting (renderer : BitmapRenderer) (device : FramebufferDevice) : Screen F :=
  { σ with
    renderer, device
    contentDirty := false
    cursorPrevRect := σ.getCursorRect env
    painted := σ.drawCursor env
    frameNo := (σ.frameNo + 1) % 2 ^ 64 }

def paint : Screen F :=
  if !σ.dirty && decide (σ.getCursorRect env = σ.cursorPrevRect) then σ
  else if σ.dirty then
    let frame := render env.fonts σ.renderer (σ.scene env)
    σ.painting env frame (σ.device.present frame.storage)
  else
    let frame := renderPartial env.fonts σ.renderer (σ.scene env) (σ.dirtyRect env)
    σ.painting env frame (σ.device.presentPartial frame.storage (σ.dirtyRect env))

def tick : Screen F :=
  if σ.device.width = 0 ∨ σ.device.height = 0 then σ else (σ.settle env).paint env

def step : ScreenStep F → Screen F
  | .surface s thing => (σ.windowStep env (.surface s thing)).soil
  | .window thing =>
    match Window.load thing with
    | some window => (σ.ingestWindow env window).soil
    | none => σ
  | .widget thing => (σ.ingestWidget thing).soil
  | .wallpaper id modeNode placeId => (σ.ingestWallpaper id modeNode placeId).soil
  | .layer wallpaperId id layer => (σ.ingestLayer wallpaperId id layer).soil
  | .mode index =>
    if modeOf index = σ.windowing.1.activeMode then σ
    else (σ.windowStep env (.setMode (modeOf index))).soil
  | .modeDef index placeId =>
    let defined := σ.windowStep env (.defineMode (modeOf index) placeId)
    if modeOf index = σ.windowing.1.activeMode then defined.soil else defined
  | .mouse dx dy buttons => σ.onMouseEvent env dx dy buttons
  | .key e => σ.ingestKeyEvent env e
  | .cursor x y visible => σ.ingestCursor x y visible
  | .framebuffer => { σ with fbDirty := true }
  | .resize device => σ.resize device
  | .tick => σ.tick env

end Screen

end ThingOS.Compositor
