import Mathlib.Data.List.Sort
import ThingOS.Compositor.Raster
import ThingOS.Userland.Identity

/-!
# What the compositor shows

The part of `Compositor` that a scene is made of, and how `draw_mode` makes it: the wallpaper of the
active mode, its root window over the whole screen and its other windows in order. What the widget
manager draws inside a window and the offset of a wallpaper's layer, a product in `f64`, are
parameters.
-/

namespace ThingOS.Compositor

open Ui

/-- `ModeSlot`. A window is put into one place of one mode, when it is first heard of. -/
structure ModeSlot where
  rootWindow : Option Uuid
  windows : List Uuid
  placeId : Option Uuid
  apart : ∀ root, rootWindow = some root → root ∉ windows

inductive LayerKind where
  | solidColor (color : Rgba)
  | image (name : String)

structure LayerState (F : Type) where
  kind : LayerKind
  scrollFactorX : F
  scrollFactorY : F
  zIndex : ℕ

structure WallpaperState where
  modeNode : Option Uuid
  placeId : Option Uuid
  layers : List Uuid

/-- The parts of `Layout` that windows are drawn with. -/
structure Layout where
  titleBarHeight : ℕ
  frameOuter : Rgba
  frameHilight : Rgba
  frameShadow : Rgba
  titleActive : Rgba
  titleInactive : Rgba
  clientBg : Rgba

def Layout.default : Layout where
  titleBarHeight := 32
  frameOuter := ⟨0x5A, 0x6A, 0x8A, 0xFF⟩
  frameHilight := ⟨0xFF, 0xFF, 0xFF, 0xFF⟩
  frameShadow := ⟨0x9A, 0xA7, 0xC5, 0xFF⟩
  titleActive := ⟨0x6C, 0x9A, 0xFF, 0xFF⟩
  titleInactive := ⟨0xE3, 0xEA, 0xF8, 0xFF⟩
  clientBg := ⟨0xFD, 0xFB, 0xF7, 0xFF⟩

def colorText : Rgba := ⟨0x10, 0x1F, 0x3F, 0xFF⟩

def firstMode : Fin 12 := 0

/-- The fields of `Compositor` that scenes are made of. The `rest` is what only the insides of
windows depend on: the widgets and what is being dragged. -/
structure Desk (R F : Type) where
  windows : Windows
  modes : Fin 12 → ModeSlot
  activeMode : Fin 12
  activePlace : Option Uuid
  activeWindow : Option Uuid
  wallpapers : Std.ExtTreeMap Uuid WallpaperState compare
  layers : Std.ExtTreeMap Uuid (LayerState F) compare
  bitmaps : Std.ExtTreeMap String Bitmap compare
  layout : Layout
  rest : R

/-- What is drawn inside windows, and the offset of a layer at a frame. -/
structure Painter (R F : Type) where
  /-- `(frame_no as f64 * factor) as i32`. -/
  scrollOffset : ℕ → F → ℤ
  /-- `draw_widgets` of a root window. -/
  rootWidgets : Desk R F → WindowSurface → ℕ → ℕ → List SceneItem
  /-- The widget in the title bar. -/
  titleBar : Desk R F → WindowSurface → WindowLayout → List SceneItem
  /-- The widgets, the picture or the text of a window, and its scrollbar. -/
  content : Desk R F → WindowSurface → WindowLayout → List SceneItem

variable {R F : Type}

namespace Desk

def mode (d : Desk R F) : ModeSlot := d.modes d.activeMode

/-! ## The wallpaper -/

def modeNode (i : Fin 12) : Uuid := simpleUuid ("ModeF" ++ toString (i.val + 1)).toUTF8.toList

def activeWallpaper (d : Desk R F) : Option WallpaperState :=
  let ofPlace := d.mode.placeId.bind fun place =>
    (d.wallpapers.toList.map Prod.snd).find? fun w => w.placeId = some place
  ofPlace.or
    ((d.wallpapers.toList.map Prod.snd).find? fun w => w.modeNode = some (modeNode d.activeMode))

def buildWallpaperScene (p : Painter R F) (d : Desk R F) (screen : Rect)
    (wallpaper : WallpaperState) (frameNo : ℕ) : List SceneItem :=
  ((wallpaper.layers.filterMap fun id => d.layers[id]?).insertionSort
    fun a b => a.zIndex ≤ b.zIndex).flatMap fun layer =>
      match layer.kind with
      | .solidColor color => [.fillRect screen color]
      | .image name =>
        match d.bitmaps[name]? with
        | some bitmap =>
          [.blitImage screen bitmap true
            (p.scrollOffset frameNo layer.scrollFactorX,
              p.scrollOffset frameNo layer.scrollFactorY)]
        | none => []

def drawBackground (p : Painter R F) (d : Desk R F) (w h frameNo : ℕ) : List SceneItem :=
  match d.activeWallpaper with
  | some wallpaper => d.buildWallpaperScene p ⟨0, 0, w, h⟩ wallpaper frameNo
  | none => [.fillRect ⟨0, 0, w, h⟩ clearColor]

/-! ## Windows -/

/-- A colour that a surface may have set. -/
def colorOr (color : Option ℕ) (default : Rgba) : Rgba :=
  (color.map fun c => Rgba.fromU32 (.ofNat 32 c)).getD default

def drawRootWindow (p : Painter R F) (d : Desk R F) (surface : WindowSurface) (w h : ℕ) :
    List SceneItem :=
  let rect : Rect := ⟨0, 0, w, h⟩
  [.clipPush rect, .fillRect rect (colorOr surface.bgColor d.layout.clientBg)] ++
  (match surface.bitmap with
  | some bmp => [.blitImage rect bmp surface.repeat_ (0, 0)]
  | none =>
    if surface.text ≠ "" then
      [.drawTextBlock rect surface.text (colorOr surface.textColor colorText) surface.scrollY
        surface.isMono]
    else []) ++
  p.rootWidgets d surface w h ++ [.clipPop]

/-- The drop shadow, in four layers. -/
def drawShadow (x y : ℤ) (w h : ℕ) : List SceneItem :=
  [.fillRect ⟨x + 4, y + 4, w, h⟩ ⟨0, 0, 0, 0x40⟩,
    .fillRect ⟨x + 3, y + 3, w + 2, h + 2⟩ ⟨0, 0, 0, 0x20⟩,
    .fillRect ⟨x + 2, y + 2, w + 4, h + 4⟩ ⟨0, 0, 0, 0x10⟩,
    .fillRect ⟨x + 1, y + 1, w + 6, h + 6⟩ ⟨0, 0, 0, 0x08⟩]

/-- The frame and the title bar of a window that has room for them. -/
def drawFrame (l : Layout) (isActive : Bool) (x y : ℤ) (w h : ℕ) (layout : WindowLayout) :
    List SceneItem :=
  let title := if isActive then l.titleActive else l.titleInactive
  [.fillRect ⟨x, y, w, h⟩ l.frameOuter,
    .fillRect ⟨x + 1, y + 1, w - 2, 1⟩ l.frameHilight,
    .fillRect ⟨x + 1, y + 1, 1, h - 2⟩ l.frameHilight,
    .fillRect ⟨x + w - 2, y + 1, 1, h - 2⟩ l.frameShadow,
    .fillRect ⟨x + 1, y + h - 2, w - 2, 1⟩ l.frameShadow,
    .fillRect ⟨x + 2, y + 2, w - 4, h - 4⟩ title,
    .fillRect ⟨layout.titleX, layout.titleY, layout.titleW.toNat, layout.titleH.toNat⟩ title,
    .fillRect ⟨layout.titleX, layout.titleY + layout.titleH - 1, layout.titleW.toNat, 1⟩
      l.frameShadow]

/-- `draw_window`. A window is moved no farther than the far edges of the screen, and one without
room for a frame has a shadow only. -/
def drawWindow (p : Painter R F) (d : Desk R F) (surface : WindowSurface) (fbW fbH : ℕ) :
    List SceneItem :=
  let w := surface.window.width
  let h := surface.window.height
  if w = 0 ∨ h = 0 then []
  else
    let x : ℤ := (min surface.window.x fbW : ℕ)
    let y : ℤ := (min surface.window.y fbH : ℕ)
    let isActive := surface.window.active || decide (d.activeWindow = some surface.window.id)
    drawShadow x y (asU32 w) (asU32 h) ++
    match computeWindowLayout x y (asI32 w) (asI32 h) d.layout.titleBarHeight with
    | none => []
    | some layout =>
      .clipPush ⟨x, y, asU32 w, asU32 h⟩ ::
        (drawFrame d.layout isActive x y (asU32 w) (asU32 h) layout ++
          p.titleBar d surface layout ++ p.content d surface layout ++ [.clipPop])

def drawMode (p : Painter R F) (d : Desk R F) (w h frameNo : ℕ) : List SceneItem :=
  d.drawBackground p w h frameNo ++
  ((d.mode.rootWindow.bind fun root => d.windows[root]?).toList.flatMap fun surface =>
    d.drawRootWindow p surface w h) ++
  d.mode.windows.flatMap fun id =>
    d.windows[id]?.toList.flatMap fun surface => d.drawWindow p surface w h

end Desk

end ThingOS.Compositor
