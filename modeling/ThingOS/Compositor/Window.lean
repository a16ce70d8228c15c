import ThingOS.Userland.UiGraph

/-!
# Windows as the compositor keeps them

The records of `compositor/src/window.rs`, `types.rs`, `bitmap.rs` and `mode.rs`. Coordinates are
`i32` and stand here as integers.
-/

namespace ThingOS.Compositor

open Ui

structure Rect where
  x : ℤ
  y : ℤ
  width : ℕ
  height : ℕ
deriving DecidableEq

/-- `Bitmap`. Its constructor panics when the pixels do not fill it. -/
structure Bitmap where
  width : ℕ
  height : ℕ
  pixels : List (BitVec 32)
  size : pixels.length = width * height
deriving DecidableEq

structure Caret where
  x : ℤ
  y : ℤ
  width : ℤ
  height : ℤ
  visible : Bool

def Caret.default : Caret := ⟨0, 0, 0, 0, false⟩

/-- `WindowSurface`. Of the button's state there is only whether it is pressed. -/
structure WindowSurface where
  window : Window
  surfaceId : Option Uuid
  text : String
  bitmap : Option Bitmap
  scrollY : ℤ
  scrollbarWidgetId : Option Uuid
  caret : Caret
  titleBarId : Option Uuid
  closeButtonId : Uuid
  closeButtonPressed : Bool
  repeat_ : Bool
  isMono : Bool
  textColor : Option ℕ
  bgColor : Option ℕ

abbrev Windows := Std.ExtTreeMap Uuid WindowSurface compare

/-- `default_window`, for a surface whose window is not in the graph. -/
def defaultWindow (id : Uuid) : Window where
  id := id
  width := 320
  height := 200
  title := "window"
  x := 32
  y := 32
  z := 0
  visible := true
  target := none
  active := false
  isRoot := false
  isPlaceRoot := false
  placeId := none
  modeIndex := none
  windowRect := none
  gap := none
  flexDirection := none
  justifyContent := none
  alignItems := none
  tileMode := none

/-- The point is in the window for `find_window_at`. The sums wrap, as in a release build; one that
checks for overflow panics where a side leaves `i32`. -/
def HasPoint (window : Window) (x y : ℤ) : Prop :=
  (asI32 window.x ≤ x ∧ x < asI32 (asI32 window.x + asI32 window.width))
    ∧ asI32 window.y ≤ y ∧ y < asI32 (asI32 window.y + asI32 window.height)
deriving Decidable

def clampI32 (v lo hi : ℤ) : ℤ := if v < lo then lo else if hi < v then hi else v

def fontHeight : ℤ := 20

def resizeMargin : ℤ := 6

structure WindowLayout where
  titleX : ℤ
  titleY : ℤ
  titleW : ℤ
  titleH : ℤ
  clientX : ℤ
  clientY : ℤ
  clientW : ℤ
  clientH : ℤ
deriving DecidableEq

/-- The parts of a window's frame, if it is large enough for one. -/
def computeWindowLayout (x y w h titleBarHeight : ℤ) : Option WindowLayout :=
  let innerW := w - 2 * resizeMargin
  let innerH := h - 2 * resizeMargin
  if innerW ≤ 0 ∨ innerH ≤ titleBarHeight then none
  else
    let titleX := x + resizeMargin
    let titleY := y + resizeMargin
    let clientH := innerH - titleBarHeight
    if innerW ≤ 0 ∨ clientH ≤ 0 then none
    else
      some ⟨titleX, titleY, innerW, titleBarHeight, titleX, titleY + titleBarHeight, innerW,
        clientH⟩

end ThingOS.Compositor
