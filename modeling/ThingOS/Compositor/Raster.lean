import ThingOS.Common.Bresenham
import ThingOS.Common.Canvas
import ThingOS.Common.Run
import ThingOS.Compositor.Window

/-!
# The renderer

`compositor/src/framebuffer_backend.rs`: a scene is a list of items, each drawn by a rasteriser of
its own inside the rectangle on top of a stack of clips. A rasteriser stands here as the list of
marks that its loops make. Fonts and the arithmetic of `f32` are parameters; `i32` stands as the
integers.
-/

namespace ThingOS.Compositor

abbrev Pixel := BitVec 32

structure Rgba where
  r : BitVec 8
  g : BitVec 8
  b : BitVec 8
  a : BitVec 8
deriving DecidableEq

def Rgba.toU32 (c : Rgba) : Pixel :=
  c.a.setWidth 32 <<< 24 ||| c.r.setWidth 32 <<< 16 ||| c.g.setWidth 32 <<< 8 ||| c.b.setWidth 32

def Rgba.fromU32 (argb : Pixel) : Rgba where
  a := ((argb >>> 24) &&& 0xFF).setWidth 8
  r := ((argb >>> 16) &&& 0xFF).setWidth 8
  g := ((argb >>> 8) &&& 0xFF).setWidth 8
  b := (argb &&& 0xFF).setWidth 8

def clearColor : Rgba := ⟨0, 0, 0, 0xFF⟩

/-- `userland::graphics::blend`. -/
def blend (fg bg : Pixel) : Pixel :=
  let alpha := (fg >>> 24) &&& 0xFF
  if alpha = 0 then bg
  else if alpha = 255 then fg
  else
    let invAlpha := 255 - alpha
    let r := (((fg >>> 16) &&& 0xFF) * alpha + ((bg >>> 16) &&& 0xFF) * invAlpha) / 255
    let g := (((fg >>> 8) &&& 0xFF) * alpha + ((bg >>> 8) &&& 0xFF) * invAlpha) / 255
    let b := ((fg &&& 0xFF) * alpha + (bg &&& 0xFF) * invAlpha) / 255
    0xFF000000 ||| r <<< 16 ||| g <<< 8 ||| b

/-- `as usize` of an `i32`. -/
def asUsize (v : ℤ) : ℕ := (v % 2 ^ 64).toNat

namespace Bitmap

def pixel (bmp : Bitmap) (x y : ℕ) : Option Pixel :=
  if bmp.width ≤ x ∨ bmp.height ≤ y then none else bmp.pixels[y * bmp.width + x]?

/-- The bitmap repeated in both directions. -/
def sample (bmp : Bitmap) (x y : ℕ) : Pixel :=
  if bmp.width = 0 ∨ bmp.height = 0 then 0
  else bmp.pixels.getD (y % bmp.height * bmp.width + x % bmp.width) 0

end Bitmap

/-! ## Clips -/

def intersectRect (a b : Rect) : Option Rect :=
  let x := max a.x b.x
  let y := max a.y b.y
  let x2 := min (a.x + a.width) (b.x + b.width)
  let y2 := min (a.y + a.height) (b.y + b.height)
  if x < x2 ∧ y < y2 then some ⟨x, y, (x2 - x).toNat, (y2 - y).toNat⟩ else none

def applyClip (rect : Rect) : Option Rect → Option Rect
  | some c => intersectRect rect c
  | none => some rect

/-! ## Rectangles -/

/-- The loops that `raster_fill_rect`, `raster_hatch_rect` and `raster_blit_image` share. -/
def scanClipped (w h : ℕ) (rect : Rect) (clip : Option Rect)
    (f : ℕ → ℕ → Option (Pixel → Pixel)) : List (Mark Pixel) :=
  if rect.width = 0 ∨ rect.height = 0 ∨ w = 0 then []
  else
    match applyClip rect clip with
    | none => []
    | some rect =>
      let x0 := min (max rect.x 0).toNat w
      let y0 := min (max rect.y 0).toNat h
      let x1 := min (x0 + rect.width) w
      let y1 := min (y0 + rect.height) h
      scan x0 x1 y0 y1 f

/-- A colour over what is there. -/
def paintOver (color : Rgba) : Pixel → Pixel :=
  if color.a = 0xFF then fun _ => color.toU32 else blend color.toU32

def rasterFillRect (w h : ℕ) (rect : Rect) (color : Rgba) (clip : Option Rect) :
    List (Mark Pixel) :=
  scanClipped w h rect clip fun _ _ => some (paintOver color)

def rasterHatchRect (w h : ℕ) (rect : Rect) (color : Rgba) (spacing : ℤ) (clip : Option Rect) :
    List (Mark Pixel) :=
  if spacing ≤ 0 then []
  else
    scanClipped w h rect clip fun x y =>
      if ((x : ℤ) + y) % spacing = 0 then some fun _ => color.toU32 else none

/-- A pixel of an image over what is there. -/
def blitPixel (color : Pixel) : Option (Pixel → Pixel) :=
  let alpha := (color >>> 24) &&& 0xFF
  if alpha = 0 then none
  else if alpha = 0xFF then some fun _ => color
  else some (blend color)

def rasterBlitImage (w h : ℕ) (rect : Rect) (bmp : Bitmap) (repeat_ : Bool) (offset : ℤ × ℤ)
    (clip : Option Rect) : List (Mark Pixel) :=
  scanClipped w h rect clip fun x y =>
    let sampleX := asUsize (x - rect.x + offset.1)
    let sampleY := asUsize (y - rect.y + offset.2)
    if repeat_ then blitPixel (bmp.sample sampleX sampleY)
    else (bmp.pixel sampleX sampleY).bind blitPixel

/-! ## Text -/

/-- The coverage of a character's pixels. -/
structure Glyph where
  width : ℕ
  height : ℕ
  bitmap : List (BitVec 8)
  size : bitmap.length = width * height

/-- What a font says of a character. -/
structure GlyphMetrics (F : Type) where
  xmin : ℤ
  ymin : ℤ
  advanceWidth : F
  glyph : Glyph

/-- `FontManager` at the one size that is used, for the fonts with and without fixed width, and the
arithmetic of `f32`. -/
structure FontManager where
  F32 : Type
  ofInt : ℤ → F32
  add : F32 → F32 → F32
  sub : F32 → F32 → F32
  gt : F32 → F32 → Bool
  toI32 : F32 → ℤ
  ascent : Bool → F32
  newLineSize : Bool → F32
  rasterize : Bool → Char → GlyphMetrics F32

structure PlacedGlyph where
  x : ℤ
  y : ℤ
  glyph : Glyph

/-- The rows of a glyph that are on the screen and inside the clip. -/
def glyphRow (h : ℕ) (y : ℤ) (clip : Option Rect) (row : ℕ) : Visit :=
  let dstY := y + row
  if dstY < 0 then .skip
  else if h ≤ dstY then .stop
  else
    match clip with
    | some c => if dstY < c.y then .skip else if c.y + c.height ≤ dstY then .stop else .enter
    | none => .enter

/-- The columns of a glyph that are not. -/
def glyphColumnHidden (w : ℕ) (dstX : ℤ) (clip : Option Rect) : Bool :=
  decide (dstX < 0 ∨ w ≤ dstX) ||
    match clip with
    | some c => decide (dstX < c.x ∨ c.x + c.width ≤ dstX)
    | none => false

/-- A colour with a coverage over what is there. -/
def glyphPixel (color : Pixel) (alpha : BitVec 8) : Option (Pixel → Pixel) :=
  if alpha = 0 then none
  else if alpha = 255 then some fun _ => color
  else
    let fgA := (color >>> 24) &&& 0xFF
    let finalA := fgA * alpha.setWidth 32 / 255
    if finalA = 0 then none else some (blend ((color &&& 0x00FFFFFF) ||| finalA <<< 24))

def rasterDrawGlyph (w h : ℕ) (x y : ℤ) (glyph : Glyph) (color : Pixel) (clip : Option Rect) :
    List (Mark Pixel) :=
  if w = 0 ∨ h = 0 ∨ glyph.width = 0 ∨ glyph.height = 0 then []
  else
    (visited (glyphRow h y clip) (List.range glyph.height)).flatMap fun (row : ℕ) =>
      (List.range glyph.width).filterMap fun (col : ℕ) =>
        if glyphColumnHidden w (x + col) clip then none
        else
          (glyph.bitmap[row * glyph.width + col]?.bind (glyphPixel color)).map
            (Mark.mk (x + col).toNat (y + row).toNat)

namespace FontManager

variable (fm : FontManager)

/-- The loop of `raster_draw_text`: the glyphs up to the limit. -/
def placeText (origin : ℤ × ℤ) (maxWidth : Option ℕ) (isMono : Bool) :
    List Char → fm.F32 → fm.F32 → List PlacedGlyph
  | [], _, _ => []
  | ch :: chars, cursorX, baselineY =>
    if ch = '\n' then
      placeText origin maxWidth isMono chars (fm.ofInt origin.1)
        (fm.add baselineY (fm.newLineSize isMono))
    else
      let metrics := fm.rasterize isMono ch
      let gw := metrics.advanceWidth
      let limitX := maxWidth.map fun w => fm.add (fm.ofInt origin.1) (fm.ofInt w)
      if limitX.any fun limit => fm.gt (fm.add cursorX gw) limit then []
      else
        { x := fm.toI32 (fm.add cursorX (fm.ofInt metrics.xmin))
          y := fm.toI32 (fm.sub baselineY
            (fm.add (fm.ofInt metrics.ymin) (fm.ofInt metrics.glyph.height)))
          glyph := metrics.glyph } ::
        placeText origin maxWidth isMono chars (fm.add cursorX gw) baselineY

/-- The loop of `raster_draw_text_block`: the glyphs of the lines in view. -/
def placeTextBlock (rect : Rect) (scrollOffset : ℤ) (isMono : Bool) :
    List Char → fm.F32 → fm.F32 → List PlacedGlyph
  | [], _, _ => []
  | ch :: chars, cursorX, currentY =>
    let viewTop := rect.y
    let viewBottom := rect.y + rect.height
    if ch = '\n' then
      let currentY := fm.add currentY (fm.newLineSize isMono)
      if viewBottom ≤ rect.y + fm.toI32 currentY - scrollOffset then []
      else placeTextBlock rect scrollOffset isMono chars (fm.ofInt 0) currentY
    else
      let metrics := fm.rasterize isMono ch
      let gw := metrics.advanceWidth
      let wraps := fm.gt (fm.add cursorX gw) (fm.ofInt rect.width)
      let cursorX := if wraps then fm.ofInt 0 else cursorX
      let currentY := if wraps then fm.add currentY (fm.newLineSize isMono) else currentY
      let baselineY := fm.sub (fm.add (fm.add (fm.ofInt rect.y) currentY) (fm.ascent isMono))
        (fm.ofInt scrollOffset)
      let drawY := fm.toI32 (fm.sub baselineY
        (fm.add (fm.ofInt metrics.ymin) (fm.ofInt metrics.glyph.height)))
      if viewBottom ≤ drawY then []
      else
        (if viewTop < drawY + metrics.glyph.height ∧ drawY < viewBottom then
          [⟨rect.x + fm.toI32 (fm.add cursorX (fm.ofInt metrics.xmin)), drawY, metrics.glyph⟩]
        else []) ++
        placeTextBlock rect scrollOffset isMono chars (fm.add cursorX gw) currentY

def rasterDrawText (w h : ℕ) (origin : ℤ × ℤ) (text : String) (color : Rgba)
    (maxWidth : Option ℕ) (isMono : Bool) (clip : Option Rect) : List (Mark Pixel) :=
  if w = 0 then []
  else
    (fm.placeText origin maxWidth isMono text.toList (fm.ofInt origin.1)
      (fm.add (fm.ofInt origin.2) (fm.ascent isMono))).flatMap fun placed =>
        rasterDrawGlyph w h placed.x placed.y placed.glyph color.toU32 clip

def rasterDrawTextBlock (w h : ℕ) (rect : Rect) (text : String) (color : Rgba) (scrollOffset : ℤ)
    (isMono : Bool) (clip : Option Rect) : List (Mark Pixel) :=
  if w = 0 ∨ rect.width = 0 ∨ rect.height = 0 then []
  else
    match applyClip rect clip with
    | none => []
    | some clipBounds =>
      (fm.placeTextBlock rect scrollOffset isMono text.toList (fm.ofInt 0) (fm.ofInt 0)).flatMap
        fun placed =>
          rasterDrawGlyph w h placed.x placed.y placed.glyph color.toU32 (some clipBounds)

end FontManager

/-! ## The cursor and lines -/

/-- A pixel of the sprite, whose colours are multiplied with its alpha already, over what is
there. -/
def cursorPixel (px : Pixel) : Option (Pixel → Pixel) :=
  let alpha := (px >>> 24) &&& 0xFF
  if alpha = 0 then none
  else if alpha = 0xFF then some fun _ => px
  else
    some fun dst =>
      let invA := 255 - alpha
      let r := ((px >>> 16) &&& 0xFF) + ((dst >>> 16) &&& 0xFF) * invA / 255
      let g := ((px >>> 8) &&& 0xFF) + ((dst >>> 8) &&& 0xFF) * invA / 255
      let b := (px &&& 0xFF) + (dst &&& 0xFF) * invA / 255
      0xFF000000 ||| r <<< 16 ||| g <<< 8 ||| b

def rasterDrawCursor (w h : ℕ) (origin : ℤ × ℤ) (sprite : Bitmap) (hotspot : ℤ × ℤ)
    (clip : Option Rect) : List (Mark Pixel) :=
  if w = 0 ∨ sprite.width = 0 ∨ sprite.height = 0 then []
  else
    let topLeftX := origin.1 - hotspot.1
    let topLeftY := origin.2 - hotspot.2
    let startX := clampI32 topLeftX 0 w
    let startY := clampI32 topLeftY 0 h
    let endX := clampI32 (topLeftX + sprite.width) 0 w
    let endY := clampI32 (topLeftY + sprite.height) 0 h
    let startX := (clip.map fun c => max startX c.x).getD startX
    let startY := (clip.map fun c => max startY c.y).getD startY
    let endX := (clip.map fun c => min endX (c.x + c.width)).getD endX
    let endY := (clip.map fun c => min endY (c.y + c.height)).getD endY
    if endX ≤ startX ∨ endY ≤ startY then []
    else
      scan startX.toNat endX.toNat startY.toNat endY.toNat fun x y =>
        sprite.pixels[(y - topLeftY).toNat * sprite.width + (x - topLeftX).toNat]?.bind cursorPixel

def rasterDrawLine (w h : ℕ) (start end_ : ℤ × ℤ) (color : Rgba) (clip : Option Rect) :
    List (Mark Pixel) :=
  if w = 0 ∨ h = 0 then []
  else
    (Bresenham.points start.1 start.2 end_.1 end_.2).filterMap fun (x, y) =>
      let onScreen := 0 ≤ x ∧ x < w ∧ 0 ≤ y ∧ y < h
      let visible :=
        clip.all fun c => c.x ≤ x ∧ x < c.x + c.width ∧ c.y ≤ y ∧ y < c.y + c.height
      if onScreen ∧ visible then some ⟨x.toNat, y.toNat, paintOver color⟩ else none

/-! ## Scenes -/

inductive SceneItem where
  | clear (color : Rgba)
  | fillRect (rect : Rect) (color : Rgba)
  | hatchRect (rect : Rect) (color : Rgba) (spacing : ℤ)
  | blitImage (rect : Rect) (image : Bitmap) (repeat_ : Bool) (offset : ℤ × ℤ)
  | drawText (origin : ℤ × ℤ) (text : String) (color : Rgba) (maxWidth : Option ℕ) (isMono : Bool)
  | drawTextBlock (rect : Rect) (text : String) (color : Rgba) (scrollOffset : ℤ) (isMono : Bool)
  | drawCursor (origin : ℤ × ℤ) (sprite : Bitmap) (hotspot : ℤ × ℤ)
  | drawLine (start end_ : ℤ × ℤ) (color : Rgba)
  | clipPush (rect : Rect)
  | clipPop
deriving DecidableEq

/-- `BitmapRenderer`. -/
abbrev BitmapRenderer := Canvas Pixel

inductive ClearMode where
  | full
  | clip (rect : Rect)

namespace SceneItem

def marks (fm : FontManager) (w h : ℕ) (clip : Option Rect) : SceneItem → List (Mark Pixel)
  | fillRect rect color => rasterFillRect w h rect color clip
  | hatchRect rect color spacing => rasterHatchRect w h rect color spacing clip
  | blitImage rect image repeat_ offset => rasterBlitImage w h rect image repeat_ offset clip
  | drawText origin text color maxWidth isMono =>
    fm.rasterDrawText w h origin text color maxWidth isMono clip
  | drawTextBlock rect text color scrollOffset isMono =>
    fm.rasterDrawTextBlock w h rect text color scrollOffset isMono clip
  | drawCursor origin sprite hotspot => rasterDrawCursor w h origin sprite hotspot clip
  | drawLine start end_ color => rasterDrawLine w h start end_ color clip
  | clear _ | clipPush _ | clipPop => []

end SceneItem

/-- The loop of `render_scene`; the top of the stack comes first. -/
structure SceneState where
  renderer : BitmapRenderer
  clipStack : List (Option Rect)

namespace SceneState

/-- `clip_stack.last().copied().flatten()`. -/
def clip (st : SceneState) : Option Rect := st.clipStack.head?.join

def step (fm : FontManager) (mode : ClearMode) (st : SceneState) : SceneItem → SceneState
  | .clear color =>
    match mode with
    | .full => { st with renderer := st.renderer.fill color.toU32 }
    | .clip rect =>
      { st with
        renderer := st.renderer.draw
          (rasterFillRect st.renderer.width st.renderer.height rect color (some rect)) }
  | .clipPush rect =>
    { st with clipStack := (st.clip.bind fun base => intersectRect base rect) :: st.clipStack }
  | .clipPop => if 1 < st.clipStack.length then { st with clipStack := st.clipStack.tail } else st
  | item =>
    { st with
      renderer := st.renderer.draw
        (item.marks fm st.renderer.width st.renderer.height st.clip) }

end SceneState

def renderScene (fm : FontManager) (r : BitmapRenderer) (items : List SceneItem) (rootClip : Rect)
    (mode : ClearMode) : BitmapRenderer :=
  (run (SceneState.step fm mode) ⟨r, [some rootClip]⟩ items).renderer

def render (fm : FontManager) (r : BitmapRenderer) (items : List SceneItem) : BitmapRenderer :=
  renderScene fm (r.fill clearColor.toU32) items ⟨0, 0, r.width, r.height⟩ .full

def renderPartial (fm : FontManager) (r : BitmapRenderer) (items : List SceneItem)
    (dirtyRect : Rect) : BitmapRenderer :=
  renderScene fm r items dirtyRect (.clip dirtyRect)

end ThingOS.Compositor
