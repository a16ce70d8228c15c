import ThingOS.Common.Packed
import ThingOS.Compositor.Screen

/-!
# The sprites of the cursor

`cursor_icon_from_mask` of `compositor/src/cursor.rs` makes a sprite of a mask: its shape, over a
shadow that is blurred three times. The colours of a pixel are multiplied with its alpha already,
and `raster_draw_cursor` relies on that: it adds them to a part of what is there and puts the sums
side by side, without looking whether they fit.
-/

namespace ThingOS.Compositor

open Packed

structure CursorMask where
  width : ℕ
  height : ℕ
  hotspot : ℤ × ℤ
  data : List Bool
  size : data.length = width * height

namespace CursorMask

def new (width height : ℕ) (hotspot : ℤ × ℤ) : CursorMask :=
  ⟨width, height, hotspot, .replicate (width * height) false, List.length_replicate⟩

variable (mask : CursorMask)

def set (x y : ℤ) : CursorMask :=
  if x < 0 ∨ y < 0 ∨ mask.width ≤ x ∨ mask.height ≤ y then mask
  else
    { mask with
      data := mask.data.set (y.toNat * mask.width + x.toNat) true
      size := List.length_set.trans mask.size }

def filled (x y : ℤ) : Bool :=
  if x < 0 ∨ y < 0 ∨ mask.width ≤ x ∨ mask.height ≤ y then false
  else mask.data.getD (y.toNat * mask.width + x.toNat) false

/-- A pixel of the mask that was set is filled. -/
lemma filled_set {x y : ℤ} (h : ¬ (x < 0 ∨ y < 0 ∨ mask.width ≤ x ∨ mask.height ≤ y)) :
    (mask.set x y).filled x y = true := by
  have hlt : y.toNat * mask.width + x.toNat < mask.data.length := by
    have hrow : (y.toNat + 1) * mask.width ≤ mask.height * mask.width :=
      Nat.mul_le_mul_right _ (by omega)
    rw [mask.size, Nat.mul_comm mask.width]
    rw [Nat.add_one_mul] at hrow
    omega
  rw [set, if_neg h, filled, if_neg h]
  simp [hlt]

/-- The shadow before it is blurred: the shape, four pixels to the right and below. -/
def shadow (x y : ℕ) : ℕ := if mask.filled (x - 4) (y - 4) then 0xA0 else 0

/-- One pass over the pixels that are not at the border. -/
def blur (src : ℕ → ℕ → ℕ) (x y : ℕ) : ℕ :=
  if (1 ≤ x ∧ x < mask.width - 1) ∧ 1 ≤ y ∧ y < mask.height - 1 then
    ((List.range 3).flatMap fun dy => (List.range 3).map fun dx =>
      src (x + dx - 1) (y + dy - 1)).sum / 9 % 256
  else src x y

def isEdge (x y : ℤ) : Bool :=
  [(x - 1, y), (x + 1, y), (x, y - 1), (x, y + 1)].any fun (nx, ny) => !mask.filled nx ny

end CursorMask

def premultiply (c : Rgba) : Pixel :=
  let a := c.a.toNat
  pack a (c.r.toNat * a / 255) (c.g.toNat * a / 255) (c.b.toNat * a / 255)

def spritePixel (mask : CursorMask) (fill outline : Rgba) (x y : ℕ) : Pixel :=
  if mask.filled x y then premultiply (if mask.isEdge x y then outline else fill)
  else BitVec.ofNat 32 (mask.blur^[3] mask.shadow x y) <<< 24

def cursorIconFromMask (mask : CursorMask) (fill outline : Rgba) : CursorIcon where
  bitmap :=
    { width := mask.width
      height := mask.height
      pixels := (List.range mask.height).flatMap fun y =>
        (List.range mask.width).map fun x => spritePixel mask fill outline x y
      size := by simp [Nat.mul_comm] }
  hotspot := mask.hotspot

/-- No colour exceeds the alpha; the components are blue, green, red and alpha. -/
def Premultiplied (px : Pixel) : Prop := ∀ k < 3, component px k ≤ component px 3

lemma mul_div_255_le {c a : ℕ} (hc : c ≤ 255) : c * a / 255 ≤ a :=
  Nat.div_le_of_le_mul (Nat.mul_le_mul_right a hc)

lemma premultiplied_premultiply (c : Rgba) : Premultiplied (premultiply c) := by
  have ha : c.a.toNat < 256 := c.a.isLt
  have hle (v : BitVec 8) : v.toNat * c.a.toNat / 255 ≤ c.a.toNat :=
    mul_div_255_le (Nat.le_of_lt_succ v.isLt)
  obtain ⟨h3, h2, h1, h0⟩ := component_pack ha ((hle c.r).trans_lt ha) ((hle c.g).trans_lt ha)
    ((hle c.b).trans_lt ha)
  intro k hk
  rw [premultiply, h3]
  interval_cases k
  · exact h0.trans_le (hle c.b)
  · exact h1.trans_le (hle c.g)
  · exact h2.trans_le (hle c.r)

/-- A shadow has no colour. -/
lemma premultiplied_shadow (alpha : ℕ) : Premultiplied (BitVec.ofNat 32 alpha <<< 24) := by
  intro k hk
  have hzero : component (BitVec.ofNat 32 alpha <<< 24) k = 0 := by
    rw [component_eq, BitVec.toNat_shiftLeft, BitVec.toNat_ofNat, Nat.shiftLeft_eq]
    interval_cases k <;> omega
  omega

lemma premultiplied_of_mem {mask : CursorMask} {fill outline : Rgba} {px : Pixel}
    (h : px ∈ (cursorIconFromMask mask fill outline).bitmap.pixels) : Premultiplied px := by
  obtain ⟨y, -, hy⟩ := List.mem_flatMap.mp h
  obtain ⟨x, -, rfl⟩ := List.mem_map.mp hy
  unfold spritePixel
  split
  · exact premultiplied_premultiply _
  · exact premultiplied_shadow _

/-- One channel of the blending, where the sum fits a byte. -/
lemma over_eq {s d alpha : BitVec 32} (hs : s.toNat ≤ alpha.toNat) (hd : d.toNat ≤ 255)
    (ha : alpha.toNat ≤ 255) :
    s + d * (255 - alpha) / 255 = .ofNat 32 (s.toNat + d.toNat * (255 - alpha.toNat) / 255)
      ∧ s.toNat + d.toNat * (255 - alpha.toNat) / 255 < 256 := by
  have hpart : d.toNat * (255 - alpha.toNat) / 255 ≤ 255 - alpha.toNat := mul_div_255_le hd
  have hprod : d.toNat * (255 - alpha.toNat) ≤ 255 * 255 :=
    Nat.mul_le_mul hd (Nat.sub_le _ _)
  have hinv : (255 - alpha : BitVec 32).toNat = 255 - alpha.toNat := by
    rw [BitVec.toNat_sub]
    simp
    omega
  refine ⟨BitVec.eq_of_toNat_eq ?_, by omega⟩
  rw [BitVec.toNat_add, BitVec.toNat_udiv, BitVec.toNat_mul, hinv, BitVec.toNat_ofNat,
    Nat.mod_eq_of_lt (by omega : d.toNat * (255 - alpha.toNat) < 2 ^ 32)]
  rfl

/-- A sprite's pixel over what is there: the channels are the exact sums. -/
lemma component_cursorPixel {px : Pixel} {change : Pixel → Pixel} (hpx : Premultiplied px)
    (h : cursorPixel px = some change) (dst : Pixel) :
    component (change dst) 3 = 255 ∧ ∀ k < 3, component (change dst) k
      = component px k + component dst k * (255 - component px 3) / 255 := by
  have hbyte (p : Pixel) (k : ℕ) : component p k ≤ 255 := Nat.le_of_lt_succ (component_lt p k)
  unfold cursorPixel at h
  dsimp only at h
  split_ifs at h with hzero hfull <;> cases h
  · have hfull : component px 3 = 255 := congrArg BitVec.toNat hfull
    simp [hfull]
  · obtain ⟨hr, hr'⟩ := over_eq (hpx 2 (by decide)) (hbyte dst 2) (hbyte px 3)
    obtain ⟨hg, hg'⟩ := over_eq (hpx 1 (by decide)) (hbyte dst 1) (hbyte px 3)
    obtain ⟨hb, hb'⟩ := over_eq (hpx 0 (by decide)) (hbyte dst 0) (hbyte px 3)
    obtain ⟨h3, h2, h1, h0⟩ := component_pack (show 255 < 256 by decide) hr' hg' hb'
    simp only [pack, ← hr, ← hg, ← hb] at h3 h2 h1 h0
    refine ⟨h3, fun k hk => ?_⟩
    interval_cases k
    · exact h0
    · exact h1
    · exact h2

/-- The colours of a sprite do not exceed the alpha of their pixel. So wherever the sprite is drawn,
and in whatever clip, every channel is the sum that it should be, and the pixel is opaque. -/
theorem cursor_blending (mask : CursorMask) (fill outline : Rgba) :
    let sprite := (cursorIconFromMask mask fill outline).bitmap
    (∀ px ∈ sprite.pixels, Premultiplied px)
      ∧ ∀ w h origin hotspot clip, ∀ m ∈ rasterDrawCursor w h origin sprite hotspot clip,
        ∃ px ∈ sprite.pixels, ∀ dst, component (m.change dst) 3 = 255
          ∧ ∀ k < 3, component (m.change dst) k
            = component px k + component dst k * (255 - component px 3) / 255 := by
  refine ⟨fun px => premultiplied_of_mem, fun w h origin hotspot clip m hm => ?_⟩
  unfold rasterDrawCursor at hm
  dsimp only at hm
  split_ifs at hm
  · cases hm
  · cases hm
  · obtain ⟨-, -, hchange⟩ := mem_scan.mp hm
    obtain ⟨px, hpx, hchange⟩ := Option.bind_eq_some_iff.mp hchange
    have hmem := List.mem_of_getElem? hpx
    exact ⟨px, hmem, component_cursorPixel (premultiplied_of_mem hmem) hchange⟩

end ThingOS.Compositor
