import ThingOS.Common.RowMajor
import ThingOS.Compositor.ClipLaw

/-!
# Tiled images

`raster_blit_image` of `compositor/src/framebuffer_backend.rs` with `repeat`. A place to the left of
the first tile, or above it, has a negative coordinate in the pattern; as a `usize` that is just
below `2 ^ 64`, and its remainder by the width is the right one only if the width divides `2 ^ 64`.
For other widths than powers of two the tiles there are shifted.
-/

namespace ThingOS.Compositor

/-- The remainder of an `i32` that went through `usize`. -/
lemma asUsize_mod_eq_iff {v : ℤ} (hv : InI32 v) {n : ℕ} (hn : 0 < n) :
    asUsize v % n = (v % n).toNat ↔ 0 ≤ v ∨ n ∣ 2 ^ 64 := by
  unfold InI32 at hv
  have hpos : (0 : ℤ) < n := Int.natCast_pos.mpr hn
  have hnonneg : 0 ≤ v % n := Int.emod_nonneg v hpos.ne'
  rw [← Int.natCast_inj, Int.toNat_of_nonneg hnonneg, asUsize, Int.natCast_emod,
    Int.toNat_of_nonneg (Int.emod_nonneg v (by norm_num))]
  by_cases h : 0 ≤ v
  · rw [Int.emod_eq_of_lt h (by omega)]
    simp [h]
  · have hwrapped : v % 2 ^ 64 = v + 2 ^ 64 := by omega
    have hcast : n ∣ 2 ^ 64 ↔ (n : ℤ) ∣ 2 ^ 64 := by
      rw [← Int.natCast_dvd_natCast]
      norm_num
    rw [hwrapped, Int.emod_eq_emod_iff_emod_sub_eq_zero, add_sub_cancel_left, hcast,
      Int.dvd_iff_emod_eq_zero]
    simp [h]

lemma toNat_emod_lt (v : ℤ) {n : ℕ} (hn : 0 < n) : (v % n).toNat < n := by
  have hlt := Int.emod_lt_of_pos v (Int.natCast_pos.mpr hn)
  omega

namespace Bitmap

/-- The bitmap repeated in all directions. -/
def tile (bmp : Bitmap) (i j : ℤ) : Pixel :=
  bmp.pixels.getD ((j % bmp.height).toNat * bmp.width + (i % bmp.width).toNat) 0

def Solid (bmp : Bitmap) : Prop := ∀ p ∈ bmp.pixels, (p >>> 24) &&& 0xFF = 0xFF

lemma sample_eq {bmp : Bitmap} (hwidth : 0 < bmp.width) (hheight : 0 < bmp.height) (i j : ℕ) :
    bmp.sample i j = bmp.pixels.getD (j % bmp.height * bmp.width + i % bmp.width) 0 :=
  if_neg (by omega)

lemma sample_mem {bmp : Bitmap} (hwidth : 0 < bmp.width) (hheight : 0 < bmp.height) (i j : ℕ) :
    bmp.sample i j ∈ bmp.pixels := by
  have hplace := RowMajor.index_lt (Nat.mod_lt j hheight) (Nat.mod_lt i hwidth)
  rw [Nat.mul_comm bmp.height, ← bmp.size] at hplace
  rw [sample_eq hwidth hheight, List.getD_eq_getElem _ _ hplace]
  exact List.getElem_mem hplace

/-- A white bitmap with a black pixel, which tells that place from all others. -/
def spotted (width height spot : ℕ) : Bitmap where
  width := width
  height := height
  pixels := (List.replicate (width * height) 0xFFFFFFFF#32).set spot 0xFF000000#32
  size := by simp

lemma solid_spotted (width height spot : ℕ) : (spotted width height spot).Solid := by
  intro p hp
  rcases List.mem_or_eq_of_mem_set hp with hp | rfl
  · rw [List.eq_of_mem_replicate hp]
    decide
  · decide

lemma spotted_eq_black_iff {width height spot i : ℕ} (hi : i < width * height) :
    (spotted width height spot).pixels.getD i 0 = 0xFF000000#32 ↔ i = spot := by
  rw [spotted, List.getD_eq_getElem _ _ (by simpa using hi), List.getElem_set]
  by_cases heq : spot = i
  · simp [heq]
  · simp [heq, Ne.symm heq]

end Bitmap

/-- The loops of a blit come to a place. -/
def Covers (w h : ℕ) (rect : Rect) (clip : Option Rect) (x y : ℕ) : Prop :=
  ∃ m ∈ scanClipped w h rect clip fun _ _ => some id, m.x = x ∧ m.y = y

instance instDecidableCovers (w h : ℕ) (rect : Rect) (clip : Option Rect) (x y : ℕ) :
    Decidable (Covers w h rect clip x y) :=
  inferInstanceAs (Decidable (∃ m ∈ _, _))

variable {w h : ℕ} {rect : Rect} {clip : Option Rect} {x y : ℕ}

lemma Covers.lt (hcovers : Covers w h rect clip x y) : x < w ∧ y < h := by
  obtain ⟨m, hm, rfl, rfl⟩ := hcovers
  exact mem_scanClipped_screen hm

/-- The loops come to each place once. -/
lemma Covers.marksAt (hcovers : Covers w h rect clip x y) (f : ℕ → ℕ → Option (Pixel → Pixel)) :
    Canvas.marksAt (scanClipped w h rect clip f) x y = ((f x y).map (Mark.mk x y)).toList := by
  obtain ⟨m, hm, rfl, rfl⟩ := hcovers
  unfold scanClipped at hm ⊢
  split at hm
  · cases hm
  rename_i hsize
  rw [if_neg hsize]
  split at hm
  · cases hm
  · obtain ⟨hx, hy, -⟩ := mem_scan.mp hm
    rw [marksAt_scan, if_pos ⟨hx, hy⟩]

/-- At a place that it comes to, a tiled blit of an opaque bitmap leaves the sample. -/
lemma Covers.pixel_blit {c : BitmapRenderer} (hcovers : Covers c.width c.height rect clip x y)
    {bmp : Bitmap} (hsolid : bmp.Solid) (hwidth : 0 < bmp.width) (hheight : 0 < bmp.height)
    (offset : ℤ × ℤ) :
    (c.draw (rasterBlitImage c.width c.height rect bmp true offset clip)).pixel x y
      = some (bmp.sample (asUsize (x - rect.x + offset.1)) (asUsize (y - rect.y + offset.2))) := by
  obtain ⟨a, ha⟩ := Option.isSome_iff_exists.mp ((c.isSome_pixel_iff x y).mpr hcovers.lt)
  have hblit : ∀ p ∈ bmp.pixels, blitPixel p = some fun _ => p := fun p hp => by
    unfold blitPixel
    simp only [hsolid p hp]
    rfl
  rw [rasterBlitImage, c.pixel_draw fun m hm => (mem_scanClipped_screen hm).1, ha, Option.map_some,
    Canvas.retouch, hcovers.marksAt]
  simp [hblit _ (Bitmap.sample_mem hwidth hheight _ _)]

/-- A tiled blit leaves the pattern everywhere, for every opaque bitmap of a size, precisely when
each coordinate it comes to is not negative or the size in that direction divides `2 ^ 64`. -/
theorem blit_tiles_iff (c : BitmapRenderer) (rect : Rect) (clip : Option Rect) (offset : ℤ × ℤ)
    (width height : ℕ) (hwidth : 0 < width) (hheight : 0 < height)
    (hrange : ∀ x y, Covers c.width c.height rect clip x y →
      InI32 (x - rect.x + offset.1) ∧ InI32 (y - rect.y + offset.2)) :
    (∀ bmp : Bitmap, bmp.width = width → bmp.height = height → bmp.Solid →
      ∀ x y, Covers c.width c.height rect clip x y →
        (c.draw (rasterBlitImage c.width c.height rect bmp true offset clip)).pixel x y
          = some (bmp.tile (x - rect.x + offset.1) (y - rect.y + offset.2)))
    ↔ ∀ x y, Covers c.width c.height rect clip x y →
      (0 ≤ x - rect.x + offset.1 ∨ width ∣ 2 ^ 64)
        ∧ (0 ≤ y - rect.y + offset.2 ∨ height ∣ 2 ^ 64) := by
  constructor
  · intro htiles x y hcovers
    obtain ⟨hx, hy⟩ := hrange x y hcovers
    set i := x - rect.x + offset.1
    set j := y - rect.y + offset.2
    rw [← asUsize_mod_eq_iff hx hwidth, ← asUsize_mod_eq_iff hy hheight]
    -- the only black pixel is where the pattern has to come from
    set spot := (j % height).toNat * width + (i % width).toNat
    have hspot : spot < width * height := by
      rw [Nat.mul_comm width]
      exact RowMajor.index_lt (toNat_emod_lt j hheight) (toNat_emod_lt i hwidth)
    have hread : asUsize j % height * width + asUsize i % width < width * height := by
      rw [Nat.mul_comm width]
      exact RowMajor.index_lt (Nat.mod_lt _ hheight) (Nat.mod_lt _ hwidth)
    have hsolid := Bitmap.solid_spotted width height spot
    have hblack : (Bitmap.spotted width height spot).tile i j = 0xFF000000#32 :=
      (Bitmap.spotted_eq_black_iff hspot).mpr rfl
    have hsample := htiles _ rfl rfl hsolid x y hcovers
    rw [hcovers.pixel_blit hsolid hwidth hheight, Option.some.injEq, hblack,
      Bitmap.sample_eq hwidth hheight] at hsample
    exact Canvas.index_inj (Nat.mod_lt _ hwidth) (toNat_emod_lt i hwidth)
      ((Bitmap.spotted_eq_black_iff hread).mp hsample)
  · rintro hcond bmp rfl rfl hsolid x y hcovers
    obtain ⟨hx, hy⟩ := hrange x y hcovers
    obtain ⟨hcondx, hcondy⟩ := hcond x y hcovers
    rw [hcovers.pixel_blit hsolid hwidth hheight, Bitmap.sample_eq hwidth hheight,
      (asUsize_mod_eq_iff hx hwidth).mpr hcondx, (asUsize_mod_eq_iff hy hheight).mpr hcondy]
    rfl

def twoByOne : BitmapRenderer := ⟨2, 1, [0#32, 0#32], rfl⟩

/-- Two colours in a row. -/
def stripes : Bitmap := ⟨2, 1, [0xFFFF0000#32, 0xFF0000FF#32], rfl⟩

theorem blit_tiles_stripes :
    Covers 2 1 ⟨0, 0, 2, 1⟩ none 0 0
      ∧ (twoByOne.draw (rasterBlitImage 2 1 ⟨0, 0, 2, 1⟩ stripes true (-1, 0) none)).pixel 0 0
        = some (stripes.tile (0 - 0 + -1) (0 - 0 + 0)) := by
  have hcovered : Covers 2 1 ⟨0, 0, 2, 1⟩ none 0 0 := by decide +kernel
  refine ⟨hcovered, (blit_tiles_iff twoByOne ⟨0, 0, 2, 1⟩ none (-1, 0) 2 1 (by decide) (by decide)
    fun x y hcovers => ?_).mpr (fun x y _ => ⟨.inr ?_, .inr (one_dvd _)⟩) stripes rfl rfl ?_ 0 0
    hcovered⟩
  · obtain ⟨hx, hy⟩ : x < 2 ∧ y < 1 := hcovers.lt
    unfold InI32
    dsimp only
    omega
  · exact dvd_pow_self 2 (by decide)
  · exact List.forall_mem_cons.mpr ⟨by decide, List.forall_mem_singleton.mpr (by decide)⟩

/-- Three colours in a row. -/
def tricolor : Bitmap := ⟨3, 1, [0xFFFF0000#32, 0xFF00FF00#32, 0xFF0000FF#32], rfl⟩

/-- One step to the left of the first tile the blue pixel has to come, and the red one does. -/
theorem blit_shifted :
    Covers 2 1 ⟨0, 0, 2, 1⟩ none 0 0
      ∧ (twoByOne.draw (rasterBlitImage 2 1 ⟨0, 0, 2, 1⟩ tricolor true (-1, 0) none)).pixel 0 0
        = some 0xFFFF0000#32
      ∧ tricolor.tile (0 - 0 + -1) (0 - 0 + 0) = 0xFF0000FF#32 := by
  decide +kernel

end ThingOS.Compositor
