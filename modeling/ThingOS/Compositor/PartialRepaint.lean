import ThingOS.Common.Packed
import ThingOS.Compositor.Repaint

/-!
# When a partial repaint is right

`render_partial` should leave the picture of the whole scene inside the dirty rectangle and nothing
new outside. It draws with the rectangle for a root clip, and whether that is right depends on the
rectangle, the clips that the scene pushes and its `Clear`s. A loop under a clip that begins before
the screen comes to places outside the clip. Clips that do not overlap are no clip at all, and they
may overlap on the screen and not in the rectangle. And a partial rendering begins with what is
there, unless the scene clears it.
-/

namespace ThingOS.Compositor

open Canvas List

/-! ## Colours that hide what is there -/

def Solid (p : Pixel) : Prop := p >>> 24 = 0xFF

lemma toU32_eq_pack (c : Rgba) :
    c.toU32 = Packed.pack c.a.toNat c.r.toNat c.g.toNat c.b.toNat := by
  simp only [Packed.pack, BitVec.ofNat_toNat]
  rfl

lemma toNat_toU32 (c : Rgba) : c.toU32.toNat
      = 2 ^ 24 * c.a.toNat + (2 ^ 16 * c.r.toNat + (2 ^ 8 * c.g.toNat + c.b.toNat)) := by
  rw [toU32_eq_pack, Packed.toNat_pack c.a.isLt c.r.isLt c.g.isLt c.b.isLt]

lemma ushiftRight_toU32 (c : Rgba) : c.toU32 >>> 24 = c.a.setWidth 32 := by
  apply BitVec.eq_of_toNat_eq
  rw [BitVec.toNat_ushiftRight, Nat.shiftRight_eq_div_pow, toNat_toU32, BitVec.toNat_setWidth]
  omega

lemma solid_toU32_iff (c : Rgba) : Solid c.toU32 ↔ c.a = 0xFF := by
  rw [Solid, ushiftRight_toU32]
  constructor
  · intro h
    have := congrArg (BitVec.setWidth 8) h
    rwa [BitVec.setWidth_setWidth_of_le _ (by decide), BitVec.setWidth_eq] at this
  · intro h
    rw [h]
    rfl

lemma solid_or (p : Pixel) : Solid (0xFF000000 ||| p) := by
  have hlt := Packed.component_lt p
  have hor := congrArg BitVec.toNat (Packed.or_eq_pack p)
  rw [Packed.toNat_pack (by decide) (hlt 2) (hlt 1) (hlt 0)] at hor
  apply BitVec.eq_of_toNat_eq
  rw [BitVec.toNat_ushiftRight, Nat.shiftRight_eq_div_pow]
  refine (congrArg (· / 2 ^ 24) hor).trans ?_
  have := hlt 2
  have := hlt 1
  have := hlt 0
  change _ = 255
  omega

lemma alpha_toU32 (c : Rgba) : (c.toU32 >>> 24) &&& 0xFF = c.a.setWidth 32 := by
  apply BitVec.eq_of_toNat_eq
  refine (Packed.component_eq c.toU32 3).trans ?_
  rw [toNat_toU32, BitVec.toNat_setWidth]
  omega

/-- A colour that is not transparent leaves a solid one. -/
lemma solid_paintOver {c : Rgba} (h : c.a ≠ 0) (p : Pixel) : Solid (paintOver c p) := by
  unfold paintOver
  split
  · rename_i ha
    exact (solid_toU32_iff c).mpr ha
  · rename_i ha
    have hzero : c.a.setWidth 32 ≠ (0 : Pixel) := by
      intro heq
      have := congrArg (BitVec.setWidth 8) heq
      rw [BitVec.setWidth_setWidth_of_le _ (by decide), BitVec.setWidth_eq] at this
      exact h this
    have hfull : c.a.setWidth 32 ≠ (255 : Pixel) := by
      intro heq
      exact ha ((solid_toU32_iff c).mp ((ushiftRight_toU32 c).trans heq))
    simp only [blend, alpha_toU32, if_neg hzero, if_neg hfull, BitVec.or_assoc]
    exact solid_or _

/-- A transparent one leaves what is there. -/
lemma paintOver_eq_id {c : Rgba} (h : c.a = 0) : paintOver c = id := by
  funext p
  have hne : ¬ c.a = 0xFF := by
    rw [h]
    decide
  have halpha : (c.toU32 >>> 24) &&& 0xFF = 0 := by
    rw [alpha_toU32, h]
    rfl
  rw [paintOver, if_neg hne, blend, if_pos halpha]
  rfl

lemma Solid.paintOver {p : Pixel} (h : Solid p) (c : Rgba) : Solid (paintOver c p) := by
  by_cases ha : c.a = 0
  · rw [paintOver_eq_id ha]
    exact h
  · exact solid_paintOver ha p

/-! ## Where a loop comes to -/

variable {w h px py : ℕ}

/-- The places that loops may come to under a clip. -/
def Reach (w h : ℕ) (clip : Option Rect) (x y : ℕ) : Prop :=
  (x < w ∧ y < h) ∧ ∀ c, clip = some c → Turn w c.width c.x x ∧ Turn h c.height c.y y

variable {c : Rect} {x y : ℕ}

/-- They come to all places inside the clip. -/
lemma reach_of_contains (hscreen : x < w ∧ y < h) (hc : c.Contains x y) :
    Reach w h (some c) x y := by
  refine ⟨hscreen, fun c' hc' => ?_⟩
  obtain rfl := Option.some.inj hc'
  simp only [Rect.Contains] at hc
  simp only [Turn]
  omega

/-- Along one direction, the loop over a part of the clip stays in the turns of the loop over the
clip. -/
lemma turn_of_sub {n len clen i : ℕ} {pos cpos : ℤ} (hpos : cpos ≤ pos)
    (hend : pos + len ≤ cpos + clen) (hi : Turn n len pos i) : Turn n clen cpos i := by
  simp only [Turn] at *
  omega

variable {clip : Option Rect} {m : Mark Pixel}

lemma reach_of_mem_scanClipped {rect : Rect} {f : ℕ → ℕ → Option (Pixel → Pixel)}
    (hm : m ∈ scanClipped w h rect clip f) : Reach w h clip m.x m.y := by
  refine ⟨mem_scanClipped_screen hm, ?_⟩
  rintro c rfl
  unfold scanClipped at hm
  split at hm
  · cases hm
  split at hm
  · cases hm
  · rename_i clipped heq
    obtain ⟨⟨hx, hx2⟩, hy, hy2⟩ := intersectRect_sub_right heq
    obtain ⟨hmx, hmy, -⟩ := mem_scan.mp hm
    exact ⟨turn_of_sub hx hx2 hmx, turn_of_sub hy hy2 hmy⟩

variable {item : SceneItem}

lemma reach_of_mem_marks (fm : FontManager) (hm : m ∈ item.marks fm w h clip) :
    Reach w h clip m.x m.y := by
  have hscreen := mem_marks_screen fm hm
  rcases mem_marks_cases fm hm with ⟨_, _, hm⟩ | ⟨_, _, _, _, hm⟩
    | ⟨rect, bounds, _, _, _, _, hbounds, hglyph⟩ | ⟨_, _, _, hm⟩ | ⟨_, _, _, hm⟩
  · exact reach_of_mem_scanClipped hm
  · exact ⟨hscreen, fun c hc =>
      (reach_of_contains hscreen ((mem_rasterDrawGlyph hm).2 c hc)).2 c rfl⟩
  · refine ⟨hscreen, ?_⟩
    rintro c rfl
    have hin := (inClip_intersectRect (a := rect) |>.mp
      ⟨bounds, hbounds, (mem_rasterDrawGlyph hglyph).2 bounds rfl⟩).2
    exact (reach_of_contains hscreen hin).2 c rfl
  · exact ⟨hscreen, fun c hc =>
      (reach_of_contains hscreen ((mem_rasterDrawCursor hm).2 c hc)).2 c rfl⟩
  · exact ⟨hscreen, fun c hc =>
      (reach_of_contains hscreen ((mem_rasterDrawLine hm).2 c hc)).2 c rfl⟩

/-- A clip is filled wherever they may come to. -/
lemma mem_rasterFillRect_self (hreach : Reach w h (some c) x y)
    (color : Rgba) : ⟨x, y, paintOver color⟩ ∈ rasterFillRect w h c color (some c) := by
  obtain ⟨hscreen, hturn⟩ := hreach
  obtain ⟨hx, hy⟩ := hturn c rfl
  simp only [Turn] at hx hy
  have hempty : ¬ (c.width = 0 ∨ c.height = 0 ∨ w = 0) := by omega
  simp only [rasterFillRect, scanClipped, if_neg hempty, applyClip,
    intersectRect_self (c := c) (by omega)]
  exact mem_scan.mpr ⟨hx, hy, rfl⟩

/-- Without a clip a single pixel may be filled. -/
lemma mem_rasterFillRect_pixel (hscreen : x < w ∧ y < h) (color : Rgba) :
    ⟨x, y, paintOver color⟩ ∈ rasterFillRect w h ⟨x, y, 1, 1⟩ color none := by
  have hempty : ¬ (1 = 0 ∨ 1 = 0 ∨ w = 0) := by omega
  simp only [rasterFillRect, scanClipped, if_neg hempty, applyClip]
  refine mem_scan.mpr ⟨?_, ?_, rfl⟩
  · dsimp only
    omega
  · dsimp only
    omega

/-- To every place that they may come to, the loops of some rectangle come. -/
lemma exists_fillRect_reach (hreach : Reach w h clip x y) :
    ∃ rect, ∀ color, ⟨x, y, paintOver color⟩ ∈ rasterFillRect w h rect color clip := by
  cases clip with
  | none => exact ⟨⟨x, y, 1, 1⟩, mem_rasterFillRect_pixel hreach.1⟩
  | some c => exact ⟨c, mem_rasterFillRect_self hreach⟩

/-- The loop over a rectangle comes to a place once or not at all. -/
lemma retouch_rasterFillRect (w h : ℕ) (rect : Rect) (color : Rgba) (clip : Option Rect)
    (x y : ℕ) :
    (⟨x, y, paintOver color⟩ ∈ rasterFillRect w h rect color clip
        ∧ retouch (rasterFillRect w h rect color clip) x y = paintOver color)
      ∨ ⟨x, y, paintOver color⟩ ∉ rasterFillRect w h rect color clip
        ∧ retouch (rasterFillRect w h rect color clip) x y = id := by
  unfold rasterFillRect scanClipped
  split
  · exact .inr ⟨by simp, rfl⟩
  split
  · exact .inr ⟨by simp, rfl⟩
  · dsimp only
    generalize min _ w = x0
    generalize min _ h = y0
    generalize min _ w = x1
    generalize min _ h = y1
    rw [mem_scan]
    unfold retouch
    rw [marksAt_scan]
    by_cases hin : (x0 ≤ x ∧ x < x1) ∧ y0 ≤ y ∧ y < y1
    · refine .inl ⟨⟨hin.1, hin.2, rfl⟩, ?_⟩
      rw [if_pos hin]
      rfl
    · refine .inr ⟨fun hmem => hin ⟨hmem.1, hmem.2.1⟩, ?_⟩
      rw [if_neg hin]
      rfl

variable {color : Rgba}

lemma retouch_of_mem {rect : Rect}
    (hmem : ⟨x, y, paintOver color⟩ ∈ rasterFillRect w h rect color clip) :
    retouch (rasterFillRect w h rect color clip) x y = paintOver color := by
  rcases retouch_rasterFillRect w h rect color clip x y with ⟨-, heq⟩ | ⟨hnot, -⟩
  · exact heq
  · exact absurd hmem hnot

/-! ## Scenes, seen from one place -/

section

variable (fm : FontManager) (r : BitmapRenderer) (items : List SceneItem)

lemma exists_pixel_renderScene
    (root : Rect) (mode : ClearMode) (hx : x < r.width) (hy : y < r.height) :
    ∃ a, (renderScene fm r items root mode).pixel x y = some a := by
  obtain ⟨hw, hh⟩ := renderScene_size fm r items root mode
  exact Option.isSome_iff_exists.mp
    ((Canvas.isSome_pixel_iff _ x y).mpr ⟨by rw [hw]; exact hx, by rw [hh]; exact hy⟩)

lemma pixel_renderScene_draw
    (root : Rect) (mode : ClearMode) (hdraws : item.draws = true) (x y : ℕ) :
    (renderScene fm r (items ++ [item]) root mode).pixel x y
      = ((renderScene fm r items root mode).pixel x y).map
        (retouch (item.marks fm r.width r.height (clipOf root (pushedAfter items))) x y) := by
  rw [renderScene_concat fm r items root mode hdraws]
  refine Canvas.pixel_draw _ (fun m hm => ?_) x y
  rw [(renderScene_size fm r items root mode).1]
  exact (mem_marks_screen fm hm).1

lemma pixel_renderScene_clear (root rect : Rect) (color : Rgba) (x y : ℕ) :
    (renderScene fm r (items ++ [.clear color]) root (.clip rect)).pixel x y
      = ((renderScene fm r items root (.clip rect)).pixel x y).map
        (retouch (rasterFillRect r.width r.height rect color (some rect)) x y) := by
  have hsize := renderScene_size fm r items root (.clip rect)
  have hstep : renderScene fm r (items ++ [.clear color]) root (.clip rect)
      = (renderScene fm r items root (.clip rect)).draw
        (rasterFillRect r.width r.height rect color (some rect)) := by
    rw [← hsize.1, ← hsize.2, renderScene, run_concat]
    rfl
  rw [hstep]
  refine Canvas.pixel_draw _ (fun m hm => ?_) x y
  rw [hsize.1]
  exact (mem_scanClipped_screen hm).1

lemma pixel_renderScene_clear_full (root : Rect) (color : Rgba) (x y : ℕ) :
    (renderScene fm r (items ++ [.clear color]) root .full).pixel x y
      = ((renderScene fm r items root .full).pixel x y).map fun _ => color.toU32 := by
  have hstep : renderScene fm r (items ++ [.clear color]) root .full
      = (renderScene fm r items root .full).fill color.toU32 := by
    rw [renderScene, run_concat]
    rfl
  rw [hstep, Canvas.pixel_fill]

end

/-! ## What has to hold -/

/-- Loops come to places in the rectangle only, those of items as well as those of `Clear`s that are
not transparent. -/
structure Keeps (w h : ℕ) (dirty : Rect) (scene : List SceneItem) : Prop where
  drawn : ∀ before item after, scene = before ++ item :: after → item.draws = true →
    ∀ x y, Reach w h (clipOf dirty (pushedAfter before)) x y → dirty.Contains x y
  cleared : ∀ color, .clear color ∈ scene → color.a ≠ 0 →
    ∀ x y, Reach w h (some dirty) x y → dirty.Contains x y

/-- The last `Clear` has a solid colour. Under the clips pushed after it, if they overlap in the
rectangle they do so on the screen, and what they have in common does not begin before the screen or
is out of reach. -/
structure Redraws (w h : ℕ) (dirty : Rect) (before : List SceneItem) (color : Rgba)
    (after : List SceneItem) : Prop where
  solid : color.a = 0xFF
  last : ∀ color', .clear color' ∉ after
  alike : ∀ drawn item rest, after = drawn ++ item :: rest → item.draws = true →
    ∀ c, clipOf dirty (pushedAfter (before ++ .clear color :: drawn)) = some c →
    clipOf ⟨0, 0, w, h⟩ (pushedAfter (before ++ .clear color :: drawn)) ≠ none
      ∧ ((0 ≤ c.x ∧ 0 ≤ c.y) ∨ ∀ x y, ¬ Reach w h (some c) x y)

/-- Nothing is drawn outside the rectangle, and if a part of it is on the screen, the scene is
redrawn there from its last `Clear` on. -/
structure Repaints (w h : ℕ) (dirty : Rect) (scene : List SceneItem) : Prop
    extends Keeps w h dirty scene where
  redrawn : (∃ x y, (x < w ∧ y < h) ∧ dirty.Contains x y) →
    ∃ before color after, scene = before ++ .clear color :: after
      ∧ Redraws w h dirty before color after

variable {dirty : Rect}

lemma Keeps.of_concat {scene : List SceneItem}
    (hkeeps : Keeps w h dirty (scene ++ [item])) : Keeps w h dirty scene where
  drawn before drawn after heq := hkeeps.drawn before drawn (after ++ [item]) (by
    rw [heq, append_assoc]
    rfl)
  cleared color hmem := hkeeps.cleared color (mem_append_left _ hmem)

variable {before after : List SceneItem}

lemma Redraws.of_concat (hredraws : Redraws w h dirty before color (after ++ [item])) :
    Redraws w h dirty before color after where
  solid := hredraws.solid
  last color' hmem := hredraws.last color' (mem_append_left _ hmem)
  alike drawn drawing rest heq := hredraws.alike drawn drawing (rest ++ [item]) (by
    rw [heq, append_assoc]
    rfl)

/-! ## It is enough -/

lemma retouch_eq_id {marks : List (Mark Pixel)}
    (hmarks : ∀ m ∈ marks, Reach w h clip m.x m.y) (hreach : ¬ Reach w h clip x y) :
    retouch marks x y = id := by
  refine retouch_eq_self fun m hm => ?_
  rintro ⟨rfl, rfl⟩
  exact hreach (hmarks m hm)

/-- Outside the rectangle everything stays. -/
lemma Keeps.pixel_renderPartial (fm : FontManager) (r : BitmapRenderer) {scene : List SceneItem}
    (hkeeps : Keeps r.width r.height dirty scene) (hdirty : ¬ dirty.Contains x y) :
    (renderPartial fm r scene dirty).pixel x y = r.pixel x y := by
  unfold renderPartial
  induction scene using List.reverseRecOn with
  | nil => rfl
  | append_singleton scene item ih =>
    have ih := ih hkeeps.of_concat
    by_cases hdraws : item.draws = true
    · have hitem := hkeeps.drawn scene item [] rfl hdraws
      rw [pixel_renderScene_draw fm r scene dirty _ hdraws, ih,
        retouch_eq_id (fun m hm => reach_of_mem_marks fm hm) fun hreach =>
          hdirty (hitem x y hreach), Option.map_id_apply]
    · by_cases hclear : ∃ color, item = .clear color
      · obtain ⟨color, rfl⟩ := hclear
        rw [pixel_renderScene_clear, ih]
        by_cases ha : color.a = 0
        · -- a transparent colour changes nothing
          rcases retouch_rasterFillRect r.width r.height dirty color (some dirty) x y with
            ⟨-, hsame⟩ | ⟨-, hsame⟩
          · rw [hsame, paintOver_eq_id ha, Option.map_id_apply]
          · rw [hsame, Option.map_id_apply]
        · have hcolor := hkeeps.cleared color (by simp) ha
          have hsame :
              retouch (rasterFillRect r.width r.height dirty color (some dirty)) x y = id :=
            retouch_eq_id (fun m hm => reach_of_mem_scanClipped hm) fun hreach =>
              hdirty (hcolor x y hreach)
          rw [hsame, Option.map_id_apply]
      · rw [renderScene_concat_clip fm r scene dirty _ (by simpa using hdraws)
          fun color heq => hclear ⟨color, heq⟩]
        exact ih

lemma exists_contains_of_clipOf_screen {pushed : List Rect} (hscreen : 0 < w ∧ 0 < h)
    (hc : clipOf ⟨0, 0, w, h⟩ pushed = some c) :
    ∃ x y, (x < w ∧ y < h) ∧ InClip (clipOf ⟨0, 0, w, h⟩ pushed) x y := by
  have hnonneg := clipOf_screen_nonneg hc
  have hsize : c.width ≠ 0 ∧ c.height ≠ 0 := by
    rcases clipOf_spec ⟨0, 0, w, h⟩ pushed with ⟨hnone, -⟩ | ⟨c', hc', hextent, hcase⟩
    · rw [hnone] at hc
      cases hc
    · obtain rfl : c' = c := Option.some.inj (hc'.symm.trans hc)
      rcases hcase with rfl | hne
      · obtain rfl : ⟨0, 0, w, h⟩ = c' := Option.some.inj hc
        dsimp only
        omega
      · rw [← hextent] at hne
        exact c'.extent_nonempty_iff.mp hne
  have hin : InClip (clipOf ⟨0, 0, w, h⟩ pushed) c.x.toNat c.y.toNat := by
    refine ⟨c, hc, ?_⟩
    simp only [Rect.Contains]
    omega
  have hall := inClip_clipOf.mp hin ⟨0, 0, w, h⟩ mem_cons_self
  simp only [Rect.Contains] at hall
  exact ⟨c.x.toNat, c.y.toNat, by omega, hin⟩

/-- An item has the same marks in the rectangle, whether all is painted or a part. -/
lemma marksAt_alike (fm : FontManager) {pushed : List Rect}
    (hdrawn : ∀ x y, Reach w h (clipOf dirty pushed) x y → dirty.Contains x y)
    (halike : ∀ c, clipOf dirty pushed = some c → clipOf ⟨0, 0, w, h⟩ pushed ≠ none
      ∧ ((0 ≤ c.x ∧ 0 ≤ c.y) ∨ ∀ x y, ¬ Reach w h (some c) x y))
    (hx : px < w) (hy : py < h) (hdirty : dirty.Contains px py) :
    marksAt (item.marks fm w h (clipOf dirty pushed)) px py
      = marksAt (item.marks fm w h (clipOf ⟨0, 0, w, h⟩ pushed)) px py := by
  cases hc : clipOf dirty pushed with
  | none =>
    -- then the whole screen is dirty, and the clips do not overlap there either
    cases hf : clipOf ⟨0, 0, w, h⟩ pushed with
    | none => rfl
    | some f =>
      obtain ⟨x, y, hscreen, hin⟩ := exists_contains_of_clipOf_screen (by omega) hf
      have hxy := hdrawn x y ⟨hscreen, by simp [hc]⟩
      rw [← inClip_dirty_iff hscreen.1 hscreen.2 hxy, hc] at hin
      obtain ⟨c, hnone, -⟩ := hin
      cases hnone
  | some c =>
    obtain ⟨hne, hexact⟩ := halike c hc
    obtain ⟨f, hf⟩ := Option.ne_none_iff_exists'.mp hne
    have hclips := @inClip_dirty_iff w h px py dirty pushed hx hy hdirty
    rw [hc, hf, inClip_some, inClip_some] at hclips
    rw [hf]
    rcases hexact with hnonneg | hout
    · exact marksAt_marks_congr fm (item.exact_of_nonneg hnonneg) (exact_of_clipOf_screen item hf)
        hx hy hclips
    · -- out of reach there are no marks under either clip
      have hnot : ¬ c.Contains px py := fun hin => hout px py (reach_of_contains ⟨hx, hy⟩ hin)
      rw [marksAt_marks_eq_nil fm (exact_of_clipOf_screen item hf) hx hy (hclips.not.mp hnot)]
      refine filter_eq_nil_iff.mpr fun m hm hplace => ?_
      obtain ⟨rfl, rfl⟩ := of_decide_eq_true hplace
      exact hout _ _ (reach_of_mem_marks fm hm)

/-- Inside the rectangle the scene is redrawn. -/
lemma Redraws.pixel_renderPartial (fm : FontManager) (r : BitmapRenderer)
    (hkeeps : Keeps r.width r.height dirty (before ++ .clear color :: after))
    (hredraws : Redraws r.width r.height dirty before color after) (hx : px < r.width)
    (hy : py < r.height) (hdirty : dirty.Contains px py) :
    (renderPartial fm r (before ++ .clear color :: after) dirty).pixel px py
      = (render fm r (before ++ .clear color :: after)).pixel px py := by
  unfold renderPartial render
  induction after using List.reverseRecOn with
  | nil =>
    obtain ⟨a, ha⟩ := exists_pixel_renderScene fm r before dirty (.clip dirty) hx hy
    obtain ⟨b, hb⟩ := exists_pixel_renderScene fm (r.fill clearColor.toU32) before
      ⟨0, 0, r.width, r.height⟩ .full hx hy
    rw [pixel_renderScene_clear, pixel_renderScene_clear_full, ha, hb,
      retouch_of_mem (mem_rasterFillRect_self (reach_of_contains ⟨hx, hy⟩ hdirty) color),
      paintOver, if_pos hredraws.solid]
    rfl
  | append_singleton after item ih =>
    have heq : before ++ .clear color :: (after ++ [item])
        = (before ++ .clear color :: after) ++ [item] := by simp
    rw [heq] at hkeeps ⊢
    have ih := ih hkeeps.of_concat hredraws.of_concat
    by_cases hdraws : item.draws = true
    · rw [pixel_renderScene_draw fm r _ _ _ hdraws, pixel_renderScene_draw fm _ _ _ _ hdraws, ih]
      have hmarks : retouch (item.marks fm r.width r.height
            (clipOf dirty (pushedAfter (before ++ .clear color :: after)))) px py
          = retouch (item.marks fm r.width r.height
            (clipOf ⟨0, 0, r.width, r.height⟩ (pushedAfter (before ++ .clear color :: after))))
            px py := by
        funext a
        unfold retouch
        rw [marksAt_alike fm (hkeeps.drawn _ item [] rfl hdraws)
          (hredraws.alike after item [] rfl hdraws) hx hy hdirty]
      rw [hmarks]
      rfl
    · have hclear : ∀ color', item ≠ .clear color' := by
        rintro color' rfl
        exact hredraws.last color' (mem_append_right _ mem_cons_self)
      rw [renderScene_concat_clip fm r _ _ _ (by simpa using hdraws) hclear,
        renderScene_concat_clip fm _ _ _ _ (by simpa using hdraws) hclear]
      exact ih

/-! ## It is necessary

The scenes that show this draw one rectangle at most. -/

def blank : SceneItem := .fillRect ⟨0, 0, 0, 0⟩ clearColor

/-- The item, unless it draws. -/
def slot (item : SceneItem) : Option SceneItem := if item.draws then none else some item

/-- An item that draws gives way to one that draws nothing. -/
def blanked (item : SceneItem) : SceneItem := if item.draws then blank else item

lemma map_slot_map_blanked (items : List SceneItem) :
    (items.map blanked).map slot = items.map slot := by
  rw [map_map]
  refine map_congr_left fun item _ => ?_
  cases item <;> rfl

lemma slot_fillRect (hdraws : item.draws = true) (rect : Rect) (color : Rgba) :
    slot (.fillRect rect color) = slot item :=
  (if_pos rfl).trans (if_pos hdraws).symm

lemma map_slot_replace {before after : List SceneItem} {item item' : SceneItem}
    (hslot : slot item' = slot item) :
    (before.map blanked ++ [item'] ++ after.map blanked).map slot
      = (before ++ item :: after).map slot := by
  simp only [map_append, map_slot_map_blanked, map_cons, hslot, append_assoc,
    singleton_append]

/-- The rectangles pushed after an item that does not draw. -/
def pushSlot (pushed : List Rect) : Option SceneItem → List Rect
  | some (.clipPush rect) => rect :: pushed
  | some .clipPop => pushed.tail
  | _ => pushed

lemma pushedAfter_eq (items : List SceneItem) :
    pushedAfter items = (items.map slot).foldl pushSlot [] := by
  rw [foldl_map, pushedAfter]
  congr 1
  funext pushed item
  cases item <;> rfl

variable {items : List SceneItem}

lemma pushedAfter_congr {items' : List SceneItem}
    (hsame : items.map slot = items'.map slot) : pushedAfter items = pushedAfter items' := by
  rw [pushedAfter_eq, pushedAfter_eq, hsame]

/-- Clips, `Clear`s and rectangles. -/
def Plain (item : SceneItem) : Prop :=
  item.draws = false ∨ ∃ rect color, item = .fillRect rect color

/-- Neither a `Clear` nor anything that is seen. -/
def Traceless (item : SceneItem) : Prop :=
  item = blank ∨ item.draws = false ∧ ∀ color, item ≠ .clear color

lemma plain_blanked (item : SceneItem) : Plain (blanked item) := by
  cases hdraws : item.draws with
  | true => exact .inr ⟨_, _, by rw [blanked, if_pos hdraws]; rfl⟩
  | false => exact .inl (by rw [blanked, if_neg (by simp [hdraws]), hdraws])

lemma traceless_blanked (hclear : ∀ color, item ≠ .clear color) :
    Traceless (blanked item) := by
  cases hdraws : item.draws with
  | true => exact .inl (by rw [blanked, if_pos hdraws])
  | false =>
    rw [blanked, if_neg (by simp [hdraws])]
    exact .inr ⟨hdraws, hclear⟩

def SolidAt (r : BitmapRenderer) (x y : ℕ) : Prop := ∃ a, r.pixel x y = some a ∧ Solid a

variable {rest : List SceneItem}

/-- Once there is a solid colour at a place, there will always be one. -/
lemma solidAt_renderPartial_append (fm : FontManager) (r : BitmapRenderer)
    (hplain : ∀ item ∈ rest, Plain item) (hsolid : SolidAt (renderPartial fm r items dirty) x y) :
    SolidAt (renderPartial fm r (items ++ rest) dirty) x y := by
  induction rest using List.reverseRecOn with
  | nil =>
    rw [append_nil]
    exact hsolid
  | append_singleton rest item ih =>
    obtain ⟨a, ha, hsolid⟩ := ih fun item hmem => hplain item (mem_append_left _ hmem)
    unfold renderPartial SolidAt at *
    rw [← append_assoc]
    have hfill (rect : Rect) (color : Rgba) (clip : Option Rect) :
        Solid (retouch (rasterFillRect r.width r.height rect color clip) x y a) := by
      rcases retouch_rasterFillRect r.width r.height rect color clip x y with ⟨-, heq⟩ | ⟨-, heq⟩
      · rw [heq]
        exact hsolid.paintOver color
      · rw [heq]
        exact hsolid
    rcases hplain item (by simp) with hdraws | ⟨rect, color, rfl⟩
    · by_cases hclear : ∃ color, item = .clear color
      · obtain ⟨color, rfl⟩ := hclear
        rw [pixel_renderScene_clear, ha]
        exact ⟨_, rfl, hfill _ _ _⟩
      · rw [renderScene_concat_clip fm r _ _ _ hdraws fun color heq => hclear ⟨color, heq⟩]
        exact ⟨a, ha, hsolid⟩
    · rw [pixel_renderScene_draw fm r _ _ _ rfl, ha]
      exact ⟨_, rfl, hfill _ _ _⟩

lemma pixel_renderScene_traceless (fm : FontManager) (r : BitmapRenderer)
    {items rest : List SceneItem} (htraceless : ∀ item ∈ rest, Traceless item) (root : Rect)
    (mode : ClearMode) (x y : ℕ) :
    (renderScene fm r (items ++ rest) root mode).pixel x y
      = (renderScene fm r items root mode).pixel x y := by
  induction rest using List.reverseRecOn with
  | nil => rw [append_nil]
  | append_singleton rest item ih =>
    have ih := ih fun item hmem => htraceless item (mem_append_left _ hmem)
    rw [← append_assoc]
    rcases htraceless item (by simp) with rfl | ⟨hdraws, hclear⟩
    · have hnone : ∀ clip, blank.marks fm r.width r.height clip = [] := fun clip => rfl
      rw [pixel_renderScene_draw fm r _ _ _ rfl, hnone, ih]
      exact Option.map_id_apply
    · rw [renderScene_concat_clip fm r _ _ _ hdraws hclear, ih]

lemma exists_last_clear (scene : List SceneItem) : (∀ color, .clear color ∉ scene)
      ∨ ∃ before color after, scene = before ++ .clear color :: after
        ∧ ∀ color', .clear color' ∉ after := by
  induction scene using List.reverseRecOn with
  | nil => exact .inl fun color => by simp
  | append_singleton scene item ih =>
    grind

/-- Inside the rectangle a partial repaint leaves what painting all would, and outside it what was
there. -/
def RepaintsLike (fm : FontManager) (r : BitmapRenderer) (scene : List SceneItem) (dirty : Rect) :
    Prop :=
  ∀ x y, x < r.width → y < r.height →
    (renderPartial fm r scene dirty).pixel x y
      = if dirty.Contains x y then (render fm r scene).pixel x y else r.pixel x y

/-- This is so for every scene that draws in the same places, and every renderer of a size that
holds the full rendering of an earlier scene. -/
def RepaintsAll (fm : FontManager) (w h : ℕ) (dirty : Rect) (scene : List SceneItem) : Prop :=
  ∀ scene' : List SceneItem, scene'.map slot = scene.map slot →
    ∀ (r : BitmapRenderer) (earlier : List SceneItem), r.width = w → r.height = h →
    RepaintsLike fm (render fm r earlier) scene' dirty

variable {fm : FontManager} {scene : List SceneItem}

variable {scene' : List SceneItem}

/-- A renderer of a size with one colour everywhere is the full rendering of a `Clear`. -/
lemma RepaintsAll.of_fill (hall : RepaintsAll fm w h dirty scene)
    (hsame : scene'.map slot = scene.map slot) (color : Rgba) (hx : x < w) (hy : y < h) :
    ∃ r : BitmapRenderer, r.width = w ∧ r.height = h ∧ r.pixel x y = some color.toU32
      ∧ (renderPartial fm r scene' dirty).pixel x y
        = if dirty.Contains x y then (render fm r scene').pixel x y else r.pixel x y := by
  let r : BitmapRenderer := ⟨w, h, List.replicate (w * h) 0, length_replicate⟩
  obtain ⟨hw, hh⟩ := renderScene_size fm (r.fill clearColor.toU32) [.clear color] ⟨0, 0, w, h⟩ .full
  obtain ⟨a, ha⟩ : ∃ a, (renderScene fm (r.fill clearColor.toU32) [] ⟨0, 0, w, h⟩ .full).pixel x y
      = some a := exists_pixel_renderScene fm (r.fill clearColor.toU32) [] _ .full hx hy
  refine ⟨render fm r [.clear color], hw, hh, ?_,
    hall scene' hsame r [.clear color] rfl rfl x y (hx.trans_eq hw.symm) (hy.trans_eq hh.symm)⟩
  have hclear := pixel_renderScene_clear_full fm (r.fill clearColor.toU32) [] ⟨0, 0, w, h⟩ color x y
  rw [ha] at hclear
  exact hclear

lemma not_solid_zero : ¬ Solid (Rgba.toU32 ⟨0, 0, 0, 0⟩) := by
  rw [solid_toU32_iff]
  decide

lemma plain_map_blanked (items : List SceneItem) : ∀ item ∈ items.map blanked, Plain item := by
  intro item hmem
  obtain ⟨item, -, rfl⟩ := mem_map.mp hmem
  exact plain_blanked item

lemma traceless_map_blanked (hclear : ∀ color, .clear color ∉ items) :
    ∀ item ∈ items.map blanked, Traceless item := by
  intro item hmem
  obtain ⟨item, hitem, rfl⟩ := mem_map.mp hmem
  exact traceless_blanked fun color heq => hclear color (heq ▸ hitem)

section

variable (hall : RepaintsAll fm w h dirty scene)
include hall

/-- Over a transparent screen, what is painted outside the rectangle is seen in the end. -/
lemma RepaintsAll.contains_of_solidAt (hsame : (items ++ rest).map slot = scene.map slot)
    (hplain : ∀ item ∈ rest, Plain item) (hx : x < w) (hy : y < h)
    (hsolid : ∀ r : BitmapRenderer, r.width = w → r.height = h →
      SolidAt (renderPartial fm r items dirty) x y) : dirty.Contains x y := by
  by_contra hdirty
  obtain ⟨r, hw, hh, hpixel, hpart⟩ := hall.of_fill hsame ⟨0, 0, 0, 0⟩ hx hy
  obtain ⟨a, ha, hsolid⟩ := solidAt_renderPartial_append fm r hplain (hsolid r hw hh)
  rw [if_neg hdirty, hpixel, ha] at hpart
  exact not_solid_zero (Option.some.inj hpart ▸ hsolid)

lemma RepaintsAll.drawn (heq : scene = before ++ item :: after) (hdraws : item.draws = true)
    (hreach : Reach w h (clipOf dirty (pushedAfter before)) x y) :
    dirty.Contains x y := by
  obtain ⟨rect, hrect⟩ := exists_fillRect_reach hreach
  have hsame := @map_slot_replace before after item _ (slot_fillRect hdraws rect clearColor)
  rw [← heq] at hsame
  refine hall.contains_of_solidAt hsame (plain_map_blanked after) hreach.1.1 hreach.1.2
    fun r hw hh => ?_
  obtain ⟨a, ha⟩ := exists_pixel_renderScene fm r (before.map blanked) dirty (.clip dirty)
    (hreach.1.1.trans_eq hw.symm) (hreach.1.2.trans_eq hh.symm)
  refine ⟨paintOver clearColor a, ?_, solid_paintOver (by decide) a⟩
  rw [renderPartial, pixel_renderScene_draw fm r _ _ _ rfl, ha,
    pushedAfter_congr (map_slot_map_blanked before), hw, hh, SceneItem.marks,
    retouch_of_mem (hrect clearColor)]
  rfl

lemma RepaintsAll.cleared (hmem : .clear color ∈ scene) (ha : color.a ≠ 0)
    (hreach : Reach w h (some dirty) x y) : dirty.Contains x y := by
  obtain ⟨before, after, heq⟩ := append_of_mem hmem
  have hsame := @map_slot_replace before after (.clear color) _ rfl
  rw [← heq] at hsame
  refine hall.contains_of_solidAt hsame (plain_map_blanked after) hreach.1.1 hreach.1.2
    fun r hw hh => ?_
  obtain ⟨a, hpixel⟩ := exists_pixel_renderScene fm r (before.map blanked) dirty (.clip dirty)
    (hreach.1.1.trans_eq hw.symm) (hreach.1.2.trans_eq hh.symm)
  refine ⟨paintOver color a, ?_, solid_paintOver ha a⟩
  rw [renderPartial, pixel_renderScene_clear, hpixel, hw, hh,
    retouch_of_mem (mem_rasterFillRect_self hreach color)]
  rfl

/-- Where a part of the rectangle is on the screen, the scene has a `Clear`. -/
lemma RepaintsAll.exists_clear (hx : x < w)
    (hy : y < h) (hdirty : dirty.Contains x y) : ¬ ∀ color, .clear color ∉ scene := by
  intro hnone
  have htraceless := traceless_map_blanked hnone
  obtain ⟨r, hw, hh, hpixel, hpart⟩ :=
    hall.of_fill (map_slot_map_blanked scene) ⟨0, 0, 0, 0⟩ hx hy
  have hsame : (renderPartial fm r (scene.map blanked) dirty).pixel x y = r.pixel x y :=
    @pixel_renderScene_traceless fm r [] _ htraceless dirty (.clip dirty) x y
  have hfull : (render fm r (scene.map blanked)).pixel x y
      = (r.fill clearColor.toU32).pixel x y :=
    @pixel_renderScene_traceless fm (r.fill clearColor.toU32) [] _ htraceless _ .full x y
  rw [if_pos hdirty, hsame, hfull, Canvas.pixel_fill, hpixel] at hpart
  revert hpart
  decide

end

lemma map_blanked_clear (before after : List SceneItem) (color : Rgba) :
    (before ++ .clear color :: after).map blanked
      = (before.map blanked ++ [.clear color]) ++ after.map blanked := by
  simp [blanked, SceneItem.draws]

/-- After its last `Clear`, a scene that draws nothing leaves the colour of it. -/
lemma pixel_render_cleared (fm : FontManager) (r : BitmapRenderer) (before : List SceneItem)
    (color : Rgba) (hlast : ∀ color', .clear color' ∉ after)
    (hx : x < r.width) (hy : y < r.height) :
    (render fm r ((before ++ .clear color :: after).map blanked)).pixel x y = some color.toU32 := by
  obtain ⟨a, ha⟩ := exists_pixel_renderScene fm (r.fill clearColor.toU32) (before.map blanked)
    ⟨0, 0, r.width, r.height⟩ .full hx hy
  rw [map_blanked_clear, render, pixel_renderScene_traceless fm _ (traceless_map_blanked hlast),
    pixel_renderScene_clear_full, ha]
  rfl

/-- So does a partial repaint inside the rectangle, if the colour is solid. -/
lemma pixel_renderPartial_cleared (fm : FontManager) (r : BitmapRenderer)
    (before : List SceneItem) (hsolid : color.a = 0xFF)
    (hlast : ∀ color', .clear color' ∉ after) (hx : x < r.width) (hy : y < r.height)
    (hdirty : dirty.Contains x y) :
    (renderPartial fm r ((before ++ .clear color :: after).map blanked) dirty).pixel x y
      = some color.toU32 := by
  obtain ⟨a, ha⟩ := exists_pixel_renderScene fm r (before.map blanked) dirty (.clip dirty) hx hy
  rw [map_blanked_clear, renderPartial,
    pixel_renderScene_traceless fm _ (traceless_map_blanked hlast), pixel_renderScene_clear, ha,
    retouch_of_mem (mem_rasterFillRect_self (reach_of_contains ⟨hx, hy⟩ hdirty) color), paintOver,
    if_pos hsolid]
  rfl

/-- The colour of the last `Clear` is solid: over a solid screen anything else leaves another. -/
lemma RepaintsAll.solid (hall : RepaintsAll fm w h dirty scene)
    (heq : scene = before ++ .clear color :: after)
    (hlast : ∀ color', .clear color' ∉ after) (hx : x < w) (hy : y < h)
    (hdirty : dirty.Contains x y) : color.a = 0xFF := by
  obtain ⟨r, hw, hh, hpixel, hpart⟩ := hall.of_fill (map_slot_map_blanked scene) clearColor hx hy
  have hstart : SolidAt (renderPartial fm r [] dirty) x y :=
    ⟨_, hpixel, (solid_toU32_iff clearColor).mpr rfl⟩
  obtain ⟨a, ha, hsolid⟩ := solidAt_renderPartial_append fm r (plain_map_blanked scene) hstart
  rw [nil_append] at ha
  rw [if_pos hdirty, ha, heq, pixel_render_cleared fm r before color hlast (hx.trans_eq hw.symm)
    (hy.trans_eq hh.symm)] at hpart
  rw [← solid_toU32_iff, ← Option.some.inj hpart]
  exact hsolid

/-- After the last `Clear`, rectangles in another colour come to the same places in the dirty
rectangle. -/
lemma RepaintsAll.mem_fillRect_iff (hall : RepaintsAll fm w h dirty scene)
    {drawn : List SceneItem}
    (heq : scene = (before ++ .clear color :: drawn) ++ item :: rest) (hdraws : item.draws = true)
    (hsolid : color.a = 0xFF) (hdrawn : ∀ color', .clear color' ∉ drawn)
    (hrest : ∀ color', .clear color' ∉ rest) {k : Rgba} (hk : k.a = 0xFF)
    (hne : k.toU32 ≠ color.toU32) (rect : Rect) (hx : x < w) (hy : y < h)
    (hdirty : dirty.Contains x y) :
    ⟨x, y, paintOver k⟩ ∈ rasterFillRect w h rect k
        (clipOf dirty (pushedAfter (before ++ .clear color :: drawn)))
      ↔ ⟨x, y, paintOver k⟩ ∈ rasterFillRect w h rect k
        (clipOf ⟨0, 0, w, h⟩ (pushedAfter (before ++ .clear color :: drawn))) := by
  have hsame := @map_slot_replace (before ++ .clear color :: drawn) rest item _
    (slot_fillRect hdraws rect k)
  rw [← heq] at hsame
  obtain ⟨r, hw, hh, -, hpart⟩ := hall.of_fill hsame clearColor hx hy
  have hrx : x < r.width := hx.trans_eq hw.symm
  have hry : y < r.height := hy.trans_eq hh.symm
  have hpushed := pushedAfter_congr (map_slot_map_blanked (before ++ .clear color :: drawn))
  have hleft := pixel_renderPartial_cleared fm r before hsolid hdrawn hrx hry hdirty
  have hright := pixel_render_cleared fm r before color hdrawn hrx hry
  have htraceless := traceless_map_blanked hrest
  rw [if_pos hdirty, renderPartial, render, pixel_renderScene_traceless fm _ htraceless,
    pixel_renderScene_traceless fm _ htraceless, pixel_renderScene_draw fm _ _ _ _ rfl,
    pixel_renderScene_draw fm _ _ _ _ rfl, ← renderPartial, ← render, hleft, hright,
    hpushed] at hpart
  have hvalue : retouch (rasterFillRect w h rect k
        (clipOf dirty (pushedAfter (before ++ .clear color :: drawn)))) x y color.toU32
      = retouch (rasterFillRect w h rect k
        (clipOf ⟨0, 0, w, h⟩ (pushedAfter (before ++ .clear color :: drawn)))) x y color.toU32 := by
    rw [← hw, ← hh]
    exact Option.some.inj hpart
  have hpaint : paintOver k color.toU32 ≠ color.toU32 := by
    rw [paintOver, if_pos hk]
    exact hne
  rcases retouch_rasterFillRect w h rect k
      (clipOf dirty (pushedAfter (before ++ .clear color :: drawn))) x y with
    ⟨hmem, hl⟩ | ⟨hmem, hl⟩ <;>
  rcases retouch_rasterFillRect w h rect k
      (clipOf ⟨0, 0, w, h⟩ (pushedAfter (before ++ .clear color :: drawn))) x y with
    ⟨hmem', hr⟩ | ⟨hmem', hr⟩ <;>
  rw [hl, hr] at hvalue
  · exact iff_of_true hmem hmem'
  · exact absurd hvalue hpaint
  · exact absurd hvalue.symm hpaint
  · exact iff_of_false hmem hmem'

/-- A single pixel is filled under a clip only if the clip contains it. -/
lemma of_mem_rasterFillRect_pixel {x y : ℤ} {k : Rgba}
    (hm : m ∈ rasterFillRect w h ⟨x, y, 1, 1⟩ k (some c)) :
    (c.x ≤ x ∧ x < c.x + c.width) ∧ c.y ≤ y ∧ y < c.y + c.height := by
  unfold rasterFillRect scanClipped at hm
  split at hm
  · cases hm
  split at hm
  · cases hm
  · rename_i clipped hclipped
    have hne := (extent_intersectRect hclipped).2
    simp only [Extent.Nonempty, Extent.inter, Rect.extent] at hne
    omega

/-- The corner of a clip that is in reach is filled, at its place or at the edge of the screen. -/
lemma mem_rasterFillRect_corner (hreach : Reach w h (some c) x y)
    (k : Rgba) :
    ⟨(max c.x 0).toNat, (max c.y 0).toNat, paintOver k⟩
        ∈ rasterFillRect w h ⟨c.x, c.y, 1, 1⟩ k (some c)
      ∧ Reach w h (some c) (max c.x 0).toNat (max c.y 0).toNat := by
  obtain ⟨hscreen, hturn⟩ := hreach
  obtain ⟨hx, hy⟩ := hturn c rfl
  simp only [Turn] at hx hy
  have hcorner : intersectRect ⟨c.x, c.y, 1, 1⟩ c = some ⟨c.x, c.y, 1, 1⟩ := by
    have hx2 : min (c.x + (1 : ℕ)) (c.x + c.width) = c.x + 1 := by omega
    have hy2 : min (c.y + (1 : ℕ)) (c.y + c.height) = c.y + 1 := by omega
    unfold intersectRect
    simp only [max_self, hx2, hy2]
    rw [if_pos (by omega)]
    simp
  constructor
  · have hempty : ¬ (1 = 0 ∨ 1 = 0 ∨ w = 0) := by omega
    simp only [rasterFillRect, scanClipped, if_neg hempty, applyClip, hcorner]
    refine mem_scan.mpr ⟨?_, ?_, rfl⟩
    · dsimp only
      omega
    · dsimp only
      omega
  · refine ⟨by omega, fun c' hc' => ?_⟩
    obtain rfl := Option.some.inj hc'
    simp only [Turn]
    omega

lemma RepaintsAll.alike (hall : RepaintsAll fm w h dirty scene) {drawn : List SceneItem}
    (heq : scene = (before ++ .clear color :: drawn) ++ item :: rest) (hdraws : item.draws = true)
    (hsolid : color.a = 0xFF) (hdrawn : ∀ color', .clear color' ∉ drawn)
    (hrest : ∀ color', .clear color' ∉ rest) (hmeets : ∃ x y, (x < w ∧ y < h) ∧ dirty.Contains x y)
    (hc : clipOf dirty (pushedAfter (before ++ .clear color :: drawn)) = some c) :
    clipOf ⟨0, 0, w, h⟩ (pushedAfter (before ++ .clear color :: drawn)) ≠ none
      ∧ ((0 ≤ c.x ∧ 0 ≤ c.y) ∨ ∀ x y, ¬ Reach w h (some c) x y) := by
  obtain ⟨k, hk, hne⟩ := exists_opaque_ne color.toU32
  have hiff (rect : Rect) {x y : ℕ} (hx : x < w) (hy : y < h) (hdirty : dirty.Contains x y) :=
    hall.mem_fillRect_iff heq hdraws hsolid hdrawn hrest hk hne rect hx hy hdirty
  rw [hc] at hiff
  have hscreen : clipOf ⟨0, 0, w, h⟩ (pushedAfter (before ++ .clear color :: drawn)) ≠ none := by
    -- without a clip on the screen, a pixel of the dirty rectangle is filled
    intro hnone
    obtain ⟨x, y, ⟨hx, hy⟩, hdirty⟩ := hmeets
    have hmem := (hiff ⟨x, y, 1, 1⟩ hx hy hdirty).mpr
      (by rw [hnone]; exact mem_rasterFillRect_pixel ⟨hx, hy⟩ k)
    have hin : InClip (clipOf dirty (pushedAfter (before ++ .clear color :: drawn))) x y :=
      ⟨c, hc, of_mem_rasterFillRect_pixel hmem⟩
    rw [inClip_dirty_iff hx hy hdirty, hnone] at hin
    obtain ⟨_, hsome, -⟩ := hin
    cases hsome
  refine ⟨hscreen, ?_⟩
  obtain ⟨f, hf⟩ := Option.ne_none_iff_exists'.mp hscreen
  rw [hf] at hiff
  by_contra hcond
  rw [not_or] at hcond
  push Not at hcond
  obtain ⟨hneg, x, y, hreach⟩ := hcond
  -- a pixel at the corner of the clip is moved onto the screen
  obtain ⟨hmem, hcorner⟩ := mem_rasterFillRect_corner hreach k
  have hdirty := hall.drawn heq hdraws (by rw [hc]; exact hcorner)
  have hfull := (hiff _ hcorner.1.1 hcorner.1.2 hdirty).mp hmem
  obtain ⟨hfx, hfy⟩ := clipOf_screen_nonneg hf
  have hin := of_mem_rasterFillRect_pixel hfull
  omega

/-! ## Scenes that draw in the same places -/

lemma draws_of_slot_eq {item' : SceneItem} (hslot : slot item' = slot item)
    (hdraws : item.draws = true) : item'.draws = true := by
  rw [slot, slot, if_pos hdraws] at hslot
  by_contra hnot
  rw [if_neg hnot] at hslot
  cases hslot

lemma eq_clear_of_slot_eq (hslot : slot item = slot (.clear color)) : item = .clear color := by
  unfold slot at hslot
  split at hslot
  · cases hslot
  · exact Option.some.inj hslot

lemma exists_split {scene : List SceneItem}
    (hsame : scene'.map slot = scene.map slot) (heq : scene = before ++ item :: after) :
    ∃ before' item' after', scene' = before' ++ item' :: after'
      ∧ before'.map slot = before.map slot ∧ slot item' = slot item
      ∧ after'.map slot = after.map slot := by
  rw [heq, map_append, map_cons] at hsame
  obtain ⟨before', tail, rfl, hbefore, htail⟩ := map_eq_append_iff.mp hsame
  obtain ⟨item', after', rfl, hitem, hafter⟩ := map_eq_cons_iff.mp htail
  exact ⟨before', item', after', rfl, hbefore, hitem, hafter⟩

lemma not_mem_clear_of_map_slot_eq {items' : List SceneItem}
    (hsame : items'.map slot = items.map slot) (hnot : .clear color ∉ items) :
    .clear color ∉ items' := by
  intro hmem
  obtain ⟨before, after, heq⟩ := append_of_mem hmem
  obtain ⟨_, item, _, rfl, -, hslot, -⟩ := exists_split hsame.symm heq
  rw [eq_clear_of_slot_eq hslot] at hnot
  simp at hnot

lemma Keeps.congr (hsame : scene'.map slot = scene.map slot)
    (hkeeps : Keeps w h dirty scene) : Keeps w h dirty scene' where
  drawn before' item' after' heq hdraws x y hreach := by
    obtain ⟨before, item, after, heq, hbefore, hslot, -⟩ := exists_split hsame.symm heq
    refine hkeeps.drawn before item after heq (draws_of_slot_eq hslot hdraws) x y ?_
    rw [pushedAfter_congr hbefore]
    exact hreach
  cleared color hmem := hkeeps.cleared color (by
    by_contra hnot
    exact not_mem_clear_of_map_slot_eq hsame hnot hmem)

lemma Redraws.congr {before' after' : List SceneItem}
    (hbefore : before'.map slot = before.map slot) (hafter : after'.map slot = after.map slot)
    (hredraws : Redraws w h dirty before color after) : Redraws w h dirty before' color after' where
  solid := hredraws.solid
  last color' := not_mem_clear_of_map_slot_eq hafter (hredraws.last color')
  alike drawn' item' rest' heq hdraws := by
    obtain ⟨drawn, item, rest, heq, hdrawn, hslot, -⟩ := exists_split hafter.symm heq
    have hpushed : pushedAfter (before' ++ .clear color :: drawn')
        = pushedAfter (before ++ .clear color :: drawn) :=
      pushedAfter_congr (by simp only [map_append, map_cons, hbefore, hdrawn])
    rw [hpushed]
    exact hredraws.alike drawn item rest heq (draws_of_slot_eq hslot hdraws)

lemma Repaints.congr (hsame : scene'.map slot = scene.map slot)
    (hscene : Repaints w h dirty scene) : Repaints w h dirty scene' where
  toKeeps := hscene.toKeeps.congr hsame
  redrawn hmeets := by
    obtain ⟨before, color, after, heq, hredraws⟩ := hscene.redrawn hmeets
    obtain ⟨before', item', after', heq', hbefore, hslot, hafter⟩ := exists_split hsame heq
    obtain rfl := eq_clear_of_slot_eq hslot
    exact ⟨before', color, after', heq', hredraws.congr hbefore hafter⟩

/-- For scenes of any contents, a partial repaint is right on every screen that holds an earlier
rendering exactly if nothing is drawn outside the rectangle, and inside it all is redrawn from a
`Clear` with a solid colour on. -/
theorem render_partial_iff (fm : FontManager) (w h : ℕ) (dirty : Rect) (scene : List SceneItem) :
    RepaintsAll fm w h dirty scene ↔ Repaints w h dirty scene := by
  constructor
  · intro hall
    refine ⟨⟨fun before item after heq hdraws x y => hall.drawn heq hdraws,
      fun color hmem ha x y => hall.cleared hmem ha⟩, fun hmeets => ?_⟩
    obtain ⟨x, y, ⟨hx, hy⟩, hdirty⟩ := hmeets
    rcases exists_last_clear scene with hnone | ⟨before, color, after, heq, hlast⟩
    · exact absurd hnone (hall.exists_clear hx hy hdirty)
    · have hsolid := hall.solid heq hlast hx hy hdirty
      refine ⟨before, color, after, heq, hsolid, hlast, ?_⟩
      intro drawn item rest hafter hdraws c hc
      have hsplit : scene = (before ++ .clear color :: drawn) ++ item :: rest := by
        rw [heq, hafter]
        simp
      refine hall.alike hsplit hdraws hsolid (fun color' hmem => ?_) (fun color' hmem => ?_)
        ⟨x, y, ⟨hx, hy⟩, hdirty⟩ hc
      all_goals exact hlast color' (by simp [hafter, hmem])
  · intro hscene scene' hsame r earlier hw hh x y hx hy
    have hscene' := hscene.congr hsame
    obtain ⟨hw', hh'⟩ := renderScene_size fm (r.fill clearColor.toU32) earlier
      ⟨0, 0, r.width, r.height⟩ .full
    rw [← render] at hw' hh'
    have hwidth : (render fm r earlier).width = w := hw'.trans hw
    have hheight : (render fm r earlier).height = h := hh'.trans hh
    generalize render fm r earlier = r' at hx hy hwidth hheight
    rw [← hwidth, ← hheight] at hscene'
    split
    · rename_i hdirty
      obtain ⟨before, color, after, rfl, hredraws⟩ := hscene'.redrawn ⟨x, y, ⟨hx, hy⟩, hdirty⟩
      exact hredraws.pixel_renderPartial fm r' hscene'.toKeeps hx hy hdirty
    · rename_i hdirty
      exact hscene'.toKeeps.pixel_renderPartial fm r' hdirty

/-- A screen of two pixels and a rectangle of one that begins one pixel before it: clearing it
paints the first pixel. -/
theorem repaint_spills :
    ¬ RepaintsLike noFonts (render noFonts twoPixels []) [.clear ⟨255, 0, 0, 255⟩]
      ⟨-1, 0, 1, 1⟩ := by
  intro hlike
  have hpixel := hlike 0 0 (by decide) (by decide)
  revert hpixel
  decide +kernel

end ThingOS.Compositor
