import ThingOS.Compositor.ClipLaw

/-!
# Repainting a part of the screen

A partial repaint draws the whole scene once more with a smaller root clip, and should leave inside
it what a full repaint leaves. The marks of an item at a place depend on the clip only in whether it
contains the place, if no loop over a rectangle begins before the screen. So the two agree wherever
the clips pushed still overlap in both, and an item whose clips do not must stay away.
-/

namespace ThingOS.Compositor

open Canvas List Option

variable {w h px py : ℕ}

variable {c : Rect}

lemma marksAt_eq_nil {marks : List (Mark Pixel)} (hmarks : ∀ m ∈ marks, Inside w h c m)
    (hc : ¬ c.Contains px py) : marksAt marks px py = [] := by
  refine filter_eq_nil_iff.mpr fun m hm hplace => hc ?_
  obtain ⟨rfl, rfl⟩ := of_decide_eq_true hplace
  exact (hmarks m hm).2

/-! ## Glyphs -/

/-- The marks of a glyph at a place, with no regard to clips. -/
def glyphAt (x y : ℤ) (glyph : Glyph) (color : Pixel) (px py : ℕ) : List (Mark Pixel) :=
  (List.range glyph.height).flatMap fun (row : ℕ) =>
    (List.range glyph.width).filterMap fun (col : ℕ) =>
      if x + col = px ∧ y + row = py then
        (glyph.bitmap[row * glyph.width + col]?.bind (glyphPixel color)).map (Mark.mk px py)
      else none

variable {y : ℤ}

lemma glyphRow_eq_enter_iff {row : ℕ} :
    glyphRow h y (some c) row = .enter
      ↔ (0 ≤ y + row ∧ y + row < h) ∧ c.y ≤ y + row ∧ y + row < c.y + c.height := by
  simp only [glyphRow]
  split_ifs <;> simp <;> omega

lemma glyphRow_stop {row row' : ℕ} (hrow : row ≤ row')
    (hstop : glyphRow h y (some c) row = .stop) : glyphRow h y (some c) row' ≠ .enter := by
  rw [Ne, glyphRow_eq_enter_iff]
  simp only [glyphRow] at hstop
  split_ifs at hstop <;> omega

lemma marksAt_rasterDrawGlyph {x : ℤ} {glyph : Glyph} {color : Pixel}
    (hx : px < w) (hy : py < h) (hc : c.Contains px py) :
    marksAt (rasterDrawGlyph w h x y glyph color (some c)) px py
      = glyphAt x y glyph color px py := by
  have hscreen : ¬ (w = 0 ∨ h = 0) := by omega
  unfold rasterDrawGlyph glyphAt
  by_cases hempty : glyph.width = 0 ∨ glyph.height = 0
  · rw [if_pos (by tauto)]
    rcases hempty with hempty | hempty <;> simp [hempty, marksAt]
  rw [if_neg (by tauto), flatMap_visited, marksAt, filter_flatMap]
  · refine flatMap_congr fun row _ => ?_
    simp only [Rect.Contains] at hc
    split
    case isTrue henter =>
      rw [glyphRow_eq_enter_iff] at henter
      rw [filter_filterMap]
      refine filterMap_congr fun col _ => ?_
      by_cases hplace : x + col = px ∧ y + row = py
      · have hshown : glyphColumnHidden w (x + col) (some c) = false := by
          simp only [glyphColumnHidden, Bool.or_eq_false_iff, decide_eq_false_iff_not]
          omega
        have hcol : (x + col).toNat = px := by omega
        have hrow : (y + row).toNat = py := by omega
        rw [hshown, if_pos hplace, hcol, hrow]
        cases glyph.bitmap[row * glyph.width + col]?.bind (glyphPixel color) <;>
          simp [Option.filter]
      · rw [if_neg hplace]
        cases hshown : glyphColumnHidden w (x + col) (some c) with
        | true => rfl
        | false =>
          simp only [glyphColumnHidden, Bool.or_eq_false_iff, decide_eq_false_iff_not] at hshown
          have hother : ¬ ((x + col).toNat = px ∧ (y + row).toNat = py) := by omega
          cases glyph.bitmap[row * glyph.width + col]?.bind (glyphPixel color) with
          | none => rfl
          | some change => simpa [Option.filter] using hother
    case isFalse hout =>
      rw [glyphRow_eq_enter_iff] at hout
      refine (filterMap_eq_nil_iff.mpr fun col _ => if_neg ?_).symm
      omega
  · exact pairwise_lt_range.imp fun hlt => glyphRow_stop hlt.le

variable {c' : Rect}

/-- Two clips that agree about a place leave the same marks of a glyph there. -/
lemma marksAt_rasterDrawGlyph_congr {x : ℤ} {glyph : Glyph} {color : Pixel}
    (hx : px < w) (hy : py < h) (hc : c.Contains px py ↔ c'.Contains px py) :
    marksAt (rasterDrawGlyph w h x y glyph color (some c)) px py
      = marksAt (rasterDrawGlyph w h x y glyph color (some c')) px py := by
  by_cases hin : c.Contains px py
  · rw [marksAt_rasterDrawGlyph hx hy hin, marksAt_rasterDrawGlyph hx hy (hc.mp hin)]
  · rw [marksAt_eq_nil (fun m => inside_of_mem_rasterDrawGlyph) hin,
      marksAt_eq_nil (fun m => inside_of_mem_rasterDrawGlyph) (hc.not.mp hin)]

lemma marksAt_flatMap {ι : Type} (is : List ι) (f : ι → List (Mark Pixel)) :
    marksAt (is.flatMap f) px py = is.flatMap fun i => marksAt (f i) px py :=
  filter_flatMap

/-! ## Rectangles -/

/-- A loop over what is left of a rectangle does not begin before the screen. -/
def Exact (rect c : Rect) : Prop := 0 ≤ max rect.x c.x ∧ 0 ≤ max rect.y c.y

variable {rect : Rect}

lemma marksAt_scanClipped {f : ℕ → ℕ → Option (Pixel → Pixel)}
    (hexact : Exact rect c) (hx : px < w) (hy : py < h) :
    marksAt (scanClipped w h rect (some c) f) px py
      = if rect.Contains px py ∧ c.Contains px py then ((f px py).map (Mark.mk px py)).toList
        else [] := by
  have hboth := inClip_intersectRect (a := rect) (b := c) (x := px) (y := py)
  unfold scanClipped
  by_cases hempty : rect.width = 0 ∨ rect.height = 0 ∨ w = 0
  · rw [if_pos hempty, if_neg]
    · rfl
    · simp only [Rect.Contains]
      omega
  rw [if_neg hempty]
  cases hinter : intersectRect rect c with
  | none =>
    rw [hinter] at hboth
    rw [if_neg (hboth.not.mp (by simp [InClip]))]
    simp only [applyClip, hinter]
    rfl
  | some r =>
    have hextent := (extent_intersectRect hinter).1
    simp only [Rect.extent, Extent.inter, Extent.mk.injEq] at hextent
    obtain ⟨hleft, -, htop, -⟩ := hextent
    rw [hinter, inClip_some] at hboth
    simp only [applyClip, hinter]
    rw [marksAt_scan]
    refine ite_cond_congr (propext (Iff.trans ?_ hboth))
    have hrx : 0 ≤ r.x := hleft ▸ hexact.1
    have hry : 0 ≤ r.y := htop ▸ hexact.2
    simp only [Rect.Contains]
    omega

lemma marksAt_scanClipped_congr {f : ℕ → ℕ → Option (Pixel → Pixel)}
    (hexact : Exact rect c) (hexact' : Exact rect c') (hx : px < w) (hy : py < h)
    (hc : c.Contains px py ↔ c'.Contains px py) :
    marksAt (scanClipped w h rect (some c) f) px py
      = marksAt (scanClipped w h rect (some c') f) px py := by
  rw [marksAt_scanClipped hexact hx hy, marksAt_scanClipped hexact' hx hy]
  simp only [hc]

/-! ## The cursor and lines -/

/-- The part of a sprite along one axis that is on the screen and inside a clip. -/
lemma mem_cursor_range {s c : ℤ} {n k m p : ℕ} (hp : p < n) :
    (max (max 0 (min s n)) c).toNat ≤ p ∧ p < (min (max 0 (min (s + k) n)) (c + m)).toNat
      ↔ (s ≤ p ∧ p < s + k) ∧ c ≤ p ∧ p < c + m := by
  omega

lemma marksAt_rasterDrawCursor {origin hotspot : ℤ × ℤ} {sprite : Bitmap}
    (hx : px < w) (hy : py < h) :
    marksAt (rasterDrawCursor w h origin sprite hotspot (some c)) px py
      = if (spriteRect origin sprite hotspot).Contains px py ∧ c.Contains px py then
          ((sprite.pixels[(py - (origin.2 - hotspot.2)).toNat * sprite.width
            + (px - (origin.1 - hotspot.1)).toNat]?.bind cursorPixel).map (Mark.mk px py)).toList
        else [] := by
  unfold rasterDrawCursor
  by_cases hempty : w = 0 ∨ sprite.width = 0 ∨ sprite.height = 0
  · rw [if_pos hempty, if_neg]
    · rfl
    · simp only [Rect.Contains, spriteRect]
      omega
  rw [if_neg hempty]
  have hrangeX := mem_cursor_range (s := origin.1 - hotspot.1) (c := c.x) (k := sprite.width)
    (m := c.width) hx
  have hrangeY := mem_cursor_range (s := origin.2 - hotspot.2) (c := c.y) (k := sprite.height)
    (m := c.height) hy
  simp only [map_some, getD_some, clampI32_eq]
  -- From here on the ends of the loops are only compared with the point.
  generalize max (max 0 (min (origin.1 - hotspot.1) (w : ℤ))) c.x = startX at *
  generalize max (max 0 (min (origin.2 - hotspot.2) (h : ℤ))) c.y = startY at *
  generalize min (max 0 (min (origin.1 - hotspot.1 + sprite.width) (w : ℤ))) (c.x + c.width)
    = endX at *
  generalize min (max 0 (min (origin.2 - hotspot.2 + sprite.height) (h : ℤ))) (c.y + c.height)
    = endY at *
  have hregion : (spriteRect origin sprite hotspot).Contains px py ∧ c.Contains px py
      ↔ (startX.toNat ≤ px ∧ px < endX.toNat) ∧ startY.toNat ≤ py ∧ py < endY.toNat := by
    rw [hrangeX, hrangeY]
    exact and_and_and_comm
  split
  case isTrue hnone =>
    rw [if_neg]
    · rfl
    · rw [hregion]
      omega
  case isFalse hsome =>
    rw [marksAt_scan]
    exact ite_cond_congr (propext hregion.symm)

lemma marksAt_rasterDrawLine_congr {start end_ : ℤ × ℤ} {color : Rgba}
    (hc : c.Contains px py ↔ c'.Contains px py) :
    marksAt (rasterDrawLine w h start end_ color (some c)) px py
      = marksAt (rasterDrawLine w h start end_ color (some c')) px py := by
  unfold rasterDrawLine marksAt
  split
  · rfl
  · rw [filter_filterMap, filter_filterMap]
    refine filterMap_congr fun p _ => ?_
    obtain ⟨x, y⟩ := p
    simp only [all_some, decide_eq_true_eq]
    by_cases hplace : (0 ≤ x ∧ 0 ≤ y) ∧ x.toNat = px ∧ y.toNat = py
    · grind [Rect.Contains]
    · grind

/-! ## Items -/

variable {item : SceneItem}

variable (fm : FontManager)

/-- Nothing is drawn outside the screen, with or without a clip. -/
lemma mem_marks_screen {clip : Option Rect} {m : Mark Pixel} (hm : m ∈ item.marks fm w h clip) :
    m.x < w ∧ m.y < h := by
  rcases mem_marks_cases fm hm with ⟨_, _, hm⟩ | ⟨_, _, _, _, hm⟩ | ⟨_, _, _, _, _, _, -, hm⟩
    | ⟨_, _, _, hm⟩ | ⟨_, _, _, hm⟩
  · exact mem_scanClipped_screen hm
  · exact (mem_rasterDrawGlyph hm).1
  · exact (mem_rasterDrawGlyph hm).1
  · exact (mem_rasterDrawCursor hm).1.1
  · exact (mem_rasterDrawLine hm).1

/-- The loops of an item do not begin before the screen, if it is one with loops over a
rectangle. -/
def SceneItem.Exact (c : Rect) : SceneItem → Prop
  | fillRect rect _ | hatchRect rect _ _ | blitImage rect _ _ _ => Compositor.Exact rect c
  | _ => True

/-- A block of text is drawn in what is left of its rectangle. -/
lemma marksAt_rasterDrawTextBlock_congr {text : String} {color : Rgba} {scrollOffset : ℤ}
    {isMono : Bool} (hx : px < w) (hy : py < h) (hc : c.Contains px py ↔ c'.Contains px py) :
    marksAt (fm.rasterDrawTextBlock w h rect text color scrollOffset isMono (some c)) px py
      = marksAt (fm.rasterDrawTextBlock w h rect text color scrollOffset isMono (some c')) px
        py := by
  have hboth : InClip (intersectRect rect c) px py ↔ InClip (intersectRect rect c') px py := by
    rw [inClip_intersectRect, inClip_intersectRect, hc]
  have hnone : ∀ {bounds : Rect} (places : List PlacedGlyph), ¬ bounds.Contains px py →
      marksAt (places.flatMap fun placed => rasterDrawGlyph w h placed.x placed.y placed.glyph
        color.toU32 (some bounds)) px py = [] := by
    intro bounds places hbounds
    rw [marksAt_flatMap, flatMap_eq_nil_iff]
    exact fun placed _ => marksAt_eq_nil (fun m => inside_of_mem_rasterDrawGlyph) hbounds
  unfold FontManager.rasterDrawTextBlock
  split
  · rfl
  simp only [applyClip]
  cases hbounds : intersectRect rect c with
  | none =>
    rw [hbounds] at hboth
    cases hbounds' : intersectRect rect c' with
    | none => rfl
    | some bounds' =>
      rw [hbounds', inClip_some] at hboth
      exact (hnone _ (hboth.not.mp (by simp [InClip]))).symm
  | some bounds =>
    rw [hbounds, inClip_some] at hboth
    cases hbounds' : intersectRect rect c' with
    | none =>
      rw [hbounds'] at hboth
      exact hnone _ (hboth.not.mpr (by simp [InClip]))
    | some bounds' =>
      rw [hbounds', inClip_some] at hboth
      simp only [marksAt_flatMap]
      exact flatMap_congr fun placed _ => marksAt_rasterDrawGlyph_congr hx hy hboth

/-- Two clips that agree about a place leave the same marks of an item there. -/
lemma marksAt_marks_congr (hexact : item.Exact c) (hexact' : item.Exact c') (hx : px < w)
    (hy : py < h) (hc : c.Contains px py ↔ c'.Contains px py) :
    marksAt (item.marks fm w h (some c)) px py = marksAt (item.marks fm w h (some c')) px py := by
  cases item with
  | fillRect | blitImage => exact marksAt_scanClipped_congr hexact hexact' hx hy hc
  | hatchRect rect color spacing =>
    simp only [SceneItem.marks, rasterHatchRect]
    split
    · rfl
    · exact marksAt_scanClipped_congr hexact hexact' hx hy hc
  | drawText origin text color maxWidth isMono =>
    simp only [SceneItem.marks, FontManager.rasterDrawText]
    split
    · rfl
    · simp only [marksAt_flatMap]
      exact flatMap_congr fun placed _ => marksAt_rasterDrawGlyph_congr hx hy hc
  | drawTextBlock => exact marksAt_rasterDrawTextBlock_congr fm hx hy hc
  | drawCursor =>
    simp only [SceneItem.marks]
    rw [marksAt_rasterDrawCursor hx hy, marksAt_rasterDrawCursor hx hy]
    simp only [hc]
  | drawLine => exact marksAt_rasterDrawLine_congr hc
  | clear | clipPush | clipPop => rfl

lemma marksAt_marks_eq_nil (hexact : item.Exact c) (hx : px < w) (hy : py < h)
    (hc : ¬ c.Contains px py) : marksAt (item.marks fm w h (some c)) px py = [] := by
  -- The clip agrees about the place with one that contains nothing.
  have hempty : ¬ (⟨0, 0, 0, 0⟩ : Rect).Contains px py := by
    simp only [Rect.Contains]
    omega
  have hexact' : item.Exact ⟨0, 0, 0, 0⟩ := by
    cases item <;> simp [SceneItem.Exact, Compositor.Exact]
  rw [marksAt_marks_congr fm hexact hexact' hx hy (iff_of_false hc hempty)]
  exact marksAt_eq_nil (fun m => inside_of_mem_marks fm (.inl rfl)) hempty

/-! ## Scenes -/

/-- An item is drawn alike in the rectangle to be repainted: its loops do not begin before the
screen, and if the clips pushed leave nothing of the rectangle or of the screen, so that it is drawn
without a clip, it stays away from the rectangle. -/
structure Repaintable (fm : FontManager) (w h : ℕ) (dirty : Rect) (pushed : List Rect)
    (item : SceneItem) : Prop where
  exact : ∀ c, clipOf dirty pushed = some c → item.Exact c
  away : clipOf dirty pushed = none ∨ clipOf ⟨0, 0, w, h⟩ pushed = none →
    ∀ m ∈ item.marks fm w h none, ¬ dirty.Contains m.x m.y

variable {pushed : List Rect}

lemma clipOf_screen_nonneg (hc : clipOf ⟨0, 0, w, h⟩ pushed = some c) : 0 ≤ c.x ∧ 0 ≤ c.y := by
  have hoverlap : 0 ≤ (overlap ⟨0, 0, w, h⟩ pushed).left
      ∧ 0 ≤ (overlap ⟨0, 0, w, h⟩ pushed).top := by
    clear hc
    induction pushed with
    | nil => exact ⟨le_rfl, le_rfl⟩
    | cons rect pushed ih => exact ⟨le_max_of_le_left ih.1, le_max_of_le_left ih.2⟩
  rcases clipOf_spec ⟨0, 0, w, h⟩ pushed with ⟨hnone, -⟩ | ⟨c', hc', hextent, -⟩
  · rw [hnone] at hc
    cases hc
  · obtain rfl : c' = c := Option.some.inj (hc'.symm.trans hc)
    rwa [← hextent] at hoverlap

/-- Under a clip that begins on the screen no loop begins before it. -/
lemma SceneItem.exact_of_nonneg (hc : 0 ≤ c.x ∧ 0 ≤ c.y) (item : SceneItem) :
    item.Exact c := by
  have hrect : ∀ rect, Compositor.Exact rect c := fun rect =>
    ⟨le_max_of_le_right hc.1, le_max_of_le_right hc.2⟩
  cases item <;> simp [SceneItem.Exact, hrect]

lemma exact_of_clipOf_screen (item : SceneItem)
    (hc : clipOf ⟨0, 0, w, h⟩ pushed = some c) : item.Exact c :=
  item.exact_of_nonneg (clipOf_screen_nonneg hc)

variable {dirty : Rect}

/-- In the rectangle to be repainted, the clips agree. -/
lemma inClip_dirty_iff {pushed : List Rect} (hx : px < w) (hy : py < h)
    (hdirty : dirty.Contains px py) :
    InClip (clipOf dirty pushed) px py ↔ InClip (clipOf ⟨0, 0, w, h⟩ pushed) px py := by
  have hscreen : (⟨0, 0, w, h⟩ : Rect).Contains px py := by
    simp only [Rect.Contains]
    omega
  rw [inClip_clipOf, inClip_clipOf, forall_mem_cons, forall_mem_cons]
  simp only [hdirty, hscreen]

variable {fm : FontManager}

/-- A repainted item has the marks in the rectangle that it has when all is painted. -/
lemma Repaintable.marksAt_eq (hitem : Repaintable fm w h dirty pushed item) (hx : px < w)
    (hy : py < h) (hdirty : dirty.Contains px py) :
    marksAt (item.marks fm w h (clipOf dirty pushed)) px py
      = marksAt (item.marks fm w h (clipOf ⟨0, 0, w, h⟩ pushed)) px py := by
  have hclips := @inClip_dirty_iff w h px py dirty pushed hx hy hdirty
  have haway : clipOf dirty pushed = none ∨ clipOf ⟨0, 0, w, h⟩ pushed = none →
      marksAt (item.marks fm w h none) px py = [] := by
    intro hnone
    refine filter_eq_nil_iff.mpr fun m hm hplace => hitem.away hnone m hm ?_
    obtain ⟨rfl, rfl⟩ := of_decide_eq_true hplace
    exact hdirty
  cases hc : clipOf dirty pushed with
  | none =>
    rw [haway (.inl hc)]
    cases hc' : clipOf ⟨0, 0, w, h⟩ pushed with
    | none => exact (haway (.inr hc')).symm
    | some c' =>
      rw [hc, hc', inClip_some] at hclips
      exact (marksAt_marks_eq_nil fm (exact_of_clipOf_screen item hc') hx hy
        (hclips.not.mp (by simp [InClip]))).symm
  | some c =>
    cases hc' : clipOf ⟨0, 0, w, h⟩ pushed with
    | none =>
      rw [hc, hc', inClip_some] at hclips
      rw [haway (.inr hc')]
      exact marksAt_marks_eq_nil fm (hitem.exact c hc) hx hy
        (hclips.not.mpr (by simp [InClip]))
    | some c' =>
      rw [hc, hc', inClip_some, inClip_some] at hclips
      exact marksAt_marks_congr fm (hitem.exact c hc) (exact_of_clipOf_screen item hc') hx hy hclips

/-- Nothing is cleared, and every item is drawn alike. -/
structure RepaintableScene (fm : FontManager) (w h : ℕ) (dirty : Rect) (items : List SceneItem) :
    Prop where
  noClear : ∀ color, .clear color ∉ items
  items : ∀ before item after, items = before ++ item :: after → item.draws = true →
    Repaintable fm w h dirty (pushedAfter before) item

variable {items : List SceneItem}

lemma RepaintableScene.of_concat (hscene : RepaintableScene fm w h dirty (items ++ [item])) :
    RepaintableScene fm w h dirty items where
  noClear color hmem := hscene.noClear color (mem_append_left _ hmem)
  items before drawn after heq := hscene.items before drawn (after ++ [item]) (by
    rw [heq, append_assoc]
    rfl)

/-- Without clips, it is enough that no loop begins before the screen. -/
lemma RepaintableScene.of_no_clips
    (hitems : ∀ item ∈ items, item.draws = true ∧ item.Exact dirty) :
    RepaintableScene fm w h dirty items where
  noClear color hmem := absurd (hitems _ hmem).1 (by simp [SceneItem.draws])
  items before item after heq _ := by
    have hpushed : pushedAfter before = [] := by
      have hbefore : ∀ item ∈ before, item.draws = true := fun item hmem =>
        (hitems item (heq ▸ mem_append_left _ hmem)).1
      clear heq
      induction before using List.reverseRecOn with
      | nil => rfl
      | append_singleton before last ih =>
        have hlast := hbefore last (by simp)
        rw [pushedAfter, foldl_concat, ← pushedAfter,
          ih fun item hmem => hbefore item (mem_append_left _ hmem)]
        cases last with
        | clear | clipPush | clipPop => cases hlast
        | fillRect | hatchRect | blitImage | drawText | drawTextBlock | drawCursor | drawLine => rfl
    have hitem := hitems item (heq ▸ by simp)
    refine ⟨fun c hc => ?_, fun hnone => ?_⟩
    · rw [hpushed] at hc
      exact Option.some.inj hc ▸ hitem.2
    · rw [hpushed] at hnone
      rcases hnone with hnone | hnone <;> cases hnone

section

variable (fm : FontManager) (r : BitmapRenderer) (items : List SceneItem) (root : Rect)
  (mode : ClearMode)

lemma renderScene_concat_clip (hdraws : item.draws = false)
    (hclear : ∀ color, item ≠ .clear color) :
    renderScene fm r (items ++ [item]) root mode = renderScene fm r items root mode := by
  unfold renderScene
  rw [run_concat]
  cases item with
  | clear color => exact absurd rfl (hclear color)
  | clipPush => rfl
  | clipPop =>
    simp only [SceneState.step]
    split <;> rfl
  | fillRect | hatchRect | blitImage | drawText | drawTextBlock | drawCursor | drawLine =>
    cases hdraws

lemma renderScene_size : (renderScene fm r items root mode).width = r.width
      ∧ (renderScene fm r items root mode).height = r.height := by
  obtain ⟨hw, hh, -⟩ := run_step fm mode r root items
  exact ⟨hw, hh⟩

end

/-- A rectangle is cleared where it is on the screen. -/
lemma pixel_clear_dirty (r : BitmapRenderer) (dirty : Rect) (hx : px < r.width)
    (hy : py < r.height) (hdirty : dirty.Contains px py) :
    (r.draw (rasterFillRect r.width r.height dirty clearColor (some dirty))).pixel px py
      = some clearColor.toU32 := by
  obtain ⟨a, ha⟩ := isSome_iff_exists.mp ((r.isSome_pixel_iff px py).mpr ⟨hx, hy⟩)
  have hsize : dirty.width ≠ 0 ∧ dirty.height ≠ 0 := by
    simp only [Rect.Contains] at hdirty
    omega
  have hempty : ¬ (dirty.width = 0 ∨ dirty.height = 0 ∨ r.width = 0) := by omega
  rw [rasterFillRect, scanClipped, if_neg hempty]
  simp only [applyClip, intersectRect_self hsize]
  rw [r.pixel_draw fun m hm => by have := (mem_scan.mp hm).1; omega, ha, map_some,
    Canvas.retouch_eq_of_const (k := clearColor.toU32)]
  · intro m hm
    obtain ⟨-, -, hchange⟩ := mem_scan.mp hm
    rw [← Option.some.inj hchange]
    rfl
  · refine ⟨⟨px, py, paintOver clearColor⟩, mem_scan.mpr ⟨?_, ?_, rfl⟩, rfl, rfl⟩
    all_goals
      simp only [Rect.Contains] at hdirty ⊢
      omega

/-- Inside the rectangle, a partial repaint leaves what painting all would. -/
lemma pixel_renderPartial (fm : FontManager) (r : BitmapRenderer)
    (hscene : RepaintableScene fm r.width r.height dirty items)
    (hx : px < r.width) (hy : py < r.height) (hdirty : dirty.Contains px py) :
    (renderPartial fm r (.clear clearColor :: items) dirty).pixel px py
      = (render fm r (.clear clearColor :: items)).pixel px py := by
  unfold renderPartial render
  induction items using List.reverseRecOn with
  | nil =>
    refine (pixel_clear_dirty r dirty hx hy hdirty).trans ?_
    obtain ⟨a, ha⟩ := isSome_iff_exists.mp ((r.isSome_pixel_iff px py).mpr ⟨hx, hy⟩)
    change _ = (Canvas.fill (Canvas.fill r _) _).pixel px py
    rw [Canvas.pixel_fill, Canvas.pixel_fill, ha]
    rfl
  | append_singleton items item ih =>
    have ih := ih hscene.of_concat
    rw [← cons_append]
    cases hdraws : item.draws with
    | true =>
      have hitem := hscene.items items item [] rfl hdraws
      rw [renderScene_concat fm _ _ _ _ hdraws, renderScene_concat fm _ _ _ _ hdraws]
      refine Canvas.pixel_draw_congr (fun m hm => ?_) (fun m hm => ?_) ih
        (hitem.marksAt_eq hx hy hdirty)
      · rw [(renderScene_size fm r _ _ _).1]
        exact (mem_marks_screen fm hm).1
      · rw [(renderScene_size fm _ _ _ _).1]
        exact (mem_marks_screen fm hm).1
    | false =>
      have hclear : ∀ color, item ≠ .clear color := by
        rintro color rfl
        exact hscene.noClear color (mem_append_right _ mem_cons_self)
      rw [renderScene_concat_clip fm _ _ _ _ hdraws hclear,
        renderScene_concat_clip fm _ _ _ _ hdraws hclear]
      exact ih

/-- Away from its rectangle the cursor leaves no trace. -/
lemma pixel_render_cursor (fm : FontManager) (r : BitmapRenderer) (items : List SceneItem)
    {origin hotspot : ℤ × ℤ} {sprite : Bitmap}
    (hout : ¬ (spriteRect origin sprite hotspot).Contains px py) :
    (render fm r (items ++ [.drawCursor origin sprite hotspot])).pixel px py
      = (render fm r items).pixel px py := by
  rw [render, renderScene_concat fm _ _ _ _ rfl, ← render]
  refine Canvas.pixel_draw_of_forall_ne _ (fun m hm => ?_) ?_
  · rw [render, (renderScene_size fm _ _ _ _).1]
    exact (mem_rasterDrawCursor hm).1.1.1
  · rintro m hm ⟨rfl, rfl⟩
    exact hout (mem_rasterDrawCursor hm).1.2

/-- All that is left of what was there before is the size. -/
lemma render_congr (fm : FontManager) {r r' : BitmapRenderer} (hw : r.width = r'.width)
    (hh : r.height = r'.height) (items : List SceneItem) :
    render fm r items = render fm r' items := by
  have hfill : r.fill clearColor.toU32 = r'.fill clearColor.toU32 := by
    simp only [Canvas.fill, r.size, r'.size, hw, hh]
  rw [render, render, hfill, hw, hh]

end ThingOS.Compositor
