import ThingOS.Compositor.Raster

/-!
# Drawing stays inside the clip

An item should change only pixels that are on the screen and in the root clip and all rectangles
pushed. But a clip that became empty is kept as no clip at all, and then the rasterisers draw
anywhere on the screen; and the loops over a rectangle that begins left of the screen, or above it,
count its size from the edge. The items stay inside exactly where neither can happen.
-/

namespace ThingOS.Compositor

open Option SceneState

namespace Rect

def Contains (r : Rect) (x y : ℕ) : Prop :=
  (r.x ≤ x ∧ (x : ℤ) < r.x + r.width) ∧ r.y ≤ y ∧ (y : ℤ) < r.y + r.height
deriving Decidable

end Rect

/-- The place is inside what is left of the clips. -/
def InClip (clip : Option Rect) (x y : ℕ) : Prop := ∃ c, clip = some c ∧ c.Contains x y

variable {x y : ℕ}

lemma inClip_some {c : Rect} : InClip (some c) x y ↔ c.Contains x y := by
  simp [InClip]

/-- The sides of a rectangle. -/
structure Extent where
  left : ℤ
  right : ℤ
  top : ℤ
  bottom : ℤ

namespace Extent

def inter (a b : Extent) : Extent :=
  ⟨max a.left b.left, min a.right b.right, max a.top b.top, min a.bottom b.bottom⟩

def Nonempty (e : Extent) : Prop := e.left < e.right ∧ e.top < e.bottom

lemma not_nonempty_inter {a : Extent} (h : ¬ a.Nonempty) (b : Extent) :
    ¬ (a.inter b).Nonempty := by
  simp only [Nonempty, inter] at *
  omega

end Extent

def Rect.extent (r : Rect) : Extent := ⟨r.x, r.x + r.width, r.y, r.y + r.height⟩

variable {a b : Rect}

lemma intersectRect_eq_none (h : intersectRect a b = none) :
    ¬ (a.extent.inter b.extent).Nonempty := by
  unfold intersectRect at h
  simp only at h
  split at h
  · cases h
  case isFalse hempty => exact hempty

lemma extent_intersectRect {c : Rect} (h : intersectRect a b = some c) :
    c.extent = a.extent.inter b.extent ∧ (a.extent.inter b.extent).Nonempty := by
  unfold intersectRect at h
  simp only at h
  split at h
  case isTrue hne =>
    obtain rfl := Option.some.inj h
    refine ⟨?_, hne⟩
    simp only [Rect.extent, Extent.inter, Extent.mk.injEq, true_and]
    omega
  case isFalse => cases h

/-- An intersection is inside the second rectangle. -/
lemma intersectRect_sub_right {c : Rect} (h : intersectRect a b = some c) :
    (b.x ≤ c.x ∧ c.x + c.width ≤ b.x + b.width)
      ∧ b.y ≤ c.y ∧ c.y + c.height ≤ b.y + b.height := by
  have hextent := (extent_intersectRect h).1
  simp only [Rect.extent, Extent.inter, Extent.mk.injEq] at hextent
  obtain ⟨hx, hx2, hy, hy2⟩ := hextent
  rw [hx2, hy2, hx, hy]
  exact ⟨⟨le_max_right _ _, min_le_right _ _⟩, le_max_right _ _, min_le_right _ _⟩

lemma inClip_intersectRect :
    InClip (intersectRect a b) x y ↔ a.Contains x y ∧ b.Contains x y := by
  unfold intersectRect
  simp only
  split
  case isTrue h =>
    rw [inClip_some]
    simp only [Rect.Contains]
    omega
  case isFalse h =>
    simp only [InClip, reduceCtorEq, false_and, exists_false, false_iff, Rect.Contains]
    omega

/-! ## The clip in force -/

/-- What `render_scene` makes of the rectangles pushed, the last one first. -/
def clipOf (root : Rect) : List Rect → Option Rect
  | [] => some root
  | rect :: pushed => (clipOf root pushed).bind fun base => intersectRect base rect

lemma inClip_clipOf {root : Rect} {pushed : List Rect} :
    InClip (clipOf root pushed) x y ↔ ∀ r ∈ root :: pushed, r.Contains x y := by
  induction pushed with
  | nil => simp [clipOf, inClip_some]
  | cons rect pushed ih =>
    rw [clipOf]
    cases hclip : clipOf root pushed with
    | none =>
      rw [hclip] at ih
      simp only [InClip, reduceCtorEq, false_and, exists_false, false_iff] at ih
      refine iff_of_false (by simp [InClip]) fun h => ih fun r hr => h r ?_
      grind
    | some base =>
      rw [hclip, inClip_some] at ih
      rw [bind_some, inClip_intersectRect, ih]
      simp only [List.forall_mem_cons]
      tauto

/-- What the root clip and the rectangles pushed have in common. -/
def overlap (root : Rect) (pushed : List Rect) : Extent :=
  pushed.foldr (fun rect e => e.inter rect.extent) root.extent

/-- The clip in force is the overlap; one that is empty is none at all. -/
lemma clipOf_spec (root : Rect) (pushed : List Rect) :
    (clipOf root pushed = none ∧ pushed ≠ [] ∧ ¬ (overlap root pushed).Nonempty)
      ∨ ∃ c, clipOf root pushed = some c ∧ c.extent = overlap root pushed
        ∧ (pushed = [] ∨ (overlap root pushed).Nonempty) := by
  induction pushed with
  | nil => exact .inr ⟨root, rfl, rfl, .inl rfl⟩
  | cons rect pushed ih =>
    rcases ih with ⟨hnone, -, hempty⟩ | ⟨base, hbase, hextent, -⟩
    · refine .inl ⟨?_, by simp, Extent.not_nonempty_inter hempty rect.extent⟩
      rw [clipOf, hnone, bind_none]
    · have hclip : clipOf root (rect :: pushed) = intersectRect base rect := by
        rw [clipOf, hbase, bind_some]
      have hoverlap : overlap root (rect :: pushed) = base.extent.inter rect.extent := by
        rw [hextent]
        rfl
      rw [hclip, hoverlap]
      cases hinter : intersectRect base rect with
      | none => exact .inl ⟨rfl, by simp, intersectRect_eq_none hinter⟩
      | some c =>
        obtain ⟨hc, hne⟩ := extent_intersectRect hinter
        exact .inr ⟨c, rfl, hc, .inr hne⟩

def pushedAfter : List SceneItem → List Rect :=
  List.foldl (fun pushed item =>
    match item with
    | .clipPush rect => rect :: pushed
    | .clipPop => pushed.tail
    | _ => pushed) []

def stackOf (root : Rect) : List Rect → List (Option Rect)
  | [] => [some root]
  | rect :: pushed => clipOf root (rect :: pushed) :: stackOf root pushed

lemma head_stackOf (root : Rect) (pushed : List Rect) :
    (stackOf root pushed).head?.join = clipOf root pushed := by
  cases pushed <;> rfl

variable (fm : FontManager) (r : BitmapRenderer) (mode : RenderMode)

/-- The renderer keeps its size, and the stack is that of the rectangles pushed. -/
lemma run_step (mode : ClearMode) (r : BitmapRenderer) (root : Rect) (items : List SceneItem) :
    (run (step fm mode) ⟨r, [some root]⟩ items).renderer.width = r.width
      ∧ (run (step fm mode) ⟨r, [some root]⟩ items).renderer.height = r.height
      ∧ (run (step fm mode) ⟨r, [some root]⟩ items).clipStack
        = stackOf root (pushedAfter items) := by
  induction items using List.reverseRecOn with
  | nil => exact ⟨rfl, rfl, rfl⟩
  | append_singleton items item ih =>
    rw [run_concat, pushedAfter, List.foldl_concat, ← pushedAfter]
    generalize run (step fm mode) ⟨r, [some root]⟩ items = st at ih
    generalize pushedAfter items = pushed at ih
    obtain ⟨hw, hh, hstack⟩ := ih
    cases item with
    | clear color =>
      cases mode with
      | full => exact ⟨hw, hh, hstack⟩
      | clip rect =>
        exact ⟨(Canvas.draw_width ..).trans hw, (Canvas.draw_height ..).trans hh, hstack⟩
    | clipPush rect =>
      refine ⟨hw, hh, ?_⟩
      simp only [step, clip, hstack, head_stackOf]
      rfl
    | clipPop =>
      simp only [step, hstack]
      cases pushed with
      | nil => exact ⟨hw, hh, hstack⟩
      | cons rect pushed =>
        have : 1 < (stackOf root (rect :: pushed)).length := by
          cases pushed <;> simp [stackOf]
        rw [if_pos this]
        exact ⟨hw, hh, rfl⟩
    | fillRect | hatchRect | blitImage | drawText | drawTextBlock | drawCursor | drawLine =>
      exact ⟨(Canvas.draw_width ..).trans hw, (Canvas.draw_height ..).trans hh, hstack⟩

/-! ## Where items draw -/

/-- Loops over a rectangle with these sides stay inside: it is off the screen to the right or below,
or does not begin before the screen in a direction in which it ends before the screen does. -/
def Extent.Confined (w h : ℕ) (e : Extent) : Prop :=
  w ≤ e.left ∨ h ≤ e.top ∨ (0 ≤ e.left ∨ w ≤ e.right) ∧ (0 ≤ e.top ∨ h ≤ e.bottom)

/-- Loops over a rectangle stay inside a clip. -/
def Confines (w h : ℕ) (c : Rect) : Prop :=
  c.width = 0 ∨ c.height = 0 ∨ c.extent.Confined w h

variable {w h : ℕ} {c : Rect} {m : Mark Pixel}

/-- The place is on the screen and inside the clip. -/
def Inside (w h : ℕ) (c : Rect) (m : Mark Pixel) : Prop :=
  (m.x < w ∧ m.y < h) ∧ c.Contains m.x m.y

/-- Along one direction, the loop over what is left of a rectangle stays inside the clip. -/
lemma confined_axis {n len clen i : ℕ} {pos cpos : ℤ} (hpos : cpos ≤ pos)
    (hend : pos + len ≤ cpos + clen) (hc : 0 ≤ cpos ∨ n ≤ cpos + clen)
    (hi : min (max pos 0).toNat n ≤ i ∧ i < min (min (max pos 0).toNat n + len) n) :
    cpos ≤ i ∧ (i : ℤ) < cpos + clen := by
  omega

variable {rect : Rect} {clip : Option Rect}

lemma mem_scanClipped_screen
    {f : ℕ → ℕ → Option (Pixel → Pixel)} (hm : m ∈ scanClipped w h rect clip f) :
    m.x < w ∧ m.y < h := by
  unfold scanClipped at hm
  split at hm
  · cases hm
  split at hm
  · cases hm
  · obtain ⟨hx, hy, -⟩ := mem_scan.mp hm
    omega

lemma inside_of_mem_scanClipped (hc : Confines w h c)
    {f : ℕ → ℕ → Option (Pixel → Pixel)} (hm : m ∈ scanClipped w h rect (some c) f) :
    Inside w h c m := by
  refine ⟨mem_scanClipped_screen hm, ?_⟩
  unfold scanClipped at hm
  split at hm
  · cases hm
  split at hm
  · cases hm
  case h_2 clipped heq =>
    obtain ⟨⟨hx, hx2⟩, hy, hy2⟩ := intersectRect_sub_right heq
    obtain ⟨hmx, hmy, -⟩ := mem_scan.mp hm
    simp only [Confines, Extent.Confined, Rect.extent] at hc
    rcases hc with hc | hc | hc | hc | ⟨hcx, hcy⟩
    · omega
    · omega
    · omega
    · omega
    · exact ⟨confined_axis hx hx2 hcx hmx, confined_axis hy hy2 hcy hmy⟩

/-- A glyph is drawn on the screen and inside the clip, if there is one. -/
lemma mem_rasterDrawGlyph {x y : ℤ} {glyph : Glyph} {color : Pixel}
    (hm : m ∈ rasterDrawGlyph w h x y glyph color clip) :
    (m.x < w ∧ m.y < h) ∧ ∀ c, clip = some c → c.Contains m.x m.y := by
  unfold rasterDrawGlyph at hm
  split at hm
  · cases hm
  obtain ⟨row, hrow, hm⟩ := List.mem_flatMap.mp hm
  obtain ⟨col, -, hm⟩ := List.mem_filterMap.mp hm
  have hvisit := (mem_of_mem_visited hrow).2
  split at hm
  · cases hm
  case isFalse hhidden =>
    obtain ⟨change, -, rfl⟩ := map_eq_some_iff.mp hm
    simp only [glyphColumnHidden, Bool.or_eq_true, decide_eq_true_eq, not_or] at hhidden
    refine ⟨?_, ?_⟩
    · simp only [glyphRow] at hvisit
      split_ifs at hvisit
      dsimp only
      omega
    · rintro c rfl
      simp only [decide_eq_true_eq] at hhidden
      simp only [glyphRow] at hvisit
      simp only [Rect.Contains]
      split_ifs at hvisit
      omega

lemma inside_of_mem_rasterDrawGlyph {x y : ℤ} {glyph : Glyph} {color : Pixel}
    (hm : m ∈ rasterDrawGlyph w h x y glyph color (some c)) : Inside w h c m :=
  ⟨(mem_rasterDrawGlyph hm).1, (mem_rasterDrawGlyph hm).2 c rfl⟩

def spriteRect (origin : ℤ × ℤ) (sprite : Bitmap) (hotspot : ℤ × ℤ) : Rect :=
  ⟨origin.1 - hotspot.1, origin.2 - hotspot.2, sprite.width, sprite.height⟩

lemma clampI32_eq (v : ℤ) (n : ℕ) : clampI32 v 0 n = max 0 (min v n) := by
  unfold clampI32
  split_ifs <;> omega

/-- Along one axis, a sprite is drawn inside its own rectangle. -/
lemma cursor_axis {s lo hi : ℤ} {n k p : ℕ} (hlo : max 0 (min s n) ≤ lo)
    (hhi : hi ≤ max 0 (min (s + k) n)) (hp : lo.toNat ≤ p ∧ p < hi.toNat) :
    p < n ∧ s ≤ p ∧ (p : ℤ) < s + k := by
  omega

lemma clip_axis {lo hi c : ℤ} {k p : ℕ} (hlo : c ≤ lo) (hhi : hi ≤ c + k)
    (hp : lo.toNat ≤ p ∧ p < hi.toNat) : c ≤ p ∧ (p : ℤ) < c + k := by
  omega

lemma mem_rasterDrawCursor {origin hotspot : ℤ × ℤ} {sprite : Bitmap}
    (hm : m ∈ rasterDrawCursor w h origin sprite hotspot clip) :
    Inside w h (spriteRect origin sprite hotspot) m
      ∧ ∀ c, clip = some c → c.Contains m.x m.y := by
  unfold rasterDrawCursor at hm
  split at hm
  · cases hm
  simp only [clampI32_eq] at hm
  split at hm
  · cases hm
  obtain ⟨hx, hy, -⟩ := mem_scan.mp hm
  cases clip with
  | none =>
    obtain ⟨hw, hsx⟩ := cursor_axis le_rfl le_rfl hx
    obtain ⟨hh, hsy⟩ := cursor_axis le_rfl le_rfl hy
    exact ⟨⟨⟨hw, hh⟩, hsx, hsy⟩, fun c hc => by cases hc⟩
  | some c =>
    obtain ⟨hw, hsx⟩ := cursor_axis (le_max_left _ _) (min_le_left _ _) hx
    obtain ⟨hh, hsy⟩ := cursor_axis (le_max_left _ _) (min_le_left _ _) hy
    refine ⟨⟨⟨hw, hh⟩, hsx, hsy⟩, ?_⟩
    rintro _ ⟨⟩
    exact ⟨clip_axis (le_max_right _ _) (min_le_right _ _) hx,
      clip_axis (le_max_right _ _) (min_le_right _ _) hy⟩

lemma mem_rasterDrawLine {start end_ : ℤ × ℤ} {color : Rgba}
    (hm : m ∈ rasterDrawLine w h start end_ color clip) :
    (m.x < w ∧ m.y < h) ∧ ∀ c, clip = some c → c.Contains m.x m.y := by
  unfold rasterDrawLine at hm
  split at hm
  · cases hm
  obtain ⟨⟨x, y⟩, -, hm⟩ := List.mem_filterMap.mp hm
  simp only at hm
  split at hm
  case isTrue hvisible =>
    obtain rfl := Option.some.inj hm
    obtain ⟨hscreen, hclip⟩ := hvisible
    refine ⟨by dsimp only; omega, ?_⟩
    rintro c rfl
    simp only [all_some, decide_eq_true_eq] at hclip
    simp only [Rect.Contains]
    omega
  case isFalse => cases hm

variable {item : SceneItem}

/-- The loops that the marks of items come from. The glyphs of a block of text are clipped to what
is left of its rectangle. -/
lemma mem_marks_cases (hm : m ∈ item.marks fm w h clip) :
    (∃ rect f, m ∈ scanClipped w h rect clip f)
      ∨ (∃ x y glyph color, m ∈ rasterDrawGlyph w h x y glyph color clip)
      ∨ (∃ rect bounds x y glyph color, applyClip rect clip = some bounds
        ∧ m ∈ rasterDrawGlyph w h x y glyph color (some bounds))
      ∨ (∃ origin sprite hotspot, m ∈ rasterDrawCursor w h origin sprite hotspot clip)
      ∨ ∃ start end_ color, m ∈ rasterDrawLine w h start end_ color clip := by
  cases item with
  | fillRect | blitImage => exact .inl ⟨_, _, hm⟩
  | hatchRect rect color spacing =>
    simp only [SceneItem.marks, rasterHatchRect] at hm
    split at hm
    · cases hm
    · exact .inl ⟨_, _, hm⟩
  | drawText origin text color maxWidth isMono =>
    simp only [SceneItem.marks, FontManager.rasterDrawText] at hm
    split at hm
    · cases hm
    · obtain ⟨placed, -, hm⟩ := List.mem_flatMap.mp hm
      exact .inr (.inl ⟨_, _, _, _, hm⟩)
  | drawTextBlock rect text color scrollOffset isMono =>
    simp only [SceneItem.marks, FontManager.rasterDrawTextBlock] at hm
    split at hm
    · cases hm
    split at hm
    · cases hm
    case h_2 bounds hbounds =>
      obtain ⟨placed, -, hm⟩ := List.mem_flatMap.mp hm
      exact .inr (.inr (.inl ⟨_, _, _, _, _, _, hbounds, hm⟩))
  | drawCursor => exact .inr (.inr (.inr (.inl ⟨_, _, _, hm⟩)))
  | drawLine => exact .inr (.inr (.inr (.inr ⟨_, _, _, hm⟩)))
  | clear | clipPush | clipPop => cases hm

lemma inside_of_mem_marks (hc : Confines w h c)
    (hm : m ∈ item.marks fm w h (some c)) : Inside w h c m := by
  rcases mem_marks_cases fm hm with ⟨_, _, hm⟩ | ⟨_, _, _, _, hm⟩
    | ⟨rect, bounds, _, _, _, _, hbounds, hm⟩ | ⟨_, _, _, hm⟩ | ⟨_, _, _, hm⟩
  · exact inside_of_mem_scanClipped hc hm
  · exact inside_of_mem_rasterDrawGlyph hm
  · obtain ⟨hscreen, hinside⟩ := inside_of_mem_rasterDrawGlyph hm
    refine ⟨hscreen, (inClip_intersectRect (a := rect) |>.mp ?_).2⟩
    exact ⟨bounds, hbounds, hinside⟩
  · obtain ⟨⟨hscreen, -⟩, hinside⟩ := mem_rasterDrawCursor hm
    exact ⟨hscreen, hinside c rfl⟩
  · exact ⟨(mem_rasterDrawLine hm).1, (mem_rasterDrawLine hm).2 c rfl⟩

/-! ## Both ways of rendering -/

inductive RenderMode where
  | full
  | dirty (rect : Rect)

namespace RenderMode

def render (fm : FontManager) (r : BitmapRenderer) (items : List SceneItem) :
    RenderMode → BitmapRenderer
  | full => Compositor.render fm r items
  | dirty rect => renderPartial fm r items rect

def rootClip (r : BitmapRenderer) : RenderMode → Rect
  | full => ⟨0, 0, r.width, r.height⟩
  | dirty rect => rect

end RenderMode

/-- The item is neither a `Clear` nor about clips. -/
def SceneItem.draws : SceneItem → Bool
  | .clear _ | .clipPush _ | .clipPop => false
  | _ => true

lemma renderScene_concat (items : List SceneItem)
    (root : Rect) (mode : ClearMode) (hdraws : item.draws = true) :
    renderScene fm r (items ++ [item]) root mode
      = (renderScene fm r items root mode).draw
        (item.marks fm r.width r.height (clipOf root (pushedAfter items))) := by
  obtain ⟨hw, hh, hstack⟩ := run_step fm mode r root items
  unfold renderScene
  rw [run_concat]
  generalize run (step fm mode) ⟨r, [some root]⟩ items = st at hw hh hstack ⊢
  have hclip : st.clip = clipOf root (pushedAfter items) := by
    rw [clip, hstack, head_stackOf]
  cases item with
  | clear | clipPush | clipPop => cases hdraws
  | fillRect | hatchRect | blitImage | drawText | drawTextBlock | drawCursor | drawLine =>
    simp only [step, hw, hh, hclip]

/-- An item draws in the clip of the rectangles pushed before it. -/
lemma RenderMode.render_concat (before : List SceneItem) (hdraws : item.draws = true) :
    mode.render fm r (before ++ [item])
      = (mode.render fm r before).draw
        (item.marks fm r.width r.height (clipOf (mode.rootClip r) (pushedAfter before))) := by
  cases mode with
  | full => exact renderScene_concat fm _ before _ .full hdraws
  | dirty rect => exact renderScene_concat fm r before rect _ hdraws

lemma RenderMode.render_size (items : List SceneItem) :
    (mode.render fm r items).width = r.width ∧ (mode.render fm r items).height = r.height := by
  cases mode with
  | full =>
    obtain ⟨hw, hh, -⟩ :=
      run_step fm .full (r.fill clearColor.toU32) ⟨0, 0, r.width, r.height⟩ items
    exact ⟨hw, hh⟩
  | dirty rect =>
    obtain ⟨hw, hh, -⟩ := run_step fm (.clip rect) r rect items
    exact ⟨hw, hh⟩

/-! ## The law -/

/-- The places that the root clip, the screen and the rectangles pushed have in common. -/
def Allowed (w h : ℕ) (root : Rect) (pushed : List Rect) (x y : ℕ) : Prop :=
  (x < w ∧ y < h) ∧ ∀ r ∈ root :: pushed, r.Contains x y

def ChangesOnly (P : ℕ → ℕ → Prop) (before after : BitmapRenderer) : Prop :=
  ∀ x y, ¬ P x y → after.pixel x y = before.pixel x y

/-- The screen is empty, or the root clip is and nothing is pushed, or the clips overlap and loops
over what they have in common stay inside it. -/
def Confining (w h : ℕ) (root : Rect) (pushed : List Rect) : Prop :=
  (w = 0 ∨ h = 0) ∨ (pushed = [] ∧ (root.width = 0 ∨ root.height = 0))
    ∨ ((overlap root pushed).Nonempty ∧ (overlap root pushed).Confined w h)

/-- A drawing whose marks are all allowed changes nothing else. -/
lemma changesOnly_draw {P : ℕ → ℕ → Prop} {marks : List (Mark Pixel)}
    (hmarks : ∀ m ∈ marks, m.x < r.width ∧ P m.x m.y) : ChangesOnly P r (r.draw marks) := by
  intro x y hP
  refine r.pixel_draw_of_forall_ne (fun m hm => (hmarks m hm).1) ?_
  rintro m hm ⟨rfl, rfl⟩
  exact hP (hmarks m hm).2

/-- There is always a colour that is not there yet. -/
lemma exists_opaque_ne (a : Pixel) : ∃ color : Rgba, color.a = 0xFF ∧ color.toU32 ≠ a := by
  by_cases h : clearColor.toU32 = a
  · refine ⟨⟨1, 0, 0, 0xFF⟩, rfl, ?_⟩
    rw [← h]
    decide
  · exact ⟨clearColor, rfl, h⟩

/-- Along one direction, the turns of the loop over a rectangle. -/
def Turn (n len : ℕ) (pos : ℤ) (i : ℕ) : Prop :=
  min (max pos 0).toNat n ≤ i ∧ i < min (min (max pos 0).toNat n + len) n

/-- A place that the loop over a rectangle comes to changes with the right colour. -/
lemma exists_fillRect_changes {c : Rect} (hclip : applyClip rect clip = some c)
    (hrect : rect.width ≠ 0 ∧ rect.height ≠ 0) (hx : Turn r.width c.width c.x x)
    (hy : Turn r.height c.height c.y y) :
    ∃ color, (r.draw ((SceneItem.fillRect rect color).marks fm r.width r.height clip)).pixel x y
      ≠ r.pixel x y := by
  obtain ⟨hx, hx'⟩ := hx
  obtain ⟨hy, hy'⟩ := hy
  obtain ⟨a, ha⟩ := isSome_iff_exists.mp ((r.isSome_pixel_iff x y).mpr (by omega))
  obtain ⟨color, hopaque, hne⟩ := exists_opaque_ne a
  refine ⟨color, ?_⟩
  have hwidth : ¬ (rect.width = 0 ∨ rect.height = 0 ∨ r.width = 0) := by omega
  simp only [SceneItem.marks, rasterFillRect, scanClipped, if_neg hwidth, hclip]
  rw [r.pixel_draw fun m hm => by have := (mem_scan.mp hm).1; omega, ha, map_some,
    Canvas.retouch_eq_of_const (k := color.toU32)]
  · simpa using hne
  · intro m hm
    obtain ⟨-, -, hchange⟩ := mem_scan.mp hm
    rw [← Option.some.inj hchange, paintOver, if_pos hopaque]
  · exact ⟨⟨x, y, paintOver color⟩, mem_scan.mpr ⟨⟨hx, hx'⟩, ⟨hy, hy'⟩, rfl⟩, rfl, rfl⟩

/-- Where a clip lets a loop out, the loop over the clip itself gets out. -/
lemma exists_turn_outside {w h : ℕ} {c : Rect} (hscreen : w ≠ 0 ∧ h ≠ 0)
    (hc : c.width ≠ 0 ∧ c.height ≠ 0) (hout : ¬ c.extent.Confined w h) :
    ∃ x y, Turn w c.width c.x x ∧ Turn h c.height c.y y ∧ ¬ c.Contains x y := by
  simp only [Extent.Confined, Rect.extent, not_or, not_and_or, not_le] at hout
  obtain ⟨hleft, htop, hside⟩ := hout
  simp only [Turn, Rect.Contains]
  rcases hside with ⟨hx, hx'⟩ | ⟨hy, hy'⟩
  · refine ⟨(max (c.x + c.width) 0).toNat, (max c.y 0).toNat, ?_, ?_, ?_⟩ <;> omega
  · refine ⟨(max c.x 0).toNat, (max (c.y + c.height) 0).toNat, ?_, ?_, ?_⟩ <;> omega

lemma Rect.extent_nonempty_iff (c : Rect) :
    c.extent.Nonempty ↔ c.width ≠ 0 ∧ c.height ≠ 0 := by
  simp only [extent, Extent.Nonempty]
  omega

lemma intersectRect_self {c : Rect} (hc : c.width ≠ 0 ∧ c.height ≠ 0) :
    intersectRect c c = some c := by
  unfold intersectRect
  simp only [max_self, min_self, add_sub_cancel_left, Int.toNat_natCast]
  rw [if_pos (by omega)]

/-- The condition on the rectangles is one on the clip in force. -/
lemma confining_iff (w h : ℕ) (root : Rect) (pushed : List Rect) :
    Confining w h root pushed
      ↔ (w = 0 ∨ h = 0) ∨ ∃ c, clipOf root pushed = some c ∧ Confines w h c := by
  unfold Confining Confines
  refine or_congr_right ?_
  rcases clipOf_spec root pushed with ⟨hnone, hpushed, hempty⟩ | ⟨c, hsome, hextent, hcase⟩
  · simp [hnone, hpushed, hempty]
  · simp only [hsome, Option.some.injEq, exists_eq_left', hextent]
    have hsolid := c.extent_nonempty_iff
    rw [hextent] at hsolid
    by_cases hpushed : pushed = []
    · subst hpushed
      obtain rfl : root = c := Option.some.inj hsome
      rw [hsolid]
      tauto
    · have hne := hcase.resolve_left hpushed
      simp [hpushed, hne, hsolid.mp hne]

lemma exists_rect_outside (hscreen : w ≠ 0 ∧ h ≠ 0)
    (hclip : ¬ ∃ c, clip = some c ∧ Confines w h c) :
    ∃ rect c x y, (rect.width ≠ 0 ∧ rect.height ≠ 0) ∧ applyClip rect clip = some c
      ∧ Turn w c.width c.x x ∧ Turn h c.height c.y y ∧ ¬ InClip clip x y := by
  cases clip with
  | none =>
    refine ⟨⟨0, 0, w, h⟩, _, 0, 0, hscreen, rfl, ?_, ?_, by simp [InClip]⟩
    · simp only [Turn]
      omega
    · simp only [Turn]
      omega
  | some c =>
    have hc : ¬ Confines w h c := fun h => hclip ⟨c, rfl, h⟩
    rw [Confines, not_or, not_or] at hc
    obtain ⟨x, y, hx, hy, hcontains⟩ := exists_turn_outside hscreen ⟨hc.1, hc.2.1⟩ hc.2.2
    exact ⟨c, c, x, y, ⟨hc.1, hc.2.1⟩, intersectRect_self ⟨hc.1, hc.2.1⟩, hx, hy,
      inClip_some.not.mpr hcontains⟩

/-- Every item drawn after some others changes only what it is allowed to exactly when the clips
pushed by then confine it. -/
theorem clip_law_iff (before : List SceneItem) : (∀ item : SceneItem, item.draws = true →
        ChangesOnly (Allowed r.width r.height (mode.rootClip r) (pushedAfter before))
          (mode.render fm r before) (mode.render fm r (before ++ [item])))
      ↔ Confining r.width r.height (mode.rootClip r) (pushedAfter before) := by
  obtain ⟨hw, hh⟩ := mode.render_size fm r before
  have hrender := fun (item : SceneItem) (hdraws : item.draws = true) =>
    mode.render_concat fm r before hdraws
  have hallowed : ∀ x y, Allowed r.width r.height (mode.rootClip r) (pushedAfter before) x y
      ↔ (x < r.width ∧ y < r.height)
        ∧ InClip (clipOf (mode.rootClip r) (pushedAfter before)) x y := by
    intro x y
    rw [Allowed, inClip_clipOf]
  rw [confining_iff]
  generalize clipOf (mode.rootClip r) (pushedAfter before) = clip at hrender hallowed ⊢
  generalize mode.render fm r before = now at hw hh hrender ⊢
  rw [← hw, ← hh] at hrender hallowed ⊢
  constructor
  · intro hlaw
    by_contra hout
    rw [not_or, not_or] at hout
    obtain ⟨hscreen, hclip⟩ := hout
    obtain ⟨rect, c, x, y, hrect, happly, hx, hy, houtside⟩ := exists_rect_outside hscreen hclip
    obtain ⟨color, hchanges⟩ := exists_fillRect_changes fm now happly hrect hx hy
    have hsame := hlaw (.fillRect rect color) rfl x y fun h => houtside ((hallowed x y).mp h).2
    rw [hrender _ rfl] at hsame
    exact hchanges hsame
  · rintro (hempty | ⟨c, rfl, hc⟩) item hdraws
    · intro x y _
      have hnone : ∀ r' : BitmapRenderer, r'.width = now.width → r'.height = now.height →
          r'.pixel x y = none := by
        intro r' hw' hh'
        rw [← not_isSome_iff_eq_none, r'.isSome_pixel_iff, hw', hh']
        omega
      rw [hnone now rfl rfl, hrender item hdraws]
      exact hnone _ (now.draw_width _) (now.draw_height _)
    · rw [hrender item hdraws]
      refine changesOnly_draw now fun m hm => ?_
      have hinside := inside_of_mem_marks fm hc hm
      exact ⟨hinside.1.1, (hallowed m.x m.y).mpr ⟨hinside.1, inClip_some.mpr hinside.2⟩⟩

/-- Fonts without any glyph. -/
def noFonts : FontManager where
  F32 := Unit
  ofInt _ := ()
  add _ _ := ()
  sub _ _ := ()
  gt _ _ := false
  toI32 _ := 0
  ascent _ := ()
  newLineSize _ := ()
  rasterize _ _ := ⟨0, 0, (), ⟨0, 0, [], rfl⟩⟩

def twoPixels : BitmapRenderer := ⟨2, 1, [0, 0], rfl⟩

/-- With the clips `(0, 0, 1, 1)` and `(1, 0, 1, 1)` pushed there is nothing left to draw on, and a
rectangle covers the screen all the same. -/
theorem empty_clip_ignored :
    ¬ ChangesOnly (Allowed 2 1 ⟨0, 0, 2, 1⟩ (pushedAfter
        [.clipPush ⟨0, 0, 1, 1⟩, .clipPush ⟨1, 0, 1, 1⟩]))
      (RenderMode.full.render noFonts twoPixels [.clipPush ⟨0, 0, 1, 1⟩, .clipPush ⟨1, 0, 1, 1⟩])
      (RenderMode.full.render noFonts twoPixels [.clipPush ⟨0, 0, 1, 1⟩, .clipPush ⟨1, 0, 1, 1⟩,
        .fillRect ⟨0, 0, 2, 1⟩ ⟨255, 0, 0, 255⟩]) := by
  intro h
  have hsame := h 0 0 fun hallowed => absurd (hallowed.2 ⟨1, 0, 1, 1⟩ (by decide)) (by decide)
  revert hsame
  decide +kernel

/-! ## Lines -/

end ThingOS.Compositor
