import ThingOS.Compositor.Screen

/-!
# What the screen shows

After a tick the framebuffer should show what the compositor's state looks like, whether the tick
has painted everything, the surroundings of the cursor or nothing. It does if every change of what
is drawn raises a flag, and if what was painted is still current when the tick is over. Neither is
so in the code. The number of the frame, which moves the layers of a wallpaper, goes up when the
painting is done; a window that is dragged, scrolled or tiled raises no flag; and equally large
shapes of the cursor are taken for the same one.
-/

namespace ThingOS.Compositor

open Ui Host Option

/-! ## The framebuffer -/

namespace FramebufferDevice

variable {d : FramebufferDevice} {r : BitmapRenderer}

/-- The device is as large as the frames of a renderer, and its rows are long enough. -/
structure Fits (d : FramebufferDevice) (r : BitmapRenderer) : Prop where
  width : r.width = d.width
  height : r.height = d.height
  rows : d.width ≤ d.pitch / 4

/-- The device shows a frame, as far as there is memory. -/
def Shows (d : FramebufferDevice) (frame : BitmapRenderer) : Prop :=
  d.memory.isSome = true → ∀ x y, x < d.width → y < d.height → d.pixel x y = frame.pixel x y

section

variable (d : FramebufferDevice)

lemma pixel_write (marks : List (Mark Pixel)) (x y : ℕ) :
    (d.write marks).pixel x y = d.memory.bind fun m => (m.draw marks).pixel x y :=
  bind_map ..

lemma write_nil : d.write [] = d := by
  simp only [write, Canvas.draw_nil, map_id_fun', id_eq]

lemma present_eq_write (frame : List Pixel) :
    ∃ marks, d.present frame = d.write marks := by
  unfold present
  split
  · exact ⟨[], d.write_nil.symm⟩
  · exact ⟨_, rfl⟩

lemma presentPartial_eq_write (frame : List Pixel) (dirty : Rect) :
    ∃ marks, d.presentPartial frame dirty = d.write marks := by
  unfold presentPartial
  split
  · exact ⟨[], d.write_nil.symm⟩
  · split
    · exact ⟨[], d.write_nil.symm⟩
    · exact ⟨_, rfl⟩

end

lemma Fits.row_le (h : d.Fits r) {x y : ℕ} (hx : x ≤ d.width) (hy : y < d.height) :
    y * d.width + x ≤ r.storage.length := by
  have hrow : (y + 1) * d.width ≤ d.height * d.width := Nat.mul_le_mul_right _ hy
  rw [r.size, h.width, h.height, Nat.mul_comm d.width]
  rw [Nat.succ_mul] at hrow
  omega

/-- What is copied comes from the frame, and the rest stays. -/
lemma pixel_copyRows (h : d.Fits r) {x0 x1 y0 y1 : ℕ} (hx1 : x1 ≤ d.width) (hy1 : y1 ≤ d.height)
    (x y : ℕ) :
    (d.copyRows r.storage x0 x1 y0 y1).pixel x y
      = if (x0 ≤ x ∧ x < x1) ∧ y0 ≤ y ∧ y < y1 then (d.pixel x y).bind fun _ => r.pixel x y
        else d.pixel x y := by
  rw [copyRows, pixel_write, pixel]
  cases hmemory : d.memory with
  | none => simp
  | some m =>
    obtain ⟨hmw, -⟩ := d.rows m hmemory
    have hrows := h.rows
    simp only [bind_some]
    rw [m.pixel_draw fun mark hmark => by have := (mem_scan.mp hmark).1; omega]
    unfold Canvas.retouch
    rw [marksAt_scan]
    split
    case isTrue hin =>
      obtain ⟨a, ha⟩ := isSome_iff_exists.mp ((r.isSome_pixel_iff x y).mpr
        ⟨by rw [h.width]; omega, by rw [h.height]; omega⟩)
      have hstorage : r.storage[y * d.width + x]? = some a := by
        rw [Canvas.pixel, if_pos (by rw [h.width]; omega), h.width] at ha
        exact ha
      rw [if_pos (h.row_le hx1 (by omega)), hstorage, ha]
      cases m.pixel x y <;> rfl
    case isFalse => exact map_id_apply

lemma pixel_present (h : d.Fits r) (x y : ℕ) : (d.present r.storage).pixel x y
      = if x < d.width ∧ y < d.height then (d.pixel x y).bind fun _ => r.pixel x y
        else d.pixel x y := by
  have hrows := h.rows
  unfold present
  split
  case isTrue hnone => rw [if_neg (by omega)]
  case isFalse =>
    rw [pixel_copyRows h (min_le_left _ _) (min_le_left _ _)]
    refine ite_cond_congr (propext ?_)
    rcases Nat.eq_zero_or_pos d.width with hw | hw
    · omega
    · rw [r.size, h.width, h.height, Nat.mul_div_cancel_left _ hw]
      omega

lemma pixel_presentPartial (h : d.Fits r) (dirty : Rect) (x y : ℕ) :
    (d.presentPartial r.storage dirty).pixel x y
      = if (x < d.width ∧ y < d.height) ∧ dirty.Contains x y then
          (d.pixel x y).bind fun _ => r.pixel x y
        else d.pixel x y := by
  have hrows := h.rows
  have hboth := inClip_intersectRect (a := dirty) (b := ⟨0, 0, d.width, d.height⟩) (x := x) (y := y)
  have hscreen : (⟨0, 0, d.width, d.height⟩ : Rect).Contains x y ↔ x < d.width ∧ y < d.height := by
    simp only [Rect.Contains]
    omega
  rw [hscreen] at hboth
  unfold presentPartial
  split
  case isTrue hnone => rw [if_neg (by omega)]
  case isFalse =>
    cases hrect : intersectRect dirty ⟨0, 0, d.width, d.height⟩ with
    | none =>
      rw [hrect] at hboth
      rw [if_neg fun hin => absurd (hboth.mpr hin.symm) (by simp [InClip])]
    | some rect =>
      obtain ⟨⟨hx, hx2⟩, hy, hy2⟩ := intersectRect_sub_right hrect
      rw [hrect, inClip_some] at hboth
      dsimp only at hx hx2 hy hy2 ⊢
      rw [pixel_copyRows h (by omega) (by omega)]
      refine ite_cond_congr (propext ?_)
      rw [and_comm (b := dirty.Contains x y), ← hboth]
      simp only [Rect.Contains]
      omega

/-- Where there is memory there is a pixel for every place on the screen. -/
lemma Fits.exists_pixel (h : d.Fits r) (hmemory : d.memory.isSome = true) {x y : ℕ}
    (hx : x < d.width) (hy : y < d.height) : ∃ a, d.pixel x y = some a := by
  obtain ⟨m, hm⟩ := isSome_iff_exists.mp hmemory
  obtain ⟨hmw, hmh⟩ := d.rows m hm
  have hrows := h.rows
  rw [pixel, hm, bind_some]
  exact isSome_iff_exists.mp ((m.isSome_pixel_iff x y).mpr ⟨by omega, by omega⟩)

lemma shows_present (h : d.Fits r) : (d.present r.storage).Shows r := by
  obtain ⟨marks, hwrite⟩ := d.present_eq_write r.storage
  intro hmemory x y hx hy
  have hpixel := pixel_present h x y
  rw [hwrite] at hmemory hx hy hpixel ⊢
  rw [hpixel, if_pos ⟨hx, hy⟩]
  obtain ⟨a, ha⟩ := h.exists_pixel (isSome_map.symm.trans hmemory) hx hy
  rw [ha, bind_some]

/-- A device that shows a frame need not be given it. -/
lemma Shows.pixel_present_eq (hshows : d.Shows r) (h : d.Fits r) (x y : ℕ) :
    (d.present r.storage).pixel x y = d.pixel x y := by
  rw [pixel_present h]
  split
  case isTrue hin =>
    cases hpixel : d.pixel x y with
    | none => rfl
    | some a =>
      have hmemory : d.memory.isSome = true := by
        cases hm : d.memory with
        | none => simp [pixel, hm] at hpixel
        | some m => rfl
      rw [bind_some, ← hshows hmemory x y hin.1 hin.2, hpixel]
  case isFalse => rfl

/-- The part that is presented is right, and so is the rest. -/
lemma shows_presentPartial {frame : BitmapRenderer} (h : d.Fits r) {dirty : Rect}
    (hpart : ∀ x y, x < d.width → y < d.height → dirty.Contains x y → r.pixel x y = frame.pixel x y)
    (hrest : d.memory.isSome = true → ∀ x y, x < d.width → y < d.height → ¬ dirty.Contains x y →
      d.pixel x y = frame.pixel x y) :
    (d.presentPartial r.storage dirty).Shows frame := by
  obtain ⟨marks, hwrite⟩ := d.presentPartial_eq_write r.storage dirty
  intro hmemory x y hx hy
  have hpixel := pixel_presentPartial h dirty x y
  rw [hwrite] at hmemory hx hy hpixel ⊢
  have hmemory : d.memory.isSome = true := isSome_map.symm.trans hmemory
  rw [hpixel]
  by_cases hdirty : dirty.Contains x y
  · obtain ⟨a, ha⟩ := h.exists_pixel hmemory hx hy
    rw [if_pos ⟨⟨hx, hy⟩, hdirty⟩, ha, bind_some, hpart x y hx hy hdirty]
  · rw [if_neg fun hin => hdirty hin.2]
    exact hrest hmemory x y hx hy hdirty

lemma Fits.of_size (h : d.Fits r) {r' : BitmapRenderer} (hw : r'.width = r.width)
    (hh : r'.height = r.height) : d.Fits r' :=
  ⟨hw.trans h.width, hh.trans h.height, h.rows⟩

end FramebufferDevice

/-! ## The cursor -/

lemma contains_union_left {a b : Rect} {x y : ℕ} (h : a.Contains x y) :
    (a.union b).Contains x y := by
  simp only [Rect.Contains, Rect.union] at *
  omega

lemma contains_union_right {a b : Rect} {x y : ℕ} (h : b.Contains x y) :
    (a.union b).Contains x y := by
  simp only [Rect.Contains, Rect.union] at *
  omega

/-- A cursor and its rectangle, or none. -/
def IsCursor (items : List SceneItem) (rect : Option Rect) : Prop :=
  (items = [] ∧ rect = none)
    ∨ ∃ origin sprite hotspot, items = [.drawCursor origin sprite hotspot]
      ∧ rect = some (spriteRect origin sprite hotspot)

/-- Away from its rectangle a cursor leaves no trace. -/
lemma IsCursor.pixel_render {items : List SceneItem} {rect : Option Rect}
    (h : IsCursor items rect) (fm : FontManager) (r : BitmapRenderer) (before : List SceneItem)
    {x y : ℕ} (hout : ∀ c ∈ rect, ¬ c.Contains x y) :
    (render fm r (before ++ items)).pixel x y = (render fm r before).pixel x y := by
  rcases h with ⟨rfl, -⟩ | ⟨origin, sprite, hotspot, rfl, rfl⟩
  · rw [List.append_nil]
  · exact pixel_render_cursor fm r before (hout _ rfl)

namespace Screen

variable {F : Type} {env : CompositorEnv F} {σ : Screen F}

def CursorOnScreen (σ : Screen F) : Prop :=
  clampI32 σ.pointer.x 0 (σ.device.width - 1 : ℕ) = σ.pointer.x
    ∧ clampI32 σ.pointer.y 0 (σ.device.height - 1 : ℕ) = σ.pointer.y

lemma clampI32_clampI32 (v : ℤ) (n : ℕ) : clampI32 (clampI32 v 0 n) 0 n = clampI32 v 0 n := by
  simp only [clampI32_eq]
  omega

lemma isCursor_drawCursor (h : σ.CursorOnScreen) :
    IsCursor (σ.drawCursor env) (σ.getCursorRect env) := by
  unfold drawCursor getCursorRect
  cases σ.cursorVisible with
  | false => exact .inl ⟨rfl, rfl⟩
  | true =>
    refine .inr ⟨(σ.pointer.x, σ.pointer.y), _, _, ?_, rfl⟩
    simp only [Bool.not_true, Bool.false_eq_true, if_false, h.1, h.2]

/-- Outside of what is repainted there is neither the old cursor nor the new one. -/
lemma not_contains_dirtyRect {x y : ℕ} (hout : ¬ (σ.dirtyRect env).Contains x y) :
    (∀ c ∈ σ.cursorPrevRect, ¬ c.Contains x y) ∧ ∀ c ∈ σ.getCursorRect env, ¬ c.Contains x y := by
  unfold dirtyRect at hout
  cases hprev : σ.cursorPrevRect with
  | none =>
    cases hcurr : σ.getCursorRect env with
    | none => simp
    | some curr => simpa [hprev, hcurr] using hout
  | some prev =>
    cases hcurr : σ.getCursorRect env with
    | none => simpa [hprev, hcurr] using hout
    | some curr =>
      simp only [hprev, hcurr] at hout
      simp only [mem_def, some_inj, forall_eq']
      exact ⟨fun h => hout (contains_union_left h), fun h => hout (contains_union_right h)⟩

/-! ## The state between ticks -/

variable (env)

/-- The framebuffer shows what is drawn, with the cursor as it was painted last. -/
def Showing (σ : Screen F) : Prop :=
  σ.device.Shows (render env.fonts σ.renderer (.clear clearColor :: (σ.drawn env ++ σ.painted)))

/-- The framebuffer shows what the state looks like. -/
def Coherent (σ : Screen F) : Prop :=
  ∀ x y, σ.device.pixel x y
    = (σ.device.present (render env.fonts σ.renderer (σ.scene env)).storage).pixel x y

/-- What holds between the steps: unless a flag is up, the framebuffer shows what is drawn. -/
structure Sound (σ : Screen F) : Prop where
  fits : σ.device.Fits σ.renderer
  onScreen : σ.CursorOnScreen
  cursor : IsCursor σ.painted σ.cursorPrevRect
  showing : σ.dirty = false → σ.Showing env

/-- A change that raises no flag does not change what is drawn. -/
def Unseen (before after : Screen F) : Prop :=
  after.dirty = true ∨ after.drawn env = before.drawn env

variable {env}

lemma coherent_of_showing (hfits : σ.device.Fits σ.renderer) (hshowing : σ.Showing env)
    (hpainted : σ.painted = σ.drawCursor env) : σ.Coherent env := by
  rw [Showing, hpainted] at hshowing
  have hsize := renderScene_size env.fonts (σ.renderer.fill clearColor.toU32) (σ.scene env)
    ⟨0, 0, σ.renderer.width, σ.renderer.height⟩ .full
  exact fun x y => (hshowing.pixel_present_eq (hfits.of_size hsize.1 hsize.2) x y).symm

/-- Nothing is painted, and no flag is taken down. -/
structure Unpainted (before after : Screen F) : Prop where
  device : after.device = before.device
  renderer : after.renderer = before.renderer
  frameNo : after.frameNo = before.frameNo
  cursorPrevRect : after.cursorPrevRect = before.cursorPrevRect
  painted : after.painted = before.painted
  dirty : before.dirty = true → after.dirty = true
  onScreen : before.CursorOnScreen → after.CursorOnScreen

lemma Sound.of_unpainted (h : σ.Sound env) {τ : Screen F} (hstep : Unpainted σ τ)
    (hseen : Unseen env σ τ) : τ.Sound env where
  fits := by
    rw [hstep.device, hstep.renderer]
    exact h.fits
  onScreen := hstep.onScreen h.onScreen
  cursor := by
    rw [hstep.painted, hstep.cursorPrevRect]
    exact h.cursor
  showing hclean := by
    have hbefore : σ.dirty = false := by
      rw [← Bool.not_eq_true]
      intro hdirty
      rw [hstep.dirty hdirty] at hclean
      cases hclean
    have hdrawn := hseen.resolve_left (by simp [hclean])
    rw [Showing, hdrawn, hstep.painted, hstep.device, hstep.renderer]
    exact h.showing hbefore

/-! ## Events -/

lemma unpainted_refl (σ : Screen F) : Unpainted σ σ := ⟨rfl, rfl, rfl, rfl, rfl, id, id⟩

lemma Unpainted.trans {τ υ : Screen F} (h : Unpainted σ τ) (h' : Unpainted τ υ) :
    Unpainted σ υ where
  device := h'.device.trans h.device
  renderer := h'.renderer.trans h.renderer
  frameNo := h'.frameNo.trans h.frameNo
  cursorPrevRect := h'.cursorPrevRect.trans h.cursorPrevRect
  painted := h'.painted.trans h.painted
  dirty := h'.dirty ∘ h.dirty
  onScreen := h'.onScreen ∘ h.onScreen

lemma dirty_soil (σ : Screen F) : σ.soil.dirty = true := Bool.or_true _

lemma Unpainted.soil {τ : Screen F} (h : Unpainted σ τ) : Unpainted σ τ.soil :=
  h.trans ⟨rfl, rfl, rfl, rfl, rfl, fun _ => τ.dirty_soil, id⟩

lemma unpainted_windowStep (σ : Screen F) (s : ModeStep) : Unpainted σ (σ.windowStep env s) :=
  ⟨rfl, rfl, rfl, rfl, rfl, id, id⟩

lemma unpainted_ingestWindow (σ : Screen F) (window : Ui.Window) :
    Unpainted σ (σ.ingestWindow env window) := by
  refine ⟨rfl, rfl, rfl, rfl, rfl, fun hdirty => ?_, id⟩
  simp only [dirty, ingestWindow, Bool.or_eq_true] at hdirty ⊢
  exact hdirty.imp_left .inl

/-- The cursor is kept on the screen. -/
lemma onMouseEvent_place (penv : PointerEnv) (p : Pointer) (dx dy : ℤ) (buttons : ℕ) :
    (p.onMouseEvent penv dx dy buttons).1.x = clampI32 (p.x + asI32 dx) 0 (penv.width - 1 : ℕ)
      ∧ (p.onMouseEvent penv dx dy buttons).1.y
        = clampI32 (p.y + asI32 dy) 0 (penv.height - 1 : ℕ) := by
  have hpress : ∀ q : Pointer, (q.onPointerDown penv).1.x = q.x
      ∧ (q.onPointerDown penv).1.y = q.y := by
    intro q
    unfold Pointer.onPointerDown
    split <;> exact ⟨rfl, rfl⟩
  have hrelease : ∀ q : Pointer, q.endWidgetInteraction.1.x = q.x
      ∧ q.endWidgetInteraction.1.y = q.y := by
    intro q
    unfold Pointer.endWidgetInteraction
    split <;> exact ⟨rfl, rfl⟩
  unfold Pointer.onMouseEvent
  split
  · split
    · exact hpress _
    · exact ⟨rfl, rfl⟩
  · split
    · exact hrelease _
    · exact ⟨rfl, rfl⟩

lemma unpainted_onMouseEvent (σ : Screen F) (dx dy : ℤ) (buttons : ℕ) :
    Unpainted σ (σ.onMouseEvent env dx dy buttons) := by
  refine ⟨rfl, rfl, rfl, rfl, rfl, fun hdirty => ?_, fun _ => ?_⟩
  · simp only [dirty, onMouseEvent, Bool.or_eq_true] at hdirty ⊢
    exact hdirty.imp_right .inl
  · obtain ⟨hx, hy⟩ := onMouseEvent_place ⟨σ.device.width, σ.device.height,
      env.widgetAt σ.layout.titleBarHeight σ.windowing.1 σ.pointer.manager⟩ σ.pointer dx dy buttons
    simp only [CursorOnScreen, onMouseEvent, hx, hy, clampI32_clampI32, and_self]

lemma unpainted_command (σ : Screen F) (key : Key) : Unpainted σ (σ.command env key) := by
  have hraise : ∀ pointer : Pointer, pointer.x = σ.pointer.x → pointer.y = σ.pointer.y →
      Unpainted σ { σ with pointer, fbDirty := true } := by
    intro pointer hx hy
    refine ⟨rfl, rfl, rfl, rfl, rfl, fun _ => Bool.true_or _, fun h => ?_⟩
    simp only [CursorOnScreen, hx, hy]
    exact h
  cases key with
  | t =>
    simp only [command]
    split
    · exact ⟨rfl, rfl, rfl, rfl, rfl, id, id⟩
    · exact unpainted_refl σ
  | i | o =>
    simp only [command]
    split
    · exact hraise σ.pointer rfl rfl
    · exact unpainted_refl σ
  | tab =>
    simp only [command, handleTabFocus]
    split
    · exact unpainted_refl σ
    · exact hraise _ rfl rfl
  | alt | altGr | shift | scroll | other => exact unpainted_refl σ

lemma unpainted_scrollActive (σ : Screen F) (key : Key) :
    Unpainted σ (σ.scrollActive env key) := by
  cases key with
  | scroll key =>
    simp only [scrollActive]
    split
    · exact ⟨rfl, rfl, rfl, rfl, rfl, id, id⟩
    · exact unpainted_refl σ
  | t | i | o | tab | alt | altGr | shift | other => exact unpainted_refl σ

lemma unpainted_ingestKeyEvent (σ : Screen F) (e : KeyEvent) :
    Unpainted σ (σ.ingestKeyEvent env e) := by
  have hmodified : Unpainted σ (σ.modified e) := ⟨rfl, rfl, rfl, rfl, rfl, id, id⟩
  unfold ingestKeyEvent
  split
  · exact (hmodified.trans (unpainted_command _ _)).trans (unpainted_scrollActive _ _)
  · exact hmodified

lemma unpainted_ingestCursor (σ : Screen F) (x y : Option ℤ) (visible : Option Bool) :
    Unpainted σ (σ.ingestCursor x y visible) := by
  refine ⟨rfl, rfl, rfl, rfl, rfl, id, fun h => ⟨?_, ?_⟩⟩
  · cases x with
    | none => exact h.1
    | some v => exact clampI32_clampI32 _ _
  · cases y with
    | none => exact h.2
    | some v => exact clampI32_clampI32 _ _

/-- A step that neither paints nor resizes. -/
def IsEvent : ScreenStep F → Prop
  | .resize _ | .tick => False
  | _ => True

lemma unpainted_step (σ : Screen F) {s : ScreenStep F} (hs : IsEvent s) :
    Unpainted σ (σ.step env s) := by
  cases s with
  | surface s thing => exact (unpainted_windowStep σ _).soil
  | window thing =>
    simp only [step]
    split
    · exact (unpainted_ingestWindow σ _).soil
    · exact unpainted_refl σ
  | widget | wallpaper | layer =>
    refine Unpainted.soil ?_
    exact ⟨rfl, rfl, rfl, rfl, rfl, fun h => h, fun h => h⟩
  | mode index =>
    simp only [step]
    split
    · exact unpainted_refl σ
    · exact (unpainted_windowStep σ _).soil
  | modeDef index placeId =>
    simp only [step]
    split
    · exact (unpainted_windowStep σ _).soil
    · exact unpainted_windowStep σ _
  | mouse dx dy buttons => exact unpainted_onMouseEvent σ dx dy buttons
  | key e => exact unpainted_ingestKeyEvent σ e
  | cursor x y visible => exact unpainted_ingestCursor σ x y visible
  | framebuffer => exact ⟨rfl, rfl, rfl, rfl, rfl, fun _ => Bool.true_or _, id⟩
  | resize | tick => exact hs.elim

/-- The pointer, the keys and the definition of another mode may change something without a flag. -/
def MayBeUnseen : ScreenStep F → Prop
  | .mouse _ _ _ | .key _ | .modeDef _ _ => True
  | _ => False

/-- Everything else raises a flag or changes the cursor only. -/
lemma unseen_step (σ : Screen F) {s : ScreenStep F} (hs : IsEvent s) (hseen : ¬ MayBeUnseen s) :
    Unseen env σ (σ.step env s) := by
  cases s with
  | surface s thing => exact .inl (dirty_soil _)
  | window thing =>
    simp only [step]
    split
    · exact .inl (dirty_soil _)
    · exact .inr rfl
  | widget | wallpaper | layer => exact .inl (dirty_soil _)
  | mode index =>
    simp only [step]
    split
    · exact .inr rfl
    · exact .inl (dirty_soil _)
  | cursor x y visible => exact .inr rfl
  | framebuffer => exact .inl (Bool.true_or _)
  | mouse | key | modeDef => exact absurd trivial hseen
  | resize | tick => exact hs.elim

lemma Sound.resize (h : σ.Sound env) {device : FramebufferDevice}
    (hrows : device.width ≤ device.pitch / 4) : (σ.resize device).Sound env := by
  unfold Screen.resize
  split
  · refine ⟨⟨rfl, rfl, hrows⟩, ⟨clampI32_clampI32 _ _, clampI32_clampI32 _ _⟩, h.cursor, ?_⟩
    intro hclean
    cases hclean
  · exact h

/-- A pointer without a button pressed changes nothing but the cursor. -/
lemma unseen_hover (hbefore : Pointer.leftDown σ.pointer.buttons = false) (hdrag : σ.drag = none)
    {buttons : ℕ} (hnow : Pointer.leftDown buttons = false) (dx dy : ℤ) :
    Unseen env σ (σ.onMouseEvent env dx dy buttons) := by
  right
  have hdesk : (σ.onMouseEvent env dx dy buttons).desk = σ.desk := by
    simp [desk, onMouseEvent, Pointer.onMouseEvent, hbefore, hnow, hdrag, Pointer.update]
  simp only [drawn, hdesk]
  rfl

/-- A key is not seen, or raises a flag, unless it tiles the windows or scrolls one. -/
lemma unseen_key (e : KeyEvent) (htile : e.key = .t → (σ.modified e).altDown = false)
    (hscroll : ∀ key, e.key ≠ .scroll key) : Unseen env σ (σ.ingestKeyEvent env e) := by
  have hmodified : (σ.modified e).drawn env = σ.drawn env := rfl
  unfold ingestKeyEvent
  split
  case isFalse => exact .inr hmodified
  case isTrue =>
    cases hkey : e.key with
    | t => exact .inr (by rw [command, htile hkey]; exact hmodified)
    | scroll key => exact absurd hkey (hscroll key)
    | alt | altGr | shift | other => exact .inr hmodified
    | i | o =>
      rw [command, scrollActive]
      split
      · exact .inl rfl
      · exact .inr hmodified
    | tab =>
      rw [command, handleTabFocus, scrollActive]
      split
      · exact .inr hmodified
      · exact .inl rfl

/-! ## Ticks -/

lemma unpainted_settle (σ : Screen F) : Unpainted σ (σ.settle env) := by
  refine ⟨rfl, rfl, rfl, rfl, rfl, fun hdirty => ?_, id⟩
  simp only [dirty, settle, Bool.or_eq_true] at hdirty ⊢
  tauto

/-- What painting needs: the number of the next frame draws the same, and if no flag is up, a cursor
with the rectangle it had is the one painted last, and what is drawn can be repainted in part. -/
structure Paintable (env : CompositorEnv F) (σ : Screen F) : Prop where
  still : σ.dirty = true ∨ σ.getCursorRect env ≠ σ.cursorPrevRect →
    σ.desk.drawBackground env.painter σ.device.width σ.device.height ((σ.frameNo + 1) % 2 ^ 64)
      = σ.desk.drawBackground env.painter σ.device.width σ.device.height σ.frameNo
  shape : σ.dirty = false → σ.getCursorRect env = σ.cursorPrevRect → σ.painted = σ.drawCursor env
  repaintable : σ.dirty = false → σ.getCursorRect env ≠ σ.cursorPrevRect →
    RepaintableScene env.fonts σ.device.width σ.device.height (σ.dirtyRect env)
      (σ.drawn env ++ σ.drawCursor env)

/-- What a painting leaves, when the device shows the scene that was painted. -/
lemma Sound.painting (h : σ.Sound env) {renderer : BitmapRenderer} {marks : List (Mark Pixel)}
    (hwidth : renderer.width = σ.renderer.width) (hheight : renderer.height = σ.renderer.height)
    (hstill : σ.desk.drawBackground env.painter σ.device.width σ.device.height
        ((σ.frameNo + 1) % 2 ^ 64)
      = σ.desk.drawBackground env.painter σ.device.width σ.device.height σ.frameNo)
    (hshows : (σ.device.write marks).Shows (render env.fonts σ.renderer (σ.scene env))) :
    (σ.painting env renderer (σ.device.write marks)).Sound env
      ∧ (σ.painting env renderer (σ.device.write marks)).Coherent env := by
  have hdrawn : (σ.painting env renderer (σ.device.write marks)).drawn env = σ.drawn env := by
    change Desk.drawMode env.painter σ.desk _ _ _ = Desk.drawMode env.painter σ.desk _ _ _
    rw [Desk.drawMode, Desk.drawMode]
    exact congrArg (· ++ _ ++ _) hstill
  have hfits : (σ.device.write marks).Fits renderer :=
    ⟨hwidth.trans h.fits.width, hheight.trans h.fits.height, h.fits.rows⟩
  have hshowing : (σ.painting env renderer (σ.device.write marks)).Showing env := by
    rw [Showing, hdrawn]
    change (σ.device.write marks).Shows (render env.fonts renderer (σ.scene env))
    rw [render_congr env.fonts hwidth hheight]
    exact hshows
  exact ⟨⟨hfits, h.onScreen, isCursor_drawCursor h.onScreen, fun _ => hshowing⟩,
    coherent_of_showing hfits hshowing rfl⟩

/-- Outside of what is repainted the device shows the scene already. -/
lemma Sound.pixel_rest (h : σ.Sound env) (hclean : σ.dirty = false)
    (hmemory : σ.device.memory.isSome = true) {x y : ℕ} (hx : x < σ.device.width)
    (hy : y < σ.device.height) (hout : ¬ (σ.dirtyRect env).Contains x y) :
    σ.device.pixel x y = (render env.fonts σ.renderer (σ.scene env)).pixel x y := by
  obtain ⟨hprev, hcurr⟩ := not_contains_dirtyRect hout
  rw [h.showing hclean hmemory x y hx hy, scene, ← List.cons_append, ← List.cons_append,
    h.cursor.pixel_render _ _ _ hprev, (isCursor_drawCursor h.onScreen).pixel_render _ _ _ hcurr]

lemma render_scene_size (env : CompositorEnv F) (σ : Screen F) :
    (render env.fonts σ.renderer (σ.scene env)).width = σ.renderer.width
      ∧ (render env.fonts σ.renderer (σ.scene env)).height = σ.renderer.height :=
  renderScene_size env.fonts (σ.renderer.fill clearColor.toU32) _ _ .full

lemma Sound.paint (h : σ.Sound env) (hpaint : Paintable env σ) :
    (σ.paint env).Sound env ∧ (σ.paint env).Coherent env := by
  unfold Screen.paint
  cases hdirty : σ.dirty with
  | true =>
    simp only [Bool.not_true, Bool.false_and, Bool.false_eq_true, if_false, if_true]
    obtain ⟨hw, hh⟩ := render_scene_size env σ
    have hshows := FramebufferDevice.shows_present (h.fits.of_size hw hh)
    obtain ⟨marks, hwrite⟩ := σ.device.present_eq_write
      (render env.fonts σ.renderer (σ.scene env)).storage
    rw [hwrite] at hshows ⊢
    exact h.painting hw hh (hpaint.still (.inl hdirty)) hshows
  | false =>
    simp only [Bool.not_false, Bool.true_and, decide_eq_true_eq, Bool.false_eq_true, if_false]
    by_cases hrect : σ.getCursorRect env = σ.cursorPrevRect
    · rw [if_pos hrect]
      exact ⟨h, coherent_of_showing h.fits (h.showing hdirty) (hpaint.shape hdirty hrect)⟩
    · rw [if_neg hrect]
      obtain ⟨hw, hh⟩ := renderScene_size env.fonts σ.renderer (σ.scene env) (σ.dirtyRect env)
        (.clip (σ.dirtyRect env))
      have hscene := hpaint.repaintable hdirty hrect
      rw [← h.fits.width, ← h.fits.height] at hscene
      have hshows := FramebufferDevice.shows_presentPartial (h.fits.of_size hw hh)
        (fun x y hx hy hin => pixel_renderPartial env.fonts σ.renderer hscene
          (h.fits.width ▸ hx) (h.fits.height ▸ hy) hin)
        fun hmemory x y hx hy hout => h.pixel_rest hdirty hmemory hx hy hout
      obtain ⟨marks, hwrite⟩ := σ.device.presentPartial_eq_write
        (renderPartial env.fonts σ.renderer (σ.scene env) (σ.dirtyRect env)).storage
        (σ.dirtyRect env)
      rw [renderPartial] at hwrite ⊢
      rw [hwrite] at hshows ⊢
      exact h.painting hw hh (hpaint.still (.inr hrect)) hshows

/-- Ticks on a screen without pixels do nothing, and there is nothing to see. -/
lemma coherent_of_no_pixels (hfits : σ.device.Fits σ.renderer)
    (hnone : σ.device.width = 0 ∨ σ.device.height = 0) : σ.Coherent env := by
  obtain ⟨hw, hh⟩ := render_scene_size env σ
  intro x y
  rw [FramebufferDevice.pixel_present (hfits.of_size hw hh), if_neg (by omega)]

/-- The conditions on a tick: what it does before it paints is not seen without a flag, and then the
screen can be painted. -/
def TickKept (env : CompositorEnv F) (σ : Screen F) : Prop :=
  σ.device.width ≠ 0 → σ.device.height ≠ 0 →
    Unseen env σ (σ.settle env) ∧ Paintable env (σ.settle env)

lemma Sound.tick (h : σ.Sound env) (hkept : TickKept env σ) :
    (σ.tick env).Sound env ∧ (σ.tick env).Coherent env := by
  unfold Screen.tick
  split
  case isTrue hnone => exact ⟨h, coherent_of_no_pixels h.fits hnone⟩
  case isFalse hsome =>
    obtain ⟨hseen, hpaint⟩ := hkept (fun hw => hsome (.inl hw)) fun hh => hsome (.inr hh)
    exact (h.of_unpainted (unpainted_settle σ) hseen).paint hpaint

/-! ## Runs -/

def Kept (env : CompositorEnv F) (σ : Screen F) : ScreenStep F → Prop
  | .tick => TickKept env σ
  | .resize device => device.width ≤ device.pitch / 4
  | .mouse dx dy buttons => Unseen env σ (σ.step env (.mouse dx dy buttons))
  | .key e => Unseen env σ (σ.step env (.key e))
  | .modeDef index placeId => Unseen env σ (σ.step env (.modeDef index placeId))
  | .surface _ _ | .window _ | .widget _ | .wallpaper _ _ _ | .layer _ _ _ | .mode _ | .cursor _ _ _
  | .framebuffer => True

lemma Sound.step (h : σ.Sound env) {s : ScreenStep F} (hkept : Kept env σ s) :
    (σ.step env s).Sound env := by
  have hevent : IsEvent s → Unseen env σ (σ.step env s) → (σ.step env s).Sound env :=
    fun hs hseen => h.of_unpainted (unpainted_step σ hs) hseen
  cases s with
  | tick => exact (h.tick hkept).1
  | resize device => exact h.resize hkept
  | mouse | key | modeDef => exact hevent trivial hkept
  | surface | window | widget | wallpaper | layer | mode | cursor | framebuffer =>
    exact hevent trivial (unseen_step σ trivial id)

/-- A compositor that has not painted yet, on a framebuffer of the size of its renderer. -/
structure Unstarted (σ : Screen F) : Prop where
  fits : σ.device.Fits σ.renderer
  onScreen : σ.CursorOnScreen
  contentDirty : σ.contentDirty = true
  cursorPrevRect : σ.cursorPrevRect = none
  painted : σ.painted = []

lemma Unstarted.sound (h : σ.Unstarted) : σ.Sound env where
  fits := h.fits
  onScreen := h.onScreen
  cursor := .inl ⟨h.painted, h.cursorPrevRect⟩
  showing hclean := by simp [dirty, h.contentDirty] at hclean

/-- In every run whose steps all meet the conditions, the framebuffer shows after every tick what
the state looks like, whichever way the tick took. -/
theorem coherent_of_kept (env : CompositorEnv F) {start : Screen F} (hstart : start.Unstarted)
    {steps : List (ScreenStep F)} (hsteps : EachStep (step env) (Kept env) start steps)
    (before after : List (ScreenStep F)) (hticks : steps = before ++ .tick :: after) :
    (run (step env) start (before ++ [.tick])).Coherent env := by
  have hbefore : (run (step env) start before).Sound env := by
    subst hticks
    exact run_invariant_of_eachStep hsteps.of_append hstart.sound fun _ _ hkept h => h.step hkept
  rw [run_concat]
  exact (hbefore.tick (hsteps before .tick after hticks)).2

end Screen

/-! ## A small screen -/

def dot : CursorIcon := ⟨⟨1, 1, [0xFFFFFFFF], rfl⟩, (0, 0)⟩

/-- Windows without insides, and layers that move by a whole number of pixels in every frame. -/
def plainPainter : Painter Insides ℕ where
  scrollOffset frameNo factor := (frameNo * factor : ℕ)
  rootWidgets _ _ _ _ := []
  titleBar _ _ _ := []
  content _ _ _ := []

def dotEnv : CompositorEnv ℕ where
  toSurfaceEnv := plainEnv
  newScrollbar _ := none
  scrollbar _ := none
  hitTestWidgets _ _ _ _ _ := none
  thumbScroll _ _ _ := 0
  fonts := noFonts
  painter := plainPainter
  sprites := ⟨dot, dot, dot, dot, dot, dot⟩
  nextFocus _ _ := none

/-- A new compositor on a screen of four pixels, whose first mode has the place 7. It has a picture
of two pixels, blue and green. -/
def fourPixels : Screen ℕ where
  frameNo := 0
  device := ⟨4, 1, 16, some ⟨4, 1, [0, 0, 0, 0], rfl⟩, by decide⟩
  renderer := ⟨4, 1, [0, 0, 0, 0], rfl⟩
  windowing := ⟨.start fun i => if i = firstMode then some 7 else none,
    ModeState.onlyKnown_start _, fun k => (ModeState.onlyKnown_start _ k rfl).trans_le zero_le_one⟩
  wallpapers := ∅
  layers := ∅
  bitmaps := (∅ : Std.ExtTreeMap String Bitmap compare).insert "clouds.bmp"
    ⟨2, 1, [0xFF0000FF, 0xFF00FF00], rfl⟩
  layout := .default
  pointer := ⟨2, 0, 0, .new⟩
  cursorVisible := true
  cursorKind := .arrow
  cursorPrevRect := none
  drag := none
  altDown := false
  shiftDown := false
  fbDirty := false
  contentDirty := true
  painted := []

/-- Without a wallpaper the screen is painted, and then the surroundings of a cursor that goes one
pixel to the right. -/
theorem coherent_of_kept_dot :
    fourPixels.Unstarted
      ∧ EachStep (Screen.step dotEnv) (Screen.Kept dotEnv) fourPixels [.tick, .mouse 1 0 0, .tick]
      ∧ (run (Screen.step dotEnv) fourPixels ([.tick, .mouse 1 0 0] ++ [.tick])).Coherent
        dotEnv := by
  have hstart : fourPixels.Unstarted := ⟨⟨rfl, rfl, by decide⟩, ⟨rfl, rfl⟩, rfl, rfl, rfl⟩
  have hsteps : EachStep (Screen.step dotEnv) (Screen.Kept dotEnv) fourPixels
      [.tick, .mouse 1 0 0, .tick] := by
    rw [eachStep_cons, eachStep_cons, eachStep_cons]
    refine ⟨fun _ _ => ⟨.inl (by decide +kernel), fun _ => by decide +kernel, ?_, ?_⟩,
      Screen.unseen_hover (by decide +kernel) (by decide +kernel) (by decide +kernel) 1 0,
      fun _ _ => ⟨.inr (by decide +kernel), fun _ => by decide +kernel, ?_, ?_⟩, eachStep_nil _⟩
    · intro hclean
      exact absurd hclean (by decide +kernel)
    · intro hclean
      exact absurd hclean (by decide +kernel)
    · intro _ hrect
      exact absurd hrect (by decide +kernel)
    · intro _ _
      refine RepaintableScene.of_no_clips fun item hitem => ?_
      have hitem : item ∈ [SceneItem.fillRect ⟨0, 0, 4, 1⟩ clearColor,
          .drawCursor (3, 0) dot.bitmap dot.hotspot] := by
        refine Eq.subst (motive := fun items => item ∈ items) ?_ hitem
        decide +kernel
      simp only [List.mem_cons, List.not_mem_nil, or_false] at hitem
      rcases hitem with rfl | rfl
      · exact ⟨rfl, le_max_left _ _, le_max_left _ _⟩
      · exact ⟨rfl, trivial⟩
  exact ⟨hstart, hsteps, Screen.coherent_of_kept dotEnv hstart hsteps _ [] rfl⟩

/-- A wallpaper moves by one pixel in every frame, the screen is painted, and then the cursor goes
one pixel to the right. Where it was there is the picture of the second frame beside that of the
first. -/
theorem wallpaper_torn :
    ¬ (run (Screen.step dotEnv) fourPixels
      [.wallpaper 1 none (some 7), .layer 1 2 ⟨.image "clouds.bmp", 1, 0, 0⟩, .tick, .mouse 1 0 0,
        .tick]).Coherent dotEnv := by
  intro h
  have hpixel := h 2 0
  revert hpixel
  decide +kernel

end ThingOS.Compositor
