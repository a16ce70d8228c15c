import ThingOS.Compositor.ClipLaw
import ThingOS.Compositor.Desk

/-!
# The window at a point

`find_window_at` looks for the window under the pointer from the top of the stack down, among the
visible windows with their own rectangles, while `draw_mode` draws all windows of the mode, the root
one over the whole screen. So the two agree at a point exactly when the topmost window that one of
them sees there is seen by both.
-/

namespace ThingOS.Compositor

open Ui List Option

variable {R F : Type}

variable (d : Desk R F)

namespace Desk

variable (d : Desk R F)

def orderedWindowIds : List Uuid :=
  (d.mode.rootWindow.toList ++ d.mode.windows).filter fun id =>
    d.windows[id]?.any fun surface => surface.window.visible

def findFrom (d : Desk R F) (x y : ℤ) : List Uuid → Option (Uuid × ℤ × ℤ)
  | [] => none
  | id :: ids =>
    match d.windows[id]? with
    | none => none
    | some surface =>
      if !surface.window.visible then findFrom d x y ids
      else if HasPoint surface.window x y then
        some (id, asI32 surface.window.x, asI32 surface.window.y)
      else findFrom d x y ids

def findWindowAt (x y : ℤ) : Option (Uuid × ℤ × ℤ) :=
  d.findFrom x y d.orderedWindowIds.reverse

/-! ## What is painted -/

/-- The rectangle of a window that `draw_window` paints, if there is room for a frame. -/
def paintedRect (surface : WindowSurface) (fbW fbH : ℕ) : Option Rect :=
  let w := surface.window.width
  let h := surface.window.height
  let x : ℤ := (min surface.window.x fbW : ℕ)
  let y : ℤ := (min surface.window.y fbH : ℕ)
  if w = 0 ∨ h = 0
      ∨ computeWindowLayout x y (asI32 w) (asI32 h) d.layout.titleBarHeight = none then none
  else some ⟨x, y, asU32 w, asU32 h⟩

def clipRect : SceneItem → Option Rect
  | .clipPush rect => some rect
  | _ => none

/-- It is the rectangle to which the drawing of a window is clipped, apart from its shadow. -/
lemma findSome?_drawWindow (p : Painter R F) (d : Desk R F) (surface : WindowSurface)
    (fbW fbH : ℕ) :
    (d.drawWindow p surface fbW fbH).findSome? clipRect = d.paintedRect surface fbW fbH := by
  unfold drawWindow paintedRect
  simp only
  by_cases hempty : surface.window.width = 0 ∨ surface.window.height = 0
  · rw [if_pos hempty, if_pos (hempty.imp_right .inl)]
    rfl
  · rw [if_neg hempty]
    cases hlayout : computeWindowLayout (min surface.window.x fbW : ℕ)
        (min surface.window.y fbH : ℕ) (asI32 surface.window.width)
        (asI32 surface.window.height) d.layout.titleBarHeight with
    | none =>
      rw [if_pos (.inr (.inr rfl))]
      rfl
    | some layout =>
      rw [if_neg (by simpa using hempty)]
      rfl

/-- The windows that `draw_mode` paints, in order, and their rectangles. -/
def paintedWindows (fbW fbH : ℕ) : List (Uuid × Rect) :=
  ((d.mode.rootWindow.filter fun root => d.windows[root]?.isSome).map
    (·, (⟨0, 0, fbW, fbH⟩ : Rect))).toList ++
  d.mode.windows.filterMap fun id =>
    (d.windows[id]?.bind fun surface => d.paintedRect surface fbW fbH).map (id, ·)

def lastPainted (fbW fbH x y : ℕ) : Option Uuid :=
  ((d.paintedWindows fbW fbH).filter fun (_, rect) => rect.Contains x y).getLast?.map Prod.fst

/-! ## The two compared -/

/-- The window is visible and its own rectangle contains the point. -/
def Hit (surface : WindowSurface) (x y : ℕ) : Prop :=
  surface.window.visible = true ∧ HasPoint surface.window x y
deriving Decidable

/-- The window's frame is painted over the point. -/
def Painted (fbW fbH : ℕ) (surface : WindowSurface) (x y : ℕ) : Prop :=
  ∃ rect ∈ d.paintedRect surface fbW fbH, rect.Contains x y

instance (d : Desk R F) (fbW fbH : ℕ) (surface : WindowSurface) (x y : ℕ) :
    Decidable (d.Painted fbW fbH surface x y) :=
  match h : d.paintedRect surface fbW fbH with
  | none => .isFalse (by simp [Painted, h])
  | some rect => decidable_of_iff (rect.Contains x y) (by simp [Painted, h])

def windowIs (P : WindowSurface → Prop) [DecidablePred P] (id : Uuid) : Bool :=
  d.windows[id]?.any fun surface => decide (P surface)

/-- The search goes over the windows that are hit, from the last one. -/
lemma findFrom_map_fst (x y : ℕ) {ids : List Uuid} (hids : ∀ id ∈ ids, id ∈ d.windows) :
    (d.findFrom x y ids).map Prod.fst = ids.find? (d.windowIs fun surface => Hit surface x y) := by
  induction ids with
  | nil => rfl
  | cons id ids ih =>
    have ih := ih fun i hi => hids i (mem_cons_of_mem _ hi)
    obtain ⟨surface, hsurface⟩ : ∃ surface, d.windows[id]? = some surface :=
      isSome_iff_exists.mp
        (Std.ExtTreeMap.isSome_getElem?_iff_mem.mpr (hids id mem_cons_self))
    rw [findFrom, hsurface, find?_cons]
    simp only [windowIs, hsurface, any_some]
    by_cases hhit : Hit surface x y
    · simp [hhit, hhit.1, hhit.2]
    · rw [decide_eq_false hhit]
      split
      · exact ih
      case isFalse hvisible =>
        have hvisible : surface.window.visible = true := by simpa using hvisible
        rw [if_neg fun h => hhit ⟨hvisible, h⟩]
        exact ih

lemma find?_toList_reverse {α : Type} (o : Option α) (P : α → Bool) :
    o.toList.reverse.find? P = o.filter P := by
  cases o with
  | none => rfl
  | some a => cases h : P a <;> simp [Option.filter, h]

/-- The window that is found is the topmost of the mode's windows that is hit, or else the root. -/
lemma findWindowAt_map_fst (x y : ℕ) : (d.findWindowAt x y).map Prod.fst
      = (d.mode.windows.reverse.find? (d.windowIs fun s => Hit s x y)).or
        (d.mode.rootWindow.filter (d.windowIs fun s => Hit s x y)) := by
  rw [findWindowAt, findFrom_map_fst, orderedWindowIds, ← filter_reverse, find?_filter,
    reverse_append, find?_append, find?_toList_reverse]
  · have hvisible : (fun id => decide ((d.windows[id]?.any fun s => s.window.visible) = true
        ∧ d.windowIs (fun s => Hit s x y) id = true)) = d.windowIs fun s => Hit s x y := by
      funext id
      cases hid : d.windows[id]? with
      | none => simp [windowIs, hid]
      | some surface =>
        simp only [windowIs, hid, any_some, decide_eq_true_eq, decide_eq_decide]
        exact and_iff_right_of_imp fun hhit => hhit.1
    rw [hvisible]
  · intro id hid
    obtain ⟨-, hvisible⟩ := mem_filter.mp (mem_reverse.mp hid)
    rw [← Std.ExtTreeMap.isSome_getElem?_iff_mem]
    exact isSome_of_any hvisible

/-- The window painted last is the topmost one painted, or else the root if it is there. -/
lemma lastPainted_eq {fbW fbH x y : ℕ} (hx : x < fbW) (hy : y < fbH) :
    d.lastPainted fbW fbH x y
      = (d.mode.windows.reverse.find? (d.windowIs fun s => d.Painted fbW fbH s x y)).or
        (d.mode.rootWindow.filter fun root => d.windows[root]?.isSome) := by
  have hroot : Rect.Contains ⟨0, 0, fbW, fbH⟩ x y := by
    simp only [Rect.Contains]
    omega
  unfold lastPainted paintedWindows
  rw [getLast?_eq_head?_reverse, ← filter_reverse, head?_filter,
    reverse_append, find?_append, map_or, find?_toList_reverse]
  congr 1
  · rw [← filterMap_reverse, find?_filterMap]
    have hpainted : ∀ id, ((d.windows[id]?.bind fun s => d.paintedRect s fbW fbH).map
        fun rect => (id, rect)).any (fun painted => decide (painted.2.Contains x y))
          = d.windowIs (fun s => d.Painted fbW fbH s x y) id := by
      intro id
      cases hid : d.windows[id]? with
      | none => simp [windowIs, hid]
      | some surface =>
        cases hrect : d.paintedRect surface fbW fbH <;> simp [windowIs, hid, hrect, Painted]
    simp only [hpainted]
    cases hfind : d.mode.windows.reverse.find? _ with
    | none => rfl
    | some id =>
      have hid := find?_some hfind
      rw [← hpainted id] at hid
      obtain ⟨painted, hsome⟩ := isSome_iff_exists.mp (isSome_of_any hid)
      obtain ⟨rect, -, rfl⟩ := map_eq_some_iff.mp hsome
      rw [bind_some, hsome]
      rfl
  · cases (d.mode.rootWindow.filter fun root => d.windows[root]?.isSome) with
    | none => rfl
    | some root => simp [Option.filter, hroot]

lemma find?_or_ne_some {α : Type} {P : α → Bool} {b : Option α} {l : List α} {i : α}
    (hP : P i = false) (hb : i ∉ b) : (l.find? P).or b ≠ some i := by
  intro h
  cases hfind : l.find? P with
  | none =>
    rw [hfind, none_or] at h
    exact hb h
  | some j =>
    rw [hfind, some_or] at h
    obtain rfl := Option.some.inj h
    rw [find?_some hfind] at hP
    cases hP

/-- Two searches that fall back to something not in the list agree exactly when the first element
that satisfies one of the conditions satisfies both, or, without one, their fallbacks agree. -/
lemma find?_or_eq_iff {α : Type} {P Q : α → Bool} {a b : Option α} {l : List α}
    (ha : ∀ i ∈ a, i ∉ l) (hb : ∀ i ∈ b, i ∉ l) :
    (l.find? P).or a = (l.find? Q).or b
      ↔ match l.find? fun i => P i || Q i with
        | some i => P i = true ∧ Q i = true
        | none => a = b := by
  induction l with
  | nil => rfl
  | cons i l ih =>
    have ih := ih (fun j hj hmem => ha j hj (mem_cons_of_mem _ hmem))
      fun j hj hmem => hb j hj (mem_cons_of_mem _ hmem)
    have hia : i ∉ a := fun h => ha i h mem_cons_self
    have hib : i ∉ b := fun h => hb i h mem_cons_self
    cases hP : P i <;> cases hQ : Q i <;>
      simp only [find?_cons, hP, hQ, Bool.or_true, Bool.or_false, some_or]
    · exact ih
    · exact iff_of_false (find?_or_ne_some hP hia) (by simp)
    · exact iff_of_false (find?_or_ne_some hQ hib).symm (by simp)
    · simp

/-- The topmost window above the root that is hit or painted at the point is both. If there is none,
there is no root window or it is visible with the point in its own rectangle. -/
def TopAgrees (fbW fbH x y : ℕ) : Prop :=
  match d.mode.windows.reverse.find?
      (d.windowIs fun s => Hit s x y ∨ d.Painted fbW fbH s x y) with
  | some id => d.windowIs (fun s => Hit s x y ∧ d.Painted fbW fbH s x y) id = true
  | none => ∀ root surface, d.mode.rootWindow = some root → d.windows[root]? = some surface →
    Hit surface x y

lemma windowIs_or (P Q : WindowSurface → Prop) [DecidablePred P] [DecidablePred Q]
    (id : Uuid) : (d.windowIs P id || d.windowIs Q id) = d.windowIs (fun s => P s ∨ Q s) id := by
  cases h : d.windows[id]? <;> simp [windowIs, h]

/-- The root window is kept by a condition exactly when it satisfies it, if it is there. -/
lemma filter_root_iff (P : WindowSurface → Prop) [DecidablePred P] :
    d.mode.rootWindow.filter (d.windowIs P)
        = d.mode.rootWindow.filter (fun root => d.windows[root]?.isSome)
      ↔ ∀ root surface, d.mode.rootWindow = some root → d.windows[root]? = some surface →
        P surface := by
  cases d.mode.rootWindow with
  | none => simp
  | some root =>
    have hiff : (∀ r surface, some root = some r → d.windows[r]? = some surface → P surface)
        ↔ ∀ surface, d.windows[root]? = some surface → P surface := by
      simp only [Option.some.injEq]
      exact ⟨fun h surface => h root surface rfl, fun h r surface hr => hr ▸ h surface⟩
    rw [hiff]
    cases hsurface : d.windows[root]? with
    | none => simp [Option.filter, windowIs, hsurface]
    | some surface => by_cases hP : P surface <;> simp [Option.filter, windowIs, hsurface, hP]

end Desk

/-- One window in the first mode, large enough for a frame, that is not visible. -/
def hiddenWindow : Desk Unit Unit where
  windows := (∅ : Windows).insert 1#128 {
    window := { defaultWindow 1#128 with visible := false }
    surfaceId := none
    text := ""
    bitmap := none
    scrollY := 0
    scrollbarWidgetId := none
    caret := .default
    titleBarId := none
    closeButtonId := 2#128
    closeButtonPressed := false
    repeat_ := false
    isMono := false
    textColor := none
    bgColor := none }
  modes _ := ⟨none, [1#128], none, by simp⟩
  activeMode := firstMode
  activePlace := none
  activeWindow := none
  wallpapers := ∅
  layers := ∅
  bitmaps := ∅
  layout := .default
  rest := ()

end ThingOS.Compositor
