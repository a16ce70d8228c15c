import ThingOS.Compositor.WidgetManager
import ThingOS.Widgets.Host

/-!
# What the user interface writes back

Three places write to window and widget Things that belong to somebody else: the compositor puts the
root window of a place over the whole screen (`enforce_place_layout`), it writes the size that the
layout gave to a widget (`layout_and_draw_children`), and the widget host publishes what it drew.
Each declares the Thing with the fields it wants to set, and a declaration loses every other field.
-/

namespace ThingOS.Compositor

open Ui Host List
open Ui.Declaration (declareAll KeepsOthers keepsOthers_declareAll_iff)

/-- The root window of a place does not cover the screen. -/
def Displaced (place : Uuid) (width height : ℕ) (surface : WindowSurface) : Prop :=
  surface.window.isPlaceRoot = true ∧ surface.window.placeId = some place
    ∧ (surface.window.x ≠ 0 ∨ surface.window.y ≠ 0 ∨ surface.window.width ≠ width
      ∨ surface.window.height ≠ height)
deriving Decidable

/-- The fields of a window that covers the screen. -/
def coverFields (width height : ℕ) : Map :=
  ((((∅ : Map).insert Canon.x (.u64 0)).insert Canon.y (.u64 0)).insert Canon.width
    (.u64 width)).insert Canon.height (.u64 height)

/-- The windows after `enforce_place_layout` on a screen of `width` times `height`, what it declares
and whether the content is dirty. -/
def enforcePlaceLayout (activePlace : Option Uuid) (width height : ℕ) (windows : Windows) :
    Windows × List Declaration × Bool :=
  match activePlace with
  | none => (windows, [], false)
  | some place =>
    let cover := fun surface : WindowSurface =>
      { surface with window := { surface.window with x := 0, y := 0, width, height } }
    let displaced := (mapValues windows).filter fun surface => Displaced place width height surface
    (windows.map fun _ surface => if Displaced place width height surface then cover surface
      else surface,
      displaced.map fun surface => ⟨surface.window.id, Canon.window, coverFields width height⟩,
      !displaced.isEmpty)

def widthChanged (child : Widget) (rect : Rect) : Bool :=
  (child.width.map fun w => decide (asU32 w ≠ rect.width)).getD true

def heightChanged (child : Widget) (rect : Rect) : Bool :=
  (child.height.map fun h => decide (asU32 h ≠ rect.height)).getD true

def sizeFields (child : Widget) (rect : Rect) : Map :=
  let updates :=
    if widthChanged child rect then (∅ : Map).insert Canon.width (.u64 rect.width) else ∅
  if heightChanged child rect then updates.insert Canon.height (.u64 rect.height) else updates

/-- The widget is backed by the graph and the layout gave it another size. -/
def Resized (child : Widget) (rect : Rect) : Prop :=
  child.kind.isSome = true ∧ (widthChanged child rect = true ∨ heightChanged child rect = true)
deriving Decidable

/-- The size write-back of `layout_and_draw_children`, for the rectangles of the layout. -/
def sizeWriteBack (widgets : Std.ExtTreeMap Uuid Widget compare) (rects : List (Uuid × Rect)) :
    List Declaration :=
  rects.filterMap fun (id, rect) =>
    match widgets[id]? with
    | some child =>
      if Resized child rect then some ⟨id, Canon.widget, sizeFields child rect⟩ else none
    | none => none

/-! ## What is declared -/

lemma coverFields_of_notMem {width height : ℕ} {key : Symbol}
    (h : key ∉ [Canon.x, Canon.y, Canon.width, Canon.height]) :
    (coverFields width height)[key]? = none := by
  simp only [mem_cons, not_mem_nil, or_false, not_or] at h
  obtain ⟨hx, hy, hw, hh⟩ := h
  simp [coverFields, Ne.symm hx, Ne.symm hy, Ne.symm hw, Ne.symm hh]

lemma sizeFields_of_notMem {child : Widget} {rect : Rect} {key : Symbol}
    (h : key ∉ [Canon.width, Canon.height]) : (sizeFields child rect)[key]? = none := by
  simp only [mem_cons, not_mem_nil, or_false, not_or] at h
  obtain ⟨hw, hh⟩ := h
  unfold sizeFields
  split <;> split <;> simp [Ne.symm hw, Ne.symm hh]

def publishedNames (kind : Widgets.WidgetKind) : List Symbol :=
  if kind = .checkbox then [Canon.bitmap, Widgets.checkedSymbol] else [Canon.bitmap]

def publishedUnder {k : Widgets.Toolkit} (h : Widgets.WidgetHost k) (id : Uuid) : List Symbol :=
  match h.widgets[id]? with
  | some current => publishedNames current.kind
  | none => []

lemma publishedFields_of_notMem {k : Widgets.Toolkit} {current : Widgets.WidgetInstance k}
    {key : Symbol} (h : key ∉ publishedNames current.kind) :
    (Widgets.WidgetHost.publishedFields current)[key]? = none := by
  unfold publishedNames at h
  unfold Widgets.WidgetHost.publishedFields
  split at h
  · rename_i hkind
    simp only [mem_cons, not_mem_nil, or_false, not_or] at h
    simp [hkind, Ne.symm h.1, Ne.symm h.2]
  · rename_i hkind
    rw [mem_singleton] at h
    simp [hkind, Ne.symm h]

/-! ## The frame law -/

variable {s : InMemoryGraphStore} {id : Uuid}

lemma enforcePlaceLayout_keeps_iff (activePlace : Option Uuid) (width height : ℕ)
    (windows : Windows) :
    KeepsOthers [Canon.x, Canon.y, Canon.width, Canon.height] id s
        (declareAll s (enforcePlaceLayout activePlace width height windows).2.1)
      ↔ (∀ place, activePlace = some place → ∀ surface ∈ mapValues windows,
          surface.window.id = id → ¬ Displaced place width height surface)
        ∨ ∀ key, key ∉ [Canon.x, Canon.y, Canon.width, Canon.height] → fieldOf s id key = none := by
  have hnamed : ∀ d ∈ (enforcePlaceLayout activePlace width height windows).2.1, d.id = id →
      ∀ key, key ∉ [Canon.x, Canon.y, Canon.width, Canon.height] → d.fields[key]? = none := by
    intro d hd _ key hkey
    cases activePlace with
    | none => simp [enforcePlaceLayout] at hd
    | some place =>
      obtain ⟨surface, -, rfl⟩ := mem_map.mp hd
      exact coverFields_of_notMem hkey
  rw [keepsOthers_declareAll_iff hnamed]
  refine or_congr_left ?_
  cases activePlace with
  | none => simp [enforcePlaceLayout]
  | some place =>
    simp only [enforcePlaceLayout, mem_map, mem_filter, decide_eq_true_eq,
      Option.some_inj]
    constructor
    · rintro h _ rfl surface hsurface hid hdisplaced
      exact h _ ⟨surface, ⟨hsurface, hdisplaced⟩, rfl⟩ hid
    · rintro h _ ⟨surface, ⟨hsurface, hdisplaced⟩, rfl⟩ hid
      exact h place rfl surface hsurface hid hdisplaced

lemma sizeWriteBack_keeps_iff (widgets : Std.ExtTreeMap Uuid Widget compare)
    (rects : List (Uuid × Rect)) :
    KeepsOthers [Canon.width, Canon.height] id s (declareAll s (sizeWriteBack widgets rects))
      ↔ (∀ child rect, widgets[id]? = some child → (id, rect) ∈ rects → ¬ Resized child rect)
        ∨ ∀ key, key ∉ [Canon.width, Canon.height] → fieldOf s id key = none := by
  have hmem : ∀ d, d ∈ sizeWriteBack widgets rects ↔ ∃ rect child, (d.id, rect) ∈ rects
      ∧ widgets[d.id]? = some child ∧ Resized child rect
      ∧ d = ⟨d.id, Canon.widget, sizeFields child rect⟩ := by
    intro d
    rw [sizeWriteBack, mem_filterMap]
    constructor
    · grind
    · grind
  rw [keepsOthers_declareAll_iff]
  · refine or_congr_left ⟨?_, ?_⟩
    · intro h child rect hchild hrect hresized
      exact h _ ((hmem ⟨id, Canon.widget, sizeFields child rect⟩).mpr
        ⟨rect, child, hrect, hchild, hresized, rfl⟩) rfl
    · rintro h d hd rfl
      obtain ⟨rect, child, hrect, hchild, hresized, -⟩ := (hmem d).mp hd
      exact h child rect hchild hrect hresized
  · intro d hd _ key hkey
    obtain ⟨rect, child, -, -, -, heq⟩ := (hmem d).mp hd
    rw [heq]
    exact sizeFields_of_notMem hkey

lemma publish_keeps_iff {k : Widgets.Toolkit} (h : Widgets.WidgetHost k) :
    KeepsOthers (publishedUnder h id) id s (declareAll s h.tick.2)
      ↔ h.widgets[id]? = none ∨ ∀ key, key ∉ publishedUnder h id → fieldOf s id key = none := by
  rw [keepsOthers_declareAll_iff]
  · refine or_congr_left ⟨?_, ?_⟩
    · intro hne
      rw [Option.eq_none_iff_forall_ne_some]
      intro current hcurrent
      exact hne _ (mem_map.mpr ⟨(id, current),
        Std.ExtTreeMap.mem_toList_iff_getElem?_eq_some.mpr hcurrent, rfl⟩) rfl
    · rintro hnone d hd rfl
      obtain ⟨⟨other, current⟩, hmem, rfl⟩ := mem_map.mp hd
      rw [Std.ExtTreeMap.mem_toList_iff_getElem?_eq_some.mp hmem] at hnone
      cases hnone
  · rintro d hd rfl key hkey
    obtain ⟨⟨other, current⟩, hmem, rfl⟩ := mem_map.mp hd
    have hcurrent : h.widgets[other]? = some current :=
      Std.ExtTreeMap.mem_toList_iff_getElem?_eq_some.mp hmem
    have hnames : publishedUnder h other = publishedNames (h.drawn other current).kind := by
      simp only [publishedUnder, hcurrent]
      rfl
    rw [hnames] at hkey
    exact publishedFields_of_notMem hkey

/-- Each of the three updates keeps the other fields of a Thing exactly when it does not reach the
Thing or there are no other fields. -/
theorem ui_updates_keep_iff (s : InMemoryGraphStore) (id : Uuid) :
    (∀ (activePlace : Option Uuid) (width height : ℕ) (windows : Windows),
      KeepsOthers [Canon.x, Canon.y, Canon.width, Canon.height] id s
          (declareAll s (enforcePlaceLayout activePlace width height windows).2.1)
        ↔ (∀ place, activePlace = some place → ∀ surface ∈ mapValues windows,
            surface.window.id = id → ¬ Displaced place width height surface)
          ∨ ∀ key, key ∉ [Canon.x, Canon.y, Canon.width, Canon.height] → fieldOf s id key = none)
    ∧ (∀ (widgets : Std.ExtTreeMap Uuid Widget compare) (rects : List (Uuid × Rect)),
      KeepsOthers [Canon.width, Canon.height] id s (declareAll s (sizeWriteBack widgets rects))
        ↔ (∀ child rect, widgets[id]? = some child → (id, rect) ∈ rects → ¬ Resized child rect)
          ∨ ∀ key, key ∉ [Canon.width, Canon.height] → fieldOf s id key = none)
    ∧ ∀ (k : Widgets.Toolkit) (h : Widgets.WidgetHost k),
      KeepsOthers (publishedUnder h id) id s (declareAll s h.tick.2)
        ↔ h.widgets[id]? = none ∨ ∀ key, key ∉ publishedUnder h id → fieldOf s id key = none :=
  ⟨enforcePlaceLayout_keeps_iff, sizeWriteBack_keeps_iff, fun _ h => publish_keeps_iff h⟩

def titled (kind : Symbol) : InMemoryGraphStore :=
  declareAll .new [⟨1#128, kind, (∅ : Map).insert Canon.title (.text "sky")⟩]

/-- The root window of the place 2, as the compositor takes it from `titled`. -/
def skyWindow : WindowSurface where
  window := { defaultWindow 1#128 with title := "sky", isPlaceRoot := true, placeId := some 2#128 }
  surfaceId := none
  text := ""
  bitmap := none
  scrollY := 0
  scrollbarWidgetId := none
  caret := .default
  titleBarId := none
  closeButtonId := 0
  closeButtonPressed := false
  repeat_ := false
  isMono := false
  textColor := none
  bgColor := none

/-- The title is lost to each of the updates. -/
theorem title_lost :
    (fieldOf (titled Canon.window) 1#128 Canon.title = some (.text "sky")
      ∧ fieldOf (declareAll (titled Canon.window) (enforcePlaceLayout (some 2#128) 640 480
        ((∅ : Windows).insert 1#128 skyWindow)).2.1) 1#128 Canon.title = none)
    ∧ (fieldOf (titled Canon.widget) 1#128 Canon.title = some (.text "sky")
      ∧ fieldOf (declareAll (titled Canon.widget) (sizeWriteBack
        ((∅ : Std.ExtTreeMap Uuid Widget compare).insert 1#128
          { Widget.blank 1#128 with kind := some "button" })
        [(1#128, ⟨0, 0, 30, 20⟩)])) 1#128 Canon.title = none
      ∧ fieldOf (declareAll (titled Canon.widget)
        (Widgets.WidgetHost.tick (k := Widgets.idleToolkit)
          ⟨(∅ : Std.ExtTreeMap Uuid (Widgets.WidgetInstance Widgets.idleToolkit) compare).insert
            1#128 ⟨.checkbox, (), [], 0, 0, false⟩, none⟩).2) 1#128 Canon.title = none) := by
  decide +kernel

end ThingOS.Compositor
