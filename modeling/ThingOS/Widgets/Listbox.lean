import ThingOS.Compositor.Window
import ThingOS.Widgets.Host

/-!
# The list box

`widgets/listbox_default/src/lib.rs`. The items are drawn in rows of 36 pixels, as many as fit; a
click is taken to be on rows of 24, however many items there are, and up to 23 pixels above the
first row. So a click selects the item that is drawn there only in the upper part of the first two
rows.
-/

namespace ThingOS.Widgets.Listbox

open Ui Compositor

structure ItemState where
  label : String
  iconName : Option String

structure State where
  items : List ItemState
  selectedIndex : ℤ
  focusedIndex : ℤ
  hasFocus : Bool
  valueNode : Option Uuid

/-! ## Drawing -/

/-- What is drawn for an item: the area and its colour, whether it is outlined, and the text. -/
structure Row where
  index : ℕ
  area : Rect
  color : ℕ
  outlined : Bool
  textX : ℤ
  textY : ℤ
  label : String

def State.rowsFrom (state : State) (rect : Rect) : List ItemState → ℕ → ℤ → List Row
  | [], _, _ => []
  | item :: items, i, y =>
    if rect.y + asI32 rect.height < y + 36 then []
    else {
      index := i
      area := ⟨rect.x, y, rect.width, 36⟩
      color := if i = state.selectedIndex then 0xFF4444AA else 0xFF333333
      outlined := i = state.focusedIndex && state.hasFocus
      textX := if item.iconName.isSome then rect.x + 32 else rect.x + 4
      textY := y + (36 - 16) / 2
      label := item.label } :: state.rowsFrom rect items (i + 1) (y + 36)

variable (state : State)

def State.draw (rect : Rect) : List Row :=
  state.rowsFrom rect state.items 0 rect.y

def State.Paints (rect : Rect) (i : ℕ) (y : ℤ) : Prop :=
  ∃ row ∈ state.draw rect, row.index = i ∧ row.area.y ≤ y ∧ y < row.area.y + row.area.height

lemma exists_mem_rowsFrom (rect : Rect) (i : ℕ) (y : ℤ) (items : List ItemState) (k : ℕ) (y0 : ℤ) :
    (∃ row ∈ state.rowsFrom rect items k y0,
        row.index = i ∧ row.area.y ≤ y ∧ y < row.area.y + row.area.height)
      ↔ (k ≤ i ∧ i < k + items.length) ∧ y0 + 36 * (i - k + 1) ≤ rect.y + asI32 rect.height
        ∧ y0 + 36 * (i - k) ≤ y ∧ y < y0 + 36 * (i - k + 1) := by
  induction items generalizing k y0 with
  | nil =>
    refine iff_of_false (by simp [State.rowsFrom]) ?_
    rw [List.length_nil]
    omega
  | cons item items ih =>
    rw [State.rowsFrom, List.length_cons]
    split
    case isTrue hfull =>
      refine iff_of_false (by simp) ?_
      omega
    case isFalse hfits =>
      rw [List.exists_mem_cons_iff, ih]
      push_cast
      omega

/-- A row is painted where it stands among the items, if it fits. -/
lemma State.paints_iff (width height i : ℕ) (y : ℤ) :
    state.Paints ⟨0, 0, width, height⟩ i y ↔ i < state.items.length
      ∧ 36 * (i + 1 : ℤ) ≤ asI32 height ∧ 36 * (i : ℤ) ≤ y ∧ y < 36 * (i + 1 : ℤ) := by
  rw [Paints, draw, exists_mem_rowsFrom]
  push_cast
  omega

/-! ## Events -/

def State.updateSelection : List GraphWrite :=
  state.valueNode.toList.map fun node =>
    .setProps node ((∅ : Map).insert (canon 'S' 'L' 'X') (.i64 state.selectedIndex))

/-- The item that a click is taken to be on. -/
def State.itemAt (y : ℤ) : Option ℤ :=
  let index := y.tdiv 24
  if 0 ≤ index ∧ index < state.items.length then some index else none

def State.handleEvent : InputEvent → State × List GraphWrite
  | .keyDown key =>
    let sym : Symbol := BitVec.ofNat 32 key
    let last : ℤ := state.items.length - 1
    if sym = cc 'A' 'U' then
      ({ state with focusedIndex := if 0 < state.focusedIndex then state.focusedIndex - 1
                                    else state.focusedIndex }, [])
    else if sym = cc 'A' 'D' then
      ({ state with focusedIndex := if state.focusedIndex < last then state.focusedIndex + 1
                                    else state.focusedIndex }, [])
    else if sym = cc 'H' 'M' then ({ state with focusedIndex := 0 }, [])
    else if sym = cc 'E' 'D' then ({ state with focusedIndex := max last 0 }, [])
    else if sym = cc 'E' 'N' ∨ sym = cc ' ' ' ' then
      let state := { state with selectedIndex := state.focusedIndex }
      (state, state.updateSelection)
    else (state, [])
  | .mouseDown _ y _ =>
    match state.itemAt y with
    | none => (state, [])
    | some index =>
      let state := { state with selectedIndex := index, focusedIndex := index, hasFocus := true }
      (state, state.updateSelection)
  | _ => (state, [])

/-- A click selects the item that is painted there, and nothing where none is painted. -/
def State.ClickAccurate (rect : Rect) (y : ℤ) : Prop :=
  (∀ i : ℕ, state.itemAt y = some (i : ℤ) ↔ state.Paints rect i y)
    ∧ ((∀ i, ¬ state.Paints rect i y) →
      ∀ x button, state.handleEvent (.mouseDown x y button) = (state, []))

/-- The coordinate is in the upper part of one of the first two rows and the row is painted, or it
belongs to no item either way. -/
def State.Agrees (height : ℕ) (y : ℤ) : Prop :=
  let rows := min (state.items.length : ℤ) (asI32 height / 36)
  (0 ≤ y ∧ y < 24 ∧ 0 < rows) ∨ (36 ≤ y ∧ y < 48 ∧ 1 < rows)
    ∨ (y ≤ -24 ∨ state.items.length = 0 ∨ 24 * state.items.length ≤ y) ∧ (y < 0 ∨ 36 * rows ≤ y)

lemma State.itemAt_eq_some_iff (i : ℕ) (y : ℤ) :
    state.itemAt y = some (i : ℤ)
      ↔ i < state.items.length ∧ (24 * (i : ℤ) ≤ y ∨ i = 0 ∧ -24 < y) ∧ y < 24 * (i + 1 : ℤ) := by
  have hdiv : y.tdiv 24 = i ↔ (24 * (i : ℤ) ≤ y ∨ i = 0 ∧ -24 < y) ∧ y < 24 * (i + 1 : ℤ) := by
    rcases le_total 0 y with hy | hy
    · rw [Int.tdiv_eq_ediv_of_nonneg hy]
      omega
    · obtain ⟨z, rfl⟩ : ∃ z, y = -z := ⟨-y, by omega⟩
      rw [Int.neg_tdiv, Int.tdiv_eq_ediv_of_nonneg (by omega)]
      omega
  rw [itemAt, Option.ite_none_right_eq_some, Option.some_inj, ← hdiv]
  omega

lemma State.handleEvent_of_itemAt {state : State} {y : ℤ}
    (h : ∀ i : ℕ, state.itemAt y ≠ some (i : ℤ)) (x : ℤ) (button : ℕ) :
    state.handleEvent (.mouseDown x y button) = (state, []) := by
  have hnone : state.itemAt y = none := by
    rw [Option.eq_none_iff_forall_ne_some]
    intro index hindex
    have hindex' := hindex
    rw [itemAt, Option.ite_none_right_eq_some] at hindex
    obtain ⟨⟨hle, -⟩, heq⟩ := hindex
    lift index to ℕ using by
      rw [← Option.some_inj.mp heq]
      exact hle
    exact h index hindex'
  rw [handleEvent, hnone]

/-- A click is accurate in the upper part of the first two rows, and where neither the rows that are
drawn nor those that are clicked reach. -/
theorem click_accurate_iff (state : State) (width height : ℕ) (y : ℤ) :
    state.ClickAccurate ⟨0, 0, width, height⟩ y ↔ state.Agrees height y := by
  have hboth : state.ClickAccurate ⟨0, 0, width, height⟩ y
      ↔ ∀ i : ℕ, state.itemAt y = some (i : ℤ) ↔ state.Paints ⟨0, 0, width, height⟩ i y :=
    and_iff_left_of_imp fun h hnone => State.handleEvent_of_itemAt fun i hi => hnone i ((h i).mp hi)
  rw [hboth, State.Agrees]
  simp only [State.paints_iff, State.itemAt_eq_some_iff]
  constructor
  · intro h
    have h0 := h 0
    have h1 := h 1
    have hclicked := h (y / 24).toNat
    have hdrawn := h (y / 36).toNat
    omega
  · intro h i
    omega

def twoItems : State := ⟨[⟨"a", none⟩, ⟨"b", none⟩], 0, 0, false, none⟩

/-- A click at 30 is on the row of the first item and selects the second. -/
theorem click_selects_next :
    ((twoItems.draw ⟨0, 0, 100, 72⟩).map fun row => (row.index, row.area.y, row.area.height))
        = [(0, 0, 36), (1, 36, 36)]
      ∧ (twoItems.handleEvent (.mouseDown 5 30 0)).1.selectedIndex = 1 := by
  decide

end ThingOS.Widgets.Listbox
