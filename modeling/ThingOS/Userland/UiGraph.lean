import ThingOS.Abi.Graph
import ThingOS.Userland.Canon

/-!
# Widgets, windows and surfaces as they are read from the graph

`Widget` of `userland/src/ui_graph.rs`, `Window` and `Surface` of `userland/src/graph.rs`, and the
layout hints of `userland/src/flex.rs`, read from the fields of a Thing. A field that is missing or
of another type reads as `none` and the record takes a default; in an update of a `Widget` it leaves
the record as it was.

The fields that hold an `f32` are only ever cast from an `i64`, so that they stand here as whole
numbers.
-/

namespace ThingOS

open Value Option

/-! ## Casts -/

def asI32 (n : ℤ) : ℤ := n.bmod (2 ^ 32)

def InI32 (v : ℤ) : Prop := -2 ^ 31 ≤ v ∧ v < 2 ^ 31

instance instDecidableInI32 (v : ℤ) : Decidable (InI32 v) := inferInstanceAs (Decidable (_ ∧ _))

lemma inI32_asI32 (n : ℤ) : InI32 (asI32 n) := by
  unfold InI32
  rw [asI32, Int.bmod_def]
  omega

lemma asI32_eq {n v : ℤ} (hv : InI32 v) (hn : n % 2 ^ 32 = v % 2 ^ 32) : asI32 n = v := by
  unfold InI32 at hv
  rw [asI32, Int.bmod_def]
  omega

lemma asI32_of_inI32 {n : ℤ} (h : InI32 n) : asI32 n = n := asI32_eq h rfl

def asU32 (n : ℤ) : ℕ := (n % 2 ^ 32).toNat

def asU8 (n : ℤ) : ℕ := (n % 2 ^ 8).toNat

/-- The nearest number with a significand of 24 bits, ties to even. -/
def roundF32 (m : ℕ) : ℕ :=
  let unit := 2 ^ (m.log2 - 23)
  let q := m / unit
  let r := m % unit
  if unit < 2 * r ∨ (2 * r = unit ∧ q % 2 = 1) then (q + 1) * unit else q * unit

def asF32 (n : ℤ) : ℤ := n.sign * roundF32 n.natAbs

/-! ## Reading values -/

namespace Value

def fromUtf8 (bytes : List UInt8) : Option String := String.fromUTF8? ⟨bytes.toArray⟩

mutual

def extractText : Value → Option String
  | .text s => some s
  | .bytes b => fromUtf8 b
  | .map m => extractEntry m
  | _ => none

/-- `m.get(&canon::TEXT).and_then(extract_text)`. -/
def extractEntry : List (Symbol × Value) → Option String
  | [] => none
  | (k, v) :: m => if k = Canon.text then extractText v else extractEntry m

end

/-- `value_as_str` of the layout hints: a map is not looked into. -/
def valueAsStr : Value → Option String
  | .text s => some s
  | .bytes b => fromUtf8 b
  | _ => none

def asBytes : Value → Option (List UInt8)
  | .bytes b => some b
  | _ => none

lemma fromUtf8_toUtf8 (s : String) : fromUtf8 s.toUTF8.data.toList = some s := by
  have hvalid : ByteArray.IsValidUTF8 ⟨s.toUTF8.data⟩ := String.isValidUTF8 s
  rw [fromUtf8, Array.toArray_toList, String.fromUTF8?, dif_pos hvalid]
  rfl

end Value

/-- A field, as far as `read` understands it. -/
def GraphThing.field {α : Type} (thing : GraphThing) (key : Symbol) (read : Value → Option α) :
    Option α :=
  thing.fields[key]?.bind read

namespace Ui

/-! ## Layout hints -/

/-- `from_value` of a layout hint. -/
def hintFromValue {α : Type} (fromStr : String → Option α) (v : Value) : Option α :=
  v.valueAsStr.bind fromStr

inductive FlexDirection where
  | row
  | column
deriving DecidableEq

def FlexDirection.fromStr : String → Option FlexDirection
  | "row" => some row
  | "column" => some column
  | _ => none

def FlexDirection.fromValue : Value → Option FlexDirection := hintFromValue fromStr

inductive FlexWrap where
  | noWrap
  | wrap
deriving DecidableEq

def FlexWrap.fromStr : String → Option FlexWrap
  | "nowrap" => some noWrap
  | "wrap" => some wrap
  | _ => none

def FlexWrap.fromValue : Value → Option FlexWrap := hintFromValue fromStr

inductive JustifyContent where
  | start
  | center
  | end_
  | spaceBetween
  | spaceAround
deriving DecidableEq

def JustifyContent.fromStr : String → Option JustifyContent
  | "start" | "flex-start" => some start
  | "center" => some center
  | "end" | "flex-end" => some end_
  | "space-between" => some spaceBetween
  | "space-around" => some spaceAround
  | _ => none

def JustifyContent.fromValue : Value → Option JustifyContent := hintFromValue fromStr

inductive AlignItems where
  | start
  | center
  | end_
  | stretch
deriving DecidableEq

def AlignItems.fromStr : String → Option AlignItems
  | "start" | "flex-start" => some start
  | "center" => some center
  | "end" | "flex-end" => some end_
  | "stretch" => some stretch
  | _ => none

def AlignItems.fromValue : Value → Option AlignItems := hintFromValue fromStr

/-! ## Widgets -/

structure Widget where
  id : Uuid
  role : String
  kind : Option String
  parent : Option Uuid
  visible : Bool
  enabled : Bool
  label : Option String
  icon : Option String
  action : Option String
  description : Option String
  focusable : Bool
  tabIndex : Option ℤ
  bitmap : Option (List UInt8)
  width : Option ℕ
  height : Option ℕ
  minWidth : Option ℕ
  minHeight : Option ℕ
  maxWidth : Option ℕ
  maxHeight : Option ℕ
  x : Option ℕ
  y : Option ℕ
  flexDirection : Option FlexDirection
  flexWrap : Option FlexWrap
  justifyContent : Option JustifyContent
  alignItems : Option AlignItems
  flexGrow : Option ℤ
  flexShrink : Option ℤ
  gap : Option ℤ
deriving DecidableEq

namespace Widget

variable (thing : GraphThing)

/-- The role, or the widget's kind in its place. -/
def readRole : Option String :=
  (thing.field Canon.role extractText).or (thing.field (cc 'W' 'K') extractText)

/-- The label. An unreadable `LABEL` hides the `ITEM_LABEL`. -/
def readLabel : Option String :=
  (thing.fields[Canon.label]?.or thing.fields[Canon.itemLabel]?).bind extractText

/-- The bitmap, found like the label. -/
def readBitmap : Option (List UInt8) :=
  (thing.fields[Canon.bitmap]?.or thing.fields[cc 'I' 'D']?).bind asBytes

/-- What a Thing says is taken over, the rest stays. -/
def update (w : Widget) (thing : GraphThing) : Widget :=
  { w with
    role := (readRole thing).getD w.role
    kind := (thing.field (cc 'W' 'K') extractText).or w.kind
    parent := (thing.field Canon.parent asUuid).or w.parent
    visible := (thing.field Canon.visible asBool).getD w.visible
    enabled := (thing.field Canon.active asBool).getD w.enabled
    label := (readLabel thing).or w.label
    icon := (thing.field Canon.iconName extractText).or w.icon
    action := (thing.field Canon.action extractText).or w.action
    description := (thing.field Canon.description extractText).or w.description
    focusable := (thing.field Canon.focusable asBool).getD w.focusable
    tabIndex := (thing.field Canon.tabIndex asI64).or w.tabIndex
    bitmap := (readBitmap thing).or w.bitmap
    width := (thing.field Canon.width asU64).or w.width
    height := (thing.field Canon.height asU64).or w.height
    minWidth := (thing.field Canon.minWidth asU64).or w.minWidth
    maxWidth := (thing.field Canon.maxWidth asU64).or w.maxWidth
    minHeight := (thing.field Canon.minHeight asU64).or w.minHeight
    maxHeight := (thing.field Canon.maxHeight asU64).or w.maxHeight
    x := (thing.field Canon.x asU64).or w.x
    y := (thing.field Canon.y asU64).or w.y
    flexDirection := (thing.field (cc 'F' 'D') FlexDirection.fromValue).or w.flexDirection
    flexWrap := (thing.field (cc 'F' 'W') FlexWrap.fromValue).or w.flexWrap
    justifyContent := (thing.field (cc 'J' 'C') JustifyContent.fromValue).or w.justifyContent
    alignItems := (thing.field (cc 'A' 'I') AlignItems.fromValue).or w.alignItems
    flexGrow := ((thing.field (cc 'F' 'G') asI64).map asF32).or w.flexGrow
    flexShrink := ((thing.field (cc 'F' 'S') asI64).map asF32).or w.flexShrink
    gap := ((thing.field Canon.gap asI64).map asI32).or w.gap }

def load : Option Widget :=
  if thing.kind ≠ Canon.widget then none
  else some {
    id := thing.id
    role := (readRole thing).getD ""
    kind := thing.field (cc 'W' 'K') extractText
    parent := thing.field Canon.parent asUuid
    visible := (thing.field Canon.visible asBool).getD true
    enabled := (thing.field Canon.active asBool).getD true
    label := readLabel thing
    icon := thing.field Canon.iconName extractText
    action := thing.field Canon.action extractText
    description := thing.field Canon.description extractText
    focusable := (thing.field Canon.focusable asBool).getD false
    tabIndex := thing.field Canon.tabIndex asI64
    bitmap := readBitmap thing
    width := thing.field Canon.width asU64
    height := thing.field Canon.height asU64
    minWidth := thing.field Canon.minWidth asU64
    minHeight := thing.field Canon.minHeight asU64
    maxWidth := thing.field Canon.maxWidth asU64
    maxHeight := thing.field Canon.maxHeight asU64
    x := thing.field Canon.x asU64
    y := thing.field Canon.y asU64
    flexDirection := thing.field (cc 'F' 'D') FlexDirection.fromValue
    flexWrap := thing.field (cc 'F' 'W') FlexWrap.fromValue
    justifyContent := thing.field (cc 'J' 'C') JustifyContent.fromValue
    alignItems := thing.field (cc 'A' 'I') AlignItems.fromValue
    flexGrow := (thing.field (cc 'F' 'G') asI64).map asF32
    flexShrink := (thing.field (cc 'F' 'S') asI64).map asF32
    gap := (thing.field Canon.gap asI64).map asI32 }

/-- What `load` makes of a Thing without fields. -/
def blank (id : Uuid) : Widget where
  id := id
  role := ""
  kind := none
  parent := none
  visible := true
  enabled := true
  label := none
  icon := none
  action := none
  description := none
  focusable := false
  tabIndex := none
  bitmap := none
  width := none
  height := none
  minWidth := none
  minHeight := none
  maxWidth := none
  maxHeight := none
  x := none
  y := none
  flexDirection := none
  flexWrap := none
  justifyContent := none
  alignItems := none
  flexGrow := none
  flexShrink := none
  gap := none

lemma load_eq (h : thing.kind = Canon.widget) :
    load thing = some ((blank thing.id).update thing) := by
  rw [load, if_neg (not_not_intro h)]
  simp only [update, blank, or_none]

/-! ### Attributes -/

/-- The attributes of a widget. -/
inductive Attribute where
  | role | kind | parent | visible | enabled | label | icon | action | description | focusable
  | tabIndex | bitmap | width | height | minWidth | minHeight | maxWidth | maxHeight | x | y
  | flexDirection | flexWrap | justifyContent | alignItems | flexGrow | flexShrink | gap

namespace Attribute

def type : Attribute → Type
  | role => String
  | visible | enabled | focusable => Bool
  | kind | label | icon | action | description => Option String
  | parent => Option Uuid
  | bitmap => Option (List UInt8)
  | width | height | minWidth | minHeight | maxWidth | maxHeight | x | y => Option ℕ
  | flexDirection => Option FlexDirection
  | flexWrap => Option FlexWrap
  | justifyContent => Option JustifyContent
  | alignItems => Option AlignItems
  | tabIndex | flexGrow | flexShrink | gap => Option ℤ

/-- What a Thing says about an attribute. An attribute that may be absent cannot be made so: what is
read is always a value. -/
def read : (a : Attribute) → Option a.type
  | role => readRole thing
  | kind => (thing.field (cc 'W' 'K') extractText).map some
  | parent => (thing.field Canon.parent asUuid).map some
  | visible => thing.field Canon.visible asBool
  | enabled => thing.field Canon.active asBool
  | label => (readLabel thing).map some
  | icon => (thing.field Canon.iconName extractText).map some
  | action => (thing.field Canon.action extractText).map some
  | description => (thing.field Canon.description extractText).map some
  | focusable => thing.field Canon.focusable asBool
  | tabIndex => (thing.field Canon.tabIndex asI64).map some
  | bitmap => (readBitmap thing).map some
  | width => (thing.field Canon.width asU64).map some
  | height => (thing.field Canon.height asU64).map some
  | minWidth => (thing.field Canon.minWidth asU64).map some
  | minHeight => (thing.field Canon.minHeight asU64).map some
  | maxWidth => (thing.field Canon.maxWidth asU64).map some
  | maxHeight => (thing.field Canon.maxHeight asU64).map some
  | x => (thing.field Canon.x asU64).map some
  | y => (thing.field Canon.y asU64).map some
  | flexDirection => (thing.field (cc 'F' 'D') FlexDirection.fromValue).map some
  | flexWrap => (thing.field (cc 'F' 'W') FlexWrap.fromValue).map some
  | justifyContent => (thing.field (cc 'J' 'C') JustifyContent.fromValue).map some
  | alignItems => (thing.field (cc 'A' 'I') AlignItems.fromValue).map some
  | flexGrow => ((thing.field (cc 'F' 'G') asI64).map asF32).map some
  | flexShrink => ((thing.field (cc 'F' 'S') asI64).map asF32).map some
  | gap => ((thing.field Canon.gap asI64).map asI32).map some

end Attribute

/-- The attributes of a widget, all that is in it besides the id. -/
def get (w : Widget) : (a : Attribute) → a.type
  | .role => w.role
  | .kind => w.kind
  | .parent => w.parent
  | .visible => w.visible
  | .enabled => w.enabled
  | .label => w.label
  | .icon => w.icon
  | .action => w.action
  | .description => w.description
  | .focusable => w.focusable
  | .tabIndex => w.tabIndex
  | .bitmap => w.bitmap
  | .width => w.width
  | .height => w.height
  | .minWidth => w.minWidth
  | .minHeight => w.minHeight
  | .maxWidth => w.maxWidth
  | .maxHeight => w.maxHeight
  | .x => w.x
  | .y => w.y
  | .flexDirection => w.flexDirection
  | .flexWrap => w.flexWrap
  | .justifyContent => w.justifyContent
  | .alignItems => w.alignItems
  | .flexGrow => w.flexGrow
  | .flexShrink => w.flexShrink
  | .gap => w.gap

@[simp] lemma update_id (w : Widget) (thing : GraphThing) : (w.update thing).id = w.id := rfl

lemma eq_iff_get {v w : Widget} (hid : v.id = w.id) : v = w ↔ v.get = w.get := by
  refine ⟨congrArg get, fun h => ?_⟩
  have hget := congrFun h
  cases v
  cases w
  rw [mk.injEq]
  exact ⟨hid, hget .role, hget .kind, hget .parent, hget .visible, hget .enabled, hget .label,
    hget .icon, hget .action, hget .description, hget .focusable, hget .tabIndex, hget .bitmap,
    hget .width, hget .height, hget .minWidth, hget .minHeight, hget .maxWidth, hget .maxHeight,
    hget .x, hget .y, hget .flexDirection, hget .flexWrap, hget .justifyContent, hget .alignItems,
    hget .flexGrow, hget .flexShrink, hget .gap⟩

/-- An attribute that may be absent is kept when nothing is read. -/
lemma or_eq_getD_map {α : Type} (o p : Option α) : o.or p = (o.map some).getD p := by
  cases o <;> rfl

/-- An update takes over what the Thing says, attribute by attribute. -/
lemma get_update (w : Widget) (thing : GraphThing) (a : Attribute) :
    (w.update thing).get a = (a.read thing).getD (w.get a) := by
  cases a
  case role | visible | enabled | focusable => rfl
  all_goals exact or_eq_getD_map _ _

end Widget

/-! ## Windows -/

/-- `get_i64` of a map's entry: a `U64` that fits is taken too. -/
def getI64 : Value → Option ℤ
  | .i64 n => some n
  | .u64 n => if n < 2 ^ 63 then some n else none
  | _ => none

def mapI64 (m : List (Symbol × Value)) (key : Symbol) : ℤ := ((m.lookup key).bind getI64).getD 0

structure WindowRect where
  x : ℤ
  y : ℤ
  width : ℤ
  height : ℤ
  visible : Bool

def WindowRect.fromValue : Value → Option WindowRect
  | .map m => some {
      x := mapI64 m Canon.x
      y := mapI64 m Canon.y
      width := mapI64 m Canon.width
      height := mapI64 m Canon.height
      visible := ((m.lookup Canon.visible).bind asBool).getD true }
  | _ => none

structure Window where
  id : Uuid
  width : ℕ
  height : ℕ
  title : String
  x : ℕ
  y : ℕ
  z : ℤ
  visible : Bool
  target : Option Uuid
  active : Bool
  isRoot : Bool
  isPlaceRoot : Bool
  placeId : Option Uuid
  modeIndex : Option ℕ
  windowRect : Option WindowRect
  gap : Option ℤ
  flexDirection : Option FlexDirection
  justifyContent : Option JustifyContent
  alignItems : Option AlignItems
  tileMode : Option Bool

def Window.load (thing : GraphThing) : Option Window :=
  if thing.kind ≠ Canon.window then none
  else some {
    id := thing.id
    width := (thing.field Canon.width asU64).getD 0
    height := (thing.field Canon.height asU64).getD 0
    title := (thing.field Canon.title extractText).getD ""
    x := (thing.field Canon.x asU64).getD 0
    y := (thing.field Canon.y asU64).getD 0
    z := (thing.field Canon.z asI64).getD 0
    visible := (thing.field Canon.visible asBool).getD true
    target := thing.field Canon.target asUuid
    active := (thing.field Canon.active asBool).getD false
    isRoot := (thing.field Canon.isRoot asBool).getD false
    isPlaceRoot := (thing.field Canon.isPlaceRoot asBool).getD false
    placeId := thing.field Canon.place asUuid
    modeIndex := (thing.field Canon.modeIndex asI64).map asU8
    windowRect := thing.field Canon.windowRect WindowRect.fromValue
    gap := (thing.field Canon.gap asI64).map asI32
    flexDirection := thing.field (cc 'F' 'D') FlexDirection.fromValue
    justifyContent := thing.field (cc 'J' 'C') JustifyContent.fromValue
    alignItems := thing.field (cc 'A' 'I') AlignItems.fromValue
    tileMode := thing.field Canon.tileMode asBool }

/-! ## Windows written to the graph -/

def FlexDirection.asStr : FlexDirection → String
  | row => "row"
  | column => "column"

def JustifyContent.asStr : JustifyContent → String
  | start => "start"
  | center => "center"
  | end_ => "end"
  | spaceBetween => "space-between"
  | spaceAround => "space-around"

def AlignItems.asStr : AlignItems → String
  | start => "start"
  | center => "center"
  | end_ => "end"
  | stretch => "stretch"

/-- `to_value`. The map of a `Value` lists its entries in the order of their keys. -/
def WindowRect.toValue (rect : WindowRect) : Value :=
  .map ((((((∅ : Map).insert Canon.x (.i64 rect.x)).insert Canon.y (.i64 rect.y)).insert
    Canon.width (.i64 rect.width)).insert Canon.height (.i64 rect.height)).insert
    Canon.visible (.bool rect.visible)).toList

/-- `if let Some(v) = v { map.insert(key, v) }`. -/
def insertSome (m : Map) (key : Symbol) : Option Value → Map
  | none => m
  | some v => m.insert key v

lemma getElem?_insertSome (m : Map) (key k : Symbol) (v : Option Value) :
    (insertSome m key v)[k]? = if key = k then v.or m[k]? else m[k]? := by
  cases v with
  | none => simp [insertSome]
  | some v => simp [insertSome, Std.ExtTreeMap.getElem?_insert]

def Window.toFields (w : Window) : Map :=
  let map := (∅ : Map).insert Canon.width (.u64 w.width)
  let map := map.insert Canon.height (.u64 w.height)
  let map := map.insert Canon.title (.text w.title)
  let map := map.insert Canon.x (.u64 w.x)
  let map := map.insert Canon.y (.u64 w.y)
  let map := map.insert Canon.z (.i64 w.z)
  let map := map.insert Canon.visible (.bool w.visible)
  let map := map.insert Canon.active (.bool w.active)
  let map := map.insert Canon.isRoot (.bool w.isRoot)
  let map := map.insert Canon.isPlaceRoot (.bool w.isPlaceRoot)
  let map := insertSome map Canon.place (w.placeId.map .uuid)
  let map := insertSome map Canon.modeIndex (w.modeIndex.map fun i : ℕ => .i64 i)
  let map := insertSome map Canon.target (w.target.map .uuid)
  let map := insertSome map Canon.windowRect (w.windowRect.map WindowRect.toValue)
  let map := insertSome map Canon.gap (w.gap.map .i64)
  let map := insertSome map (cc 'F' 'D') (w.flexDirection.map fun d => .text d.asStr)
  let map := insertSome map (cc 'J' 'C') (w.justifyContent.map fun j => .text j.asStr)
  let map := insertSome map (cc 'A' 'I') (w.alignItems.map fun a => .text a.asStr)
  insertSome map Canon.tileMode (w.tileMode.map .bool)

lemma bind_map_eq {α : Type} {f : α → Value} {r : Value → Option α} {v : Option α}
    (h : ∀ a ∈ v, r (f a) = some a) : (v.map f).bind r = v := by
  cases v with
  | none => rfl
  | some a => exact h a rfl

/-- A window is read back as it was written. -/
theorem window_round_trip (w : Window) (hmode : ∀ i ∈ w.modeIndex, i < 2 ^ 8)
    (hgap : ∀ g ∈ w.gap, InI32 g) (thing : GraphThing) (hkind : thing.kind = Canon.window)
    (hid : thing.id = w.id) (hfields : thing.fields = w.toFields) :
    Window.load thing = some w := by
  have hdir : ∀ d ∈ w.flexDirection, FlexDirection.fromValue (.text d.asStr) = some d := by
    rintro (_ | _) - <;> rfl
  have hjustify : ∀ j ∈ w.justifyContent, JustifyContent.fromValue (.text j.asStr) = some j := by
    rintro (_ | _ | _ | _ | _) - <;> rfl
  have halign : ∀ a ∈ w.alignItems, AlignItems.fromValue (.text a.asStr) = some a := by
    rintro (_ | _ | _ | _) - <;> rfl
  have hmode' : ∀ i ∈ w.modeIndex, (asI64 (.i64 i)).map asU8 = some i := by
    intro i hi
    have := hmode i hi
    simp only [asI64, map_some, asU8, some_inj]
    omega
  have hgap' : ∀ g ∈ w.gap, (asI64 (.i64 g)).map asI32 = some g :=
    fun g hg => congrArg some (asI32_of_inI32 (hgap g hg))
  -- no two of the keys are the same, so that each field is found under its own
  have hfield {α : Type} (k : Symbol) (read : Value → Option α) :
      thing.field k read = w.toFields[k]?.bind read := by rw [GraphThing.field, hfields]
  simp +decide only [Window.load, hkind, hid, hfield, Window.toFields, getElem?_insertSome,
    Std.ExtTreeMap.getElem?_insert, if_true, if_false, bind_some, asU64, asI64,
    asBool, extractText, getD_some, Std.ExtTreeMap.getElem?_empty,
    or_none, map_bind]
  rw [bind_map_eq (r := asUuid) fun _ _ => rfl,
    bind_map_eq (r := asUuid) fun _ _ => rfl, bind_map_eq hmode',
    bind_map_eq (r := WindowRect.fromValue) fun _ _ => rfl, bind_map_eq hgap', bind_map_eq hdir,
    bind_map_eq hjustify, bind_map_eq halign, bind_map_eq (r := asBool) fun _ _ => rfl]

/-- A window with every field set. -/
def fullWindow : Window where
  id := 5
  width := 320
  height := 200
  title := "Notes"
  x := 32
  y := 24
  z := -1
  visible := false
  target := some 6
  active := true
  isRoot := true
  isPlaceRoot := true
  placeId := some 7
  modeIndex := some 255
  windowRect := some ⟨-1, 2, 3, 4, false⟩
  gap := some (-4)
  flexDirection := some .column
  justifyContent := some .spaceAround
  alignItems := some .stretch
  tileMode := some false

theorem window_round_trip_fullWindow :
    Window.load ⟨5, Canon.window, ∅, fullWindow.toFields, 0, 1⟩ = some fullWindow :=
  window_round_trip fullWindow (by decide) (by decide) _ rfl rfl rfl

/-! ## Surfaces -/

structure Surface where
  id : Uuid
  window : Option Uuid
  dirty : Bool
  text : String
  bitmap : Option (List UInt8)

def Surface.load (thing : GraphThing) : Option Surface :=
  if thing.kind ≠ Canon.surface then none
  else some {
    id := thing.id
    window := thing.field Canon.src asUuid
    dirty := (thing.field Canon.dirty asBool).getD false
    text := (thing.field Canon.text extractText).getD ""
    bitmap := thing.field Canon.bitmap asBytes }

end Ui

end ThingOS
