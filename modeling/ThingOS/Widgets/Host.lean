import ThingOS.Userland.GraphWrites
import ThingOS.Userland.UiGraph

/-!
# The widget host

`widgets/host/src/lib.rs`: an app that watches the widget Things, keeps an instance of each, turns
what their fields say about the mouse into events and publishes the bitmaps it draws. The sixteen
libraries of widgets are a parameter.

The pointer reaches a widget through its Thing alone. An event is made by comparing the `MOUSE_DOWN`
of the Thing that comes with the one that came before, and a Thing without the field counts as one
whose button is up.
-/

namespace ThingOS.Widgets

open Ui Host Value

/-- `userland::widget_abi::InputEvent`. -/
inductive InputEvent where
  | mouseMove (x y : ℤ)
  | mouseDown (x y : ℤ) (button : ℕ)
  | mouseUp (x y : ℤ) (button : ℕ)
  | keyDown (key : ℕ)
  | keyUp (key : ℕ)
deriving DecidableEq

/-- The variants of `WidgetState`. -/
inductive WidgetKind where
  | thing | scrollbar | toolbar | button | checkbox | radioButton | listboxDefault
  | notificationToast | notificationDialog | image | topStatusBar | statusWidget | thingInspector
  | graphMiniViewer | plainText | dropdown
deriving DecidableEq

/-- The variant for what a Thing calls its widget; an unknown one is a launcher entry. -/
def WidgetKind.fromStr : Option String → WidgetKind
  | some "scrollbar_thumb" => scrollbar
  | some "toolbar" => toolbar
  | some "toolbar_button" | some "button" => button
  | some "checkbox" => checkbox
  | some "radio_button" => radioButton
  | some "listbox_default" | some "list" => listboxDefault
  | some "notification_toast" => notificationToast
  | some "notification_dialog" => notificationDialog
  | some "image" => image
  | some "thing_tile" => thing
  | some "top_status_bar" => topStatusBar
  | some "status_widget" => statusWidget
  | some "thing_inspector" => thingInspector
  | some "graph_mini_viewer" => graphMiniViewer
  | some "plain_text" => plainText
  | some "dropdown" | some "select" => dropdown
  | _ => thing

/-- The widget libraries, as far as the host calls them, and the ids of the `uuid` crate that it
gives to the widgets of notifications. What some widgets read in the graph as they draw, and the
`LAUNCH_REQUEST` that a button declares without an id, are left out. -/
structure Toolkit where
  State : Type
  init : WidgetKind → InMemoryGraphStore → Uuid → ℕ → ℕ → State
  /-- `ButtonWidget::intrinsic_size`. -/
  intrinsicSize : State → ℕ → ℕ × ℕ
  handleEvent : WidgetKind → State → InputEvent → State × List GraphWrite
  /-- The `focused` of a button's state. -/
  setFocused : State → Bool → State
  draw : WidgetKind → State → List UInt8 → ℕ → ℕ → List UInt8
  /-- The `checked` of a checkbox's state. -/
  checked : State → Bool
  /-- `Uuid::new_v5` in the namespace of object identifiers. -/
  newV5 : Uuid → Uuid

/-- Widgets that do nothing. -/
def idleToolkit : Toolkit where
  State := Unit
  init _ _ _ _ _ := ()
  intrinsicSize _ _ := (0, 0)
  handleEvent _ _ _ := ((), [])
  setFocused _ _ := ()
  draw _ _ framebuffer _ _ := framebuffer
  checked _ := false
  newV5 id := id

structure WidgetInstance (k : Toolkit) where
  kind : WidgetKind
  state : k.State
  framebuffer : List UInt8
  width : ℕ
  height : ℕ
  prevDown : Bool

structure WidgetHost (k : Toolkit) where
  widgets : Std.ExtTreeMap Uuid (WidgetInstance k) compare
  focusedWidget : Option Uuid

/-- `CHECKED` of the checkbox. -/
def checkedSymbol := canon 'C' 'H' 'K'

/-- `focused_sym`. -/
def focusedSymbol := canon 'F' 'C' 'S'

namespace WidgetHost

variable {k : Toolkit}

/-- The instance for a Thing that is seen for the first time. A button is at least as large as its
label needs, and says so in the graph. -/
def initInstance (k : Toolkit) (s : InMemoryGraphStore) (thing : GraphThing) :
    WidgetInstance k × List GraphWrite :=
  let widthProp := thing.field Canon.width asU64
  let heightProp := thing.field Canon.height asU64
  let width := asU32 (widthProp.getD 200)
  let kind := WidgetKind.fromStr (thing.field (cc 'W' 'K') asText)
  let height :=
    if kind = .button ∧ heightProp = none then 32 else asU32 (heightProp.getD 200)
  let state := k.init kind s thing.id width height
  let (newWidth, newHeight) :=
    if kind = .button then
      let (measuredW, measuredH) := k.intrinsicSize state height
      (if widthProp.isSome then max measuredW width else measuredW,
        if heightProp.isSome then max measuredH height else measuredH)
    else (width, height)
  let writes :=
    if newWidth ≠ width ∨ newHeight ≠ height then
      [GraphWrite.fiat ⟨thing.id, Canon.widget, ((∅ : Map).insert Canon.width
        (.u64 newWidth)).insert Canon.height (.u64 newHeight)⟩]
    else []
  ({ kind, state, framebuffer := List.replicate (newWidth * newHeight * 4 % 2 ^ 32) 0,
     width := newWidth, height := newHeight, prevDown := false }, writes)

/-- The focus after a Thing has come. -/
def focusOn (h : WidgetHost k) (thing : GraphThing) : Option Uuid :=
  match thing.field focusedSymbol asBool with
  | some true => some thing.id
  | some false => if h.focusedWidget = some thing.id then none else h.focusedWidget
  | none => h.focusedWidget

/-- An instance takes the size of its Thing; a new size comes with an empty framebuffer. -/
def resized (instance_ : WidgetInstance k) (thing : GraphThing) : WidgetInstance k :=
  let width := ((thing.field Canon.width asU64).map fun n => asU32 n).getD instance_.width
  let height := ((thing.field Canon.height asU64).map fun n => asU32 n).getD instance_.height
  if width ≠ instance_.width ∨ height ≠ instance_.height then
    { instance_ with
      width, height, framebuffer := List.replicate (min (width * height) (2 ^ 32 - 1) * 4) 0 }
  else instance_

/-- Whether a Thing says that the button is down. -/
def isDown (thing : GraphThing) : Bool := (thing.field Canon.mouseDown asBool).getD false

/-- The event for a Thing, after one that said `prevDown`. -/
def pointerEvent (prevDown : Bool) (thing : GraphThing) : Option InputEvent :=
  let x := asI32 ((thing.field Canon.mouseX asI64).getD 0)
  let y := asI32 ((thing.field Canon.mouseY asI64).getD 0)
  if isDown thing && !prevDown then some (.mouseDown x y 1)
  else if !isDown thing && prevDown then some (.mouseUp x y 1)
  else if isDown thing || prevDown then some (.mouseMove x y)
  else none

/-- What the host does with something it is told: its next state, what it writes to the graph and
the events it gives to its widgets. -/
structure Outcome (k : Toolkit) where
  host : WidgetHost k
  writes : List GraphWrite
  events : List (Uuid × InputEvent)

def instanceOf (s : InMemoryGraphStore) (h : WidgetHost k) (thing : GraphThing) :
    WidgetInstance k × List GraphWrite :=
  match h.widgets[thing.id]? with
  | some known => (known, [])
  | none => initInstance k s thing

/-- `on_event` for a widget's Thing. -/
def onWidget (s : InMemoryGraphStore) (h : WidgetHost k) (thing : GraphThing) : Outcome k :=
  let known := h.instanceOf s thing
  let current := resized known.1 thing
  let focus :=
    if isDown thing && !current.prevDown then some thing.id else h.focusOn thing
  let next := { current with prevDown := isDown thing }
  match pointerEvent current.prevDown thing with
  | some event =>
    let reaction := k.handleEvent next.kind next.state event
    ⟨⟨h.widgets.insert thing.id { next with state := reaction.1 }, focus⟩, known.2 ++ reaction.2,
      [(thing.id, event)]⟩
  | none => ⟨⟨h.widgets.insert thing.id next, focus⟩, known.2, []⟩

/-- `on_event` for a key: it goes to the widget in focus. -/
def onKey (h : WidgetHost k) (thing : GraphThing) : Outcome k :=
  match h.focusedWidget with
  | some id =>
    match h.widgets[id]? with
    | some current =>
      let key := ((thing.field Canon.key asSymbol).map BitVec.toNat).getD 0
      let event :=
        if (thing.field Canon.down asBool).getD false then InputEvent.keyDown key
        else InputEvent.keyUp key
      let reaction := k.handleEvent current.kind current.state event
      ⟨{ h with widgets := h.widgets.insert id { current with state := reaction.1 } }, reaction.2,
        [(id, event)]⟩
    | none => ⟨h, [], []⟩
  | none => ⟨h, [], []⟩

/-- `on_event` for a notification: a widget is declared for it, unless it was acknowledged. -/
def onNotification (h : WidgetHost k) (thing : GraphThing) : Outcome k :=
  if (thing.field Canon.ack asBool).getD false then ⟨h, [], []⟩
  else
    let global := (thing.field Canon.scope asText).getD "local" = "global"
    let fields := ((∅ : Map).insert (cc 'W' 'K')
      (.text (if global then "notification_dialog" else "notification_toast"))).insert Canon.binds
      (.uuid thing.id)
    let fields := (fields.insert Canon.width (.u64 (if global then 400 else 300))).insert
      Canon.height (.u64 (if global then 200 else 80))
    ⟨h, [.fiat ⟨k.newV5 thing.id, Canon.widget, fields⟩], []⟩

def onEvent (s : InMemoryGraphStore) (h : WidgetHost k) (thing : GraphThing) : Outcome k :=
  if thing.kind = Canon.notification then h.onNotification thing
  else if thing.kind = Canon.widget then h.onWidget s thing
  else if thing.kind = Canon.keyEvent then h.onKey thing
  else ⟨h, [], []⟩

/-- The instance drawn; a button is first told whether it has the focus. -/
def drawn (h : WidgetHost k) (id : Uuid) (current : WidgetInstance k) : WidgetInstance k :=
  let state :=
    if current.kind = .button then k.setFocused current.state (h.focusedWidget = some id)
    else current.state
  { current with
    state,
    framebuffer := k.draw current.kind state current.framebuffer current.width current.height }

def publishedFields (current : WidgetInstance k) : Map :=
  let fields := (∅ : Map).insert Canon.bitmap (.bytes current.framebuffer)
  if current.kind = .checkbox then
    fields.insert checkedSymbol (.bool (k.checked current.state))
  else fields

/-- `tick`: every instance is drawn and published. -/
def tick (h : WidgetHost k) : WidgetHost k × List Declaration :=
  ({ h with widgets := h.widgets.map fun id current => h.drawn id current },
    h.widgets.toList.map fun (id, current) =>
      ⟨id, Canon.widget, publishedFields (h.drawn id current)⟩)

end WidgetHost

end ThingOS.Widgets
