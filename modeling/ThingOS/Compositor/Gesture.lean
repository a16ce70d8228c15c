import ThingOS.Compositor.WidgetManager
import ThingOS.Widgets.Host

/-!
# A pointer gesture on a widget

The compositor (`on_mouse_event` in `compositor/src/compositor.rs`) tells a widget of the pointer by
declaring the widget's Thing: with `MOUSE_DOWN` set when it is pressed, with the position alone
while the button is held, with `MOUSE_DOWN` unset when it is released. A declaration without
`MOUSE_DOWN` reads as a button that is up, and one follows the press at once. So the host always
sees a click, however long the button is held. Positions are integers where the source has `i32`.
-/

namespace ThingOS.Compositor

open Ui Host Widgets WidgetHost InMemoryGraphStore List Std.ExtTreeMap

/-! ## The compositor -/

/-- The screen, and the widget that `find_window_at` and `hit_test_widgets` find at a point. -/
structure PointerEnv where
  width : ℕ
  height : ℕ
  hitWidget : ℤ → ℤ → Option Uuid

structure Pointer where
  x : ℤ
  y : ℤ
  buttons : ℕ
  manager : WidgetManager

namespace Pointer

/-- `buttons & 1 != 0`. -/
def leftDown (buttons : ℕ) : Bool := decide (buttons % 2 = 1)

def update (env : PointerEnv) (p : Pointer) (dx dy : ℤ) (buttons : ℕ) : Pointer :=
  { p with
    x := clampI32 (p.x + asI32 dx) 0 (env.width - 1 : ℕ)
    y := clampI32 (p.y + asI32 dy) 0 (env.height - 1 : ℕ)
    buttons := buttons % 256 }

def localFields (p : Pointer) (widget : Widget) : Map :=
  ((∅ : Map).insert Canon.mouseX (.i64 (p.x - asI32 (widget.x.getD 0)))).insert Canon.mouseY
    (.i64 (p.y - asI32 (widget.y.getD 0)))

/-- `on_pointer_down`, as far as widgets are concerned. -/
def onPointerDown (env : PointerEnv) (p : Pointer) : Pointer × List GraphWrite :=
  match env.hitWidget p.x p.y with
  | none => (p, [])
  | some id =>
    ({ p with manager := { p.manager with activeWidget := some id } },
      match p.manager.widgets[id]? with
      | some widget =>
        [.fiat ⟨id, Canon.widget, (p.localFields widget).insert Canon.mouseDown (.bool true)⟩]
      | none => [])

def continueWidgetInteraction (p : Pointer) : List GraphWrite :=
  match p.manager.activeWidget with
  | none => []
  | some id =>
    match p.manager.widgets[id]? with
    | some widget => [.fiat ⟨id, Canon.widget, p.localFields widget⟩]
    | none => []

/-- `end_widget_interaction`, without the action of a click. -/
def endWidgetInteraction (p : Pointer) : Pointer × List GraphWrite :=
  match p.manager.activeWidget with
  | none => (p, [])
  | some id =>
    ({ p with manager := { p.manager with activeWidget := none } },
      [.fiat ⟨id, Canon.widget, (∅ : Map).insert Canon.mouseDown (.bool false)⟩])

/-- The button goes up. -/
def released (p : Pointer) (buttons : ℕ) : Bool := !leftDown buttons && leftDown p.buttons

/-- `on_mouse_event`, as far as widgets are concerned. -/
def onMouseEvent (env : PointerEnv) (p : Pointer) (dx dy : ℤ) (buttons : ℕ) :
    Pointer × List GraphWrite :=
  let moved := p.update env dx dy buttons
  if leftDown buttons then
    let (pressed, writes) :=
      if !leftDown p.buttons then moved.onPointerDown env else (moved, [])
    (pressed, writes ++ pressed.continueWidgetInteraction)
  else if leftDown p.buttons then moved.endWidgetInteraction
  else (moved, [])

end Pointer

/-! ## The compositor and the host together -/

variable {k : Toolkit}

/-- The host in the middle of a tick, with the Things it will be told of at the next. -/
structure HostRun (k : Toolkit) where
  store : InMemoryGraphStore
  host : WidgetHost k
  told : List GraphThing

def HostRun.handle (r : HostRun k) (thing : GraphThing) : HostRun k :=
  let outcome := r.host.onEvent r.store thing
  { store := GraphWrite.applyAll r.store outcome.writes
    host := outcome.host
    told := r.told ++ GraphWrite.told r.store outcome.writes }

def HostRun.events (r : HostRun k) (thing : GraphThing) : List (Uuid × InputEvent) :=
  (r.host.onEvent r.store thing).events

/-- The graph, the compositor's pointer, the widget host and the Things that wait for it. -/
structure GestureSystem (k : Toolkit) where
  store : InMemoryGraphStore
  pointer : Pointer
  host : WidgetHost k
  pending : List GraphThing

inductive GestureStep where
  | mouse (dx dy : ℤ) (buttons : ℕ)
  | hostTick
deriving DecidableEq

/-- What happens in a gesture: a widget is given an event, or the button is released. -/
inductive GestureLog where
  | event (e : InputEvent)
  | released
deriving DecidableEq

namespace GestureSystem

def handled (σ : GestureSystem k) : HostRun k :=
  run HostRun.handle ⟨σ.store, σ.host, []⟩ σ.pending

def step (env : PointerEnv) (σ : GestureSystem k) : GestureStep → GestureSystem k
  | .mouse dx dy buttons =>
    let (pointer, writes) := σ.pointer.onMouseEvent env dx dy buttons
    { σ with
      pointer
      store := GraphWrite.applyAll σ.store writes
      pending := σ.pending ++ GraphWrite.told σ.store writes }
  | .hostTick =>
    let r := σ.handled
    let writes := r.host.tick.2.map GraphWrite.fiat
    { σ with
      store := GraphWrite.applyAll r.store writes
      host := r.host.tick.1
      pending := r.told ++ GraphWrite.told r.store writes }

/-- The mouse events among what the host delivers to a widget. -/
def mouseEvents (id : Uuid) (events : List (Uuid × InputEvent)) : List InputEvent :=
  events.filterMap fun (target, event) =>
    match event with
    | .keyDown _ | .keyUp _ => none
    | _ => if target = id then some event else none

lemma mouseEvents_append (id : Uuid) (xs ys : List (Uuid × InputEvent)) :
    mouseEvents id (xs ++ ys) = mouseEvents id xs ++ mouseEvents id ys :=
  filterMap_append

/-- What a step adds to the log of a widget. -/
def log (id : Uuid) (σ : GestureSystem k) : GestureStep → List GestureLog
  | .mouse _ _ buttons => if σ.pointer.released buttons then [.released] else []
  | .hostTick =>
    (mouseEvents id (outputs HostRun.handle HostRun.events ⟨σ.store, σ.host, []⟩ σ.pending)).map
      .event

end GestureSystem

/-- A gesture is delivered: one `MouseDown`, then only `MouseMove`s, then one `MouseUp`, and that
after the release. -/
def GestureDelivered (log : List GestureLog) : Prop :=
  ∃ before after x y x' y',
    log = before ++ .released :: (after ++ [.event (.mouseUp x y 1)])
    ∧ ∃ moves : List (ℤ × ℤ), before ++ after
      = .event (.mouseDown x' y' 1) :: moves.map fun m => .event (.mouseMove m.1 m.2)

/-! ## Silence -/

/-- The fields do not say that the button is down. -/
def Silent (fields : Map) : Prop := fields[Canon.mouseDown]? ≠ some (.bool true)

lemma isDown_eq_true_iff (thing : GraphThing) :
    isDown thing = true ↔ thing.fields[Canon.mouseDown]? = some (.bool true) := by
  rw [isDown, GraphThing.field]
  cases thing.fields[Canon.mouseDown]? with
  | none => simp
  | some v => cases v <;> simp [Value.asBool]

lemma isDown_of_silent {thing : GraphThing} (h : Silent thing.fields) :
    isDown thing = false := by
  rw [← Bool.not_eq_true, isDown_eq_true_iff]
  exact h

lemma Silent.extend {fields props : Map} (hfields : Silent fields) (hprops : Silent props) :
    Silent (InMemoryGraphStore.extend fields props) := by
  have hentries : ∀ entry ∈ props.toList, entry ≠ (Canon.mouseDown, Value.bool true) := by
    rintro entry hentry rfl
    exact hprops (mem_toList_iff_getElem?_eq_some.mp hentry)
  unfold InMemoryGraphStore.extend
  generalize props.toList = entries at hentries
  induction entries generalizing fields with
  | nil => exact hfields
  | cons entry entries ih =>
    have hinsert : Silent (fields.insert entry.1 entry.2) := by
      by_cases hkey : entry.1 = Canon.mouseDown
      · rw [Silent, hkey, getElem?_insert_self]
        intro hvalue
        exact hentries entry mem_cons_self (Prod.ext hkey (Option.some.inj hvalue))
      · rw [Silent, getElem?_insert_of_ne hkey]
        exact hfields
    exact ih hinsert fun e he => hentries e (mem_cons_of_mem _ he)

/-- A write that does not put the button down. -/
def GraphWrite.Silent : GraphWrite → Prop
  | .fiat d => Compositor.Silent d.fields
  | .setProps _ props => Compositor.Silent props

/-- No widget puts the button down. -/
def Quiet (k : Toolkit) : Prop :=
  ∀ kind state event, ∀ w ∈ (k.handleEvent kind state event).2, GraphWrite.Silent w

/-- The Thing does not say of the widget that its button is down. -/
def SilentOn (id : Uuid) (thing : GraphThing) : Prop := thing.id = id → Silent thing.fields

/-- The Things are filed under their ids and the widget's is silent. -/
def SilentStore (id : Uuid) (s : InMemoryGraphStore) : Prop :=
  ∀ (node : Uuid) (thing : GraphThing), s.things[node]? = some thing →
    thing.id = node ∧ SilentOn id thing

variable {id : Uuid} {s : InMemoryGraphStore}

lemma SilentStore.insert (thing : GraphThing)
    (h : ∀ node other, node ≠ thing.id → s.things[node]? = some other →
      other.id = node ∧ SilentOn id other) (hthing : SilentOn id thing)
    (s' : InMemoryGraphStore) (hs' : s'.things = s.things.insert thing.id thing) :
    SilentStore id s' := by
  intro node other hother
  rw [hs'] at hother
  by_cases hnode : thing.id = node
  · subst hnode
    rw [getElem?_insert_self] at hother
    obtain rfl := Option.some.inj hother
    exact ⟨rfl, hthing⟩
  · rw [getElem?_insert_of_ne hnode] at hother
    exact h node other (Ne.symm hnode) hother

/-- A second declaration replaces the first one, whatever that said. -/
lemma SilentStore.declare_twice (h : SilentStore id s) {d e : Declaration} (hid : d.id = e.id)
    (he : Silent e.fields) : SilentStore id (Declaration.declare (Declaration.declare s d) e) := by
  refine .insert (fiatThing e.id e.request (Declaration.declare s d).revision)
    (fun node other hne hother => ?_) (fun _ => he) _ rfl
  rw [Declaration.things_declare, getElem?_insert_of_ne (hid.trans_ne (Ne.symm hne))] at hother
  exact h node other hother

lemma SilentStore.apply (h : SilentStore id s) {w : GraphWrite} (hw : GraphWrite.Silent w) :
    SilentStore id (w.apply s).1 ∧ ∀ thing ∈ (w.apply s).2.toList, SilentOn id thing := by
  cases w with
  | fiat d =>
    have hthing : SilentOn id (fiatThing d.id d.request s.revision) :=
      fun _ => hw
    refine ⟨.insert _ (fun node other _ => h node other) hthing _ rfl, fun thing hmem => ?_⟩
    rw [mem_singleton.mp hmem]
    exact hthing
  | setProps node props =>
    cases hnode : s.things[node]? with
    | none =>
      simp only [GraphWrite.apply, propsSet, hnode]
      exact ⟨h, by simp⟩
    | some old =>
      obtain ⟨hid, hold⟩ := h node old hnode
      simp only [GraphWrite.apply, propsSet, hnode]
      have hthing : SilentOn id { old with
          fields := InMemoryGraphStore.extend old.fields props, revision := s.nextRevision.1 } :=
        fun heq => (hold heq).extend hw
      refine ⟨.insert _ (fun node other _ => h node other) hthing _ ?_, fun thing hmem => ?_⟩
      · rw [hid]
        rfl
      · rw [mem_singleton.mp hmem]
        exact hthing

/-- So do several. -/
lemma SilentStore.applyAll (h : SilentStore id s) {ws : List GraphWrite}
    (hws : ∀ w ∈ ws, GraphWrite.Silent w) :
    SilentStore id (GraphWrite.applyAll s ws)
      ∧ ∀ thing ∈ GraphWrite.told s ws, SilentOn id thing := by
  induction ws generalizing s with
  | nil => exact ⟨h, by simp [GraphWrite.told, outputs]⟩
  | cons w ws ih =>
    obtain ⟨hstore, htold⟩ := h.apply (hws w mem_cons_self)
    obtain ⟨hstore', htold'⟩ := ih hstore fun v hv => hws v (mem_cons_of_mem _ hv)
    refine ⟨hstore', fun thing hmem => ?_⟩
    rcases mem_append.mp hmem with hmem | hmem
    · exact htold thing hmem
    · exact htold' thing hmem

/-! ## What the host makes of a Thing -/

/-- Whether the last Thing of a widget said that its button is down. -/
def prevDown (h : WidgetHost k) (id : Uuid) : Bool :=
  (h.widgets[id]?.map WidgetInstance.prevDown).getD false

lemma resized_prevDown (current : WidgetInstance k) (thing : GraphThing) :
    (resized current thing).prevDown = current.prevDown := by
  unfold resized
  simp only
  split <;> rfl

lemma instanceOf_prevDown (s : InMemoryGraphStore) (h : WidgetHost k) (thing : GraphThing) :
    (h.instanceOf s thing).1.prevDown = prevDown h thing.id := by
  unfold instanceOf prevDown
  cases h.widgets[thing.id]? <;> rfl

lemma prevDown_insert (h : WidgetHost k) (target id : Uuid) (current : WidgetInstance k)
    (focus : Option Uuid) :
    prevDown ⟨h.widgets.insert target current, focus⟩ id
      = if target = id then current.prevDown else prevDown h id := by
  rw [prevDown]
  split
  case isTrue heq =>
    rw [heq, getElem?_insert_self]
    rfl
  case isFalse hne =>
    rw [getElem?_insert_of_ne hne]
    rfl

/-- No event but a key's goes to another widget than the one whose Thing came. -/
lemma mouseEvents_pointerEvent (down : Bool) (thing : GraphThing) (id : Uuid) :
    GestureSystem.mouseEvents id
        ((pointerEvent down thing).toList.map fun event => (thing.id, event))
      = if thing.id = id then (pointerEvent down thing).toList else [] := by
  unfold pointerEvent
  by_cases hid : thing.id = id <;> cases isDown thing <;> cases down <;>
    simp [GestureSystem.mouseEvents, hid]

/-- `onWidget` without the case distinction on the event. -/
lemma onWidget_events (s : InMemoryGraphStore) (h : WidgetHost k) (thing : GraphThing) :
    (h.onWidget s thing).events = (pointerEvent (prevDown h thing.id) thing).toList.map
      fun event => (thing.id, event) := by
  rw [← instanceOf_prevDown s, ← resized_prevDown _ thing]
  unfold onWidget
  simp only
  cases pointerEvent _ thing <;> rfl

lemma prevDown_onWidget (s : InMemoryGraphStore) (h : WidgetHost k) (thing : GraphThing)
    (id : Uuid) :
    prevDown (h.onWidget s thing).host id
      = if thing.id = id then isDown thing else prevDown h id := by
  unfold onWidget
  simp only
  cases pointerEvent _ thing with
  | none => exact prevDown_insert ..
  | some event => exact prevDown_insert ..

def IsWidget (id : Uuid) (thing : GraphThing) : Prop :=
  thing.id = id ∧ thing.kind = Canon.widget

lemma onKey_spec (h : WidgetHost k) (thing : GraphThing) (id : Uuid) :
    GestureSystem.mouseEvents id (h.onKey thing).events = []
      ∧ prevDown (h.onKey thing).host id = prevDown h id := by
  unfold onKey
  cases h.focusedWidget with
  | none => exact ⟨rfl, rfl⟩
  | some target =>
    cases htarget : h.widgets[target]? with
    | none => simp [htarget, GestureSystem.mouseEvents]
    | some current =>
      simp only [htarget]
      constructor
      · split <;> rfl
      · rw [prevDown_insert]
        split
        case isTrue heq => simp [prevDown, ← heq, htarget]
        case isFalse => rfl

/-- The widget is given an event for its own Things only. -/
lemma onEvent_spec (s : InMemoryGraphStore) (h : WidgetHost k) (thing : GraphThing) :
    (IsWidget id thing →
        GestureSystem.mouseEvents id (h.onEvent s thing).events
            = (pointerEvent (prevDown h id) thing).toList
          ∧ prevDown (h.onEvent s thing).host id = isDown thing)
      ∧ (¬ IsWidget id thing →
        GestureSystem.mouseEvents id (h.onEvent s thing).events = []
          ∧ prevDown (h.onEvent s thing).host id = prevDown h id) := by
  have hwidget : Canon.widget ≠ Canon.notification := by decide
  unfold onEvent
  split
  case isTrue hkind =>
    refine ⟨fun h => absurd (h.2.symm.trans hkind) hwidget, fun _ => ?_⟩
    unfold onNotification
    split <;> exact ⟨rfl, rfl⟩
  split
  case isTrue hkind =>
    rw [onWidget_events, mouseEvents_pointerEvent, prevDown_onWidget]
    constructor
    · rintro ⟨rfl, -⟩
      simp
    · intro hother
      have hne : thing.id ≠ id := fun hid => hother ⟨hid, hkind⟩
      simp [hne]
  case isFalse hkind =>
    refine ⟨fun h => absurd h.2 hkind, fun _ => ?_⟩
    split
    · exact onKey_spec h thing id
    · exact ⟨rfl, rfl⟩

/-! ### Its writes -/

lemma initInstance_silent (k : Toolkit) (s : InMemoryGraphStore) (thing : GraphThing) :
    ∀ w ∈ (initInstance k s thing).2, GraphWrite.Silent w := by
  have hsize : ∀ (c : Prop) [Decidable c] (width height : ℕ),
      ∀ w ∈ (if c then [GraphWrite.fiat ⟨thing.id, Canon.widget, ((∅ : Map).insert Canon.width
        (.u64 width)).insert Canon.height (.u64 height)⟩] else []), GraphWrite.Silent w := by
    intro c _ width height w hw
    split at hw
    · rw [mem_singleton.mp hw]
      simp (disch := decide) only [GraphWrite.Silent, Silent, getElem?_insert_of_ne]
      simp
    · cases hw
  exact hsize _ _ _

lemma onEvent_silent (hk : Quiet k) (s : InMemoryGraphStore) (h : WidgetHost k)
    (thing : GraphThing) : ∀ w ∈ (h.onEvent s thing).writes, GraphWrite.Silent w := by
  unfold onEvent
  split
  · unfold onNotification
    split
    · simp
    · intro w hw
      rw [mem_singleton.mp hw]
      simp (disch := decide) only [GraphWrite.Silent, Silent, getElem?_insert_of_ne]
      simp
  split
  · have hinit : ∀ w ∈ (h.instanceOf s thing).2, GraphWrite.Silent w := by
      unfold instanceOf
      split
      · simp
      · exact initInstance_silent k s thing
    unfold onWidget
    simp only
    split
    · intro w hw
      rcases mem_append.mp hw with hw | hw
      · exact hinit w hw
      · exact hk _ _ _ w hw
    · exact hinit
  split
  · unfold onKey
    split
    · split
      · exact hk _ _ _
      · simp
    · simp
  · simp

lemma tick_silent (h : WidgetHost k) :
    ∀ w ∈ h.tick.2.map GraphWrite.fiat, GraphWrite.Silent w := by
  intro w hw
  obtain ⟨d, hd, rfl⟩ := mem_map.mp hw
  obtain ⟨⟨target, current⟩, -, rfl⟩ := mem_map.mp hd
  simp only [GraphWrite.Silent, publishedFields]
  split
  all_goals
    simp (disch := decide) only [Silent, getElem?_insert_of_ne]
    simp

lemma prevDown_tick (h : WidgetHost k) (id : Uuid) : prevDown h.tick.1 id = prevDown h id := by
  simp only [prevDown, tick, Std.ExtTreeMap.getElem?_map, Option.map_map]
  rfl

/-! ## The host between two ticks -/

/-- Nothing is left to say but what the host itself has last heard of the widget's button. -/
structure HostRun.Settled (id : Uuid) (down : Bool) (r : HostRun k) : Prop where
  store : SilentStore id r.store
  told : ∀ thing ∈ r.told, SilentOn id thing
  prevDown : Compositor.prevDown r.host id = down

namespace HostRun.Settled

variable {r : HostRun k} {down : Bool} {thing : GraphThing}

lemma handle_widget (hk : Quiet k) (h : r.Settled id down) (hthing : IsWidget id thing) :
    (r.handle thing).Settled id (isDown thing)
      ∧ GestureSystem.mouseEvents id (r.events thing)
        = (pointerEvent down thing).toList := by
  obtain ⟨hstore, htold⟩ := h.store.applyAll (onEvent_silent hk r.store r.host thing)
  obtain ⟨hevents, hdown⟩ := (onEvent_spec r.store r.host thing).1 hthing
  rw [h.prevDown] at hevents
  exact ⟨⟨hstore, forall_mem_append.mpr ⟨h.told, htold⟩, hdown⟩, hevents⟩

lemma handle_other (hk : Quiet k) (h : r.Settled id down) (hthing : ¬ IsWidget id thing) :
    (r.handle thing).Settled id down ∧ GestureSystem.mouseEvents id (r.events thing) = [] := by
  obtain ⟨hstore, htold⟩ := h.store.applyAll (onEvent_silent hk r.store r.host thing)
  obtain ⟨hevents, hdown⟩ := (onEvent_spec r.store r.host thing).2 hthing
  exact ⟨⟨hstore, forall_mem_append.mpr ⟨h.told, htold⟩, hdown.trans h.prevDown⟩, hevents⟩

/-- A silent Thing says nothing new to a host that takes the button to be up. -/
lemma handle_silent (hk : Quiet k) (h : r.Settled id false) (hthing : SilentOn id thing) :
    (r.handle thing).Settled id false ∧ GestureSystem.mouseEvents id (r.events thing) = [] := by
  by_cases hwidget : IsWidget id thing
  · have hup : isDown thing = false := isDown_of_silent (hthing hwidget.1)
    have := h.handle_widget hk hwidget
    simpa [pointerEvent, hup] using this
  · exact h.handle_other hk hwidget

/-- Nor do several. -/
lemma run_silent (hk : Quiet k) (h : r.Settled id false) {things : List GraphThing}
    (hthings : ∀ thing ∈ things, SilentOn id thing) :
    (run HostRun.handle r things).Settled id false
      ∧ GestureSystem.mouseEvents id (outputs HostRun.handle HostRun.events r things) = [] := by
  induction things generalizing r with
  | nil => exact ⟨h, rfl⟩
  | cons thing things ih =>
    obtain ⟨hnext, hevents⟩ := h.handle_silent hk (hthings thing mem_cons_self)
    obtain ⟨hrun, hrest⟩ := ih hnext fun t ht => hthings t (mem_cons_of_mem _ ht)
    refine ⟨hrun, ?_⟩
    rw [outputs, GestureSystem.mouseEvents_append, hevents, hrest]
    rfl

/-- A press and the declaration after it are a click. -/
lemma run_click (hk : Quiet k) (h : r.Settled id false) {pressed held : GraphThing}
    (hpressed : IsWidget id pressed) (hdown : isDown pressed = true)
    (hheld : IsWidget id held) (hup : isDown held = false) :
    (run HostRun.handle r [pressed, held]).Settled id false
      ∧ ∃ x y x' y',
        GestureSystem.mouseEvents id (outputs HostRun.handle HostRun.events r [pressed, held])
          = [.mouseDown x y 1, .mouseUp x' y' 1] := by
  obtain ⟨hnext, hfirst⟩ := h.handle_widget hk hpressed
  rw [hdown] at hnext
  obtain ⟨hlast, hsecond⟩ := hnext.handle_widget hk hheld
  rw [hup] at hlast
  simp only [pointerEvent, hdown, hup] at hfirst hsecond
  refine ⟨hlast, ?_⟩
  simp only [outputs, append_nil, GestureSystem.mouseEvents_append, hfirst, hsecond]
  exact ⟨_, _, _, _, rfl⟩

end HostRun.Settled

/-! ## What waits for the host -/

/-- What waits is silent about the widget, apart from a press with the declaration after it if a
click waits. -/
def Waits (id : Uuid) : Bool → List GraphThing → Prop
  | false, things => ∀ thing ∈ things, SilentOn id thing
  | true, things => ∃ before pressed held after,
    things = before ++ ([pressed, held] ++ after)
    ∧ (∀ thing ∈ before, SilentOn id thing) ∧ (∀ thing ∈ after, SilentOn id thing)
    ∧ (IsWidget id pressed ∧ isDown pressed = true)
    ∧ IsWidget id held ∧ isDown held = false

lemma Waits.append {click : Bool} {things more : List GraphThing} (h : Waits id click things)
    (hmore : ∀ thing ∈ more, SilentOn id thing) : Waits id click (things ++ more) := by
  cases click with
  | false => exact forall_mem_append.mpr ⟨h, hmore⟩
  | true =>
    obtain ⟨before, pressed, held, after, rfl, hbefore, hafter, hclick⟩ := h
    exact ⟨before, pressed, held, after ++ more, by simp, hbefore,
      forall_mem_append.mpr ⟨hafter, hmore⟩, hclick⟩

/-- The host takes the widget's button to be up, and at most a click waits for it. -/
structure GestureSystem.Rests (id : Uuid) (click : Bool) (σ : GestureSystem k) : Prop where
  store : SilentStore id σ.store
  prevDown : Compositor.prevDown σ.host id = false
  waits : Waits id click σ.pending

def IsClick (log : List GestureLog) : Prop :=
  ∃ x y x' y', log = [.event (.mouseDown x y 1), .event (.mouseUp x' y' 1)]

namespace GestureSystem.Rests

variable {σ : GestureSystem k} {click : Bool} {env : PointerEnv}

lemma handled (hk : Quiet k) (h : σ.Rests id click) :
    σ.handled.Settled id false
      ∧ if click then IsClick (σ.log id .hostTick) else σ.log id .hostTick = [] := by
  have hstart : HostRun.Settled id false ⟨σ.store, σ.host, []⟩ :=
    ⟨h.store, by simp, h.prevDown⟩
  cases click with
  | false =>
    obtain ⟨hrun, hevents⟩ := hstart.run_silent hk h.waits
    refine ⟨hrun, ?_⟩
    simp only [log, hevents]
    rfl
  | true =>
    obtain ⟨before, pressed, held, after, hpending, hbefore, hafter, ⟨hpressed, hdown⟩, hheld,
      hup⟩ := h.waits
    obtain ⟨hrun, hnone⟩ := hstart.run_silent hk hbefore
    obtain ⟨hrun', x, y, x', y', hsome⟩ := hrun.run_click hk hpressed hdown hheld hup
    obtain ⟨hrun'', hnone'⟩ := hrun'.run_silent hk hafter
    rw [GestureSystem.handled, hpending, run_append, run_append]
    refine ⟨hrun'', x, y, x', y', ?_⟩
    simp only [log, hpending, outputs_append, mouseEvents_append, hnone, hsome, hnone']
    rfl

/-- A tick of the host delivers a click that waits, and nothing else. -/
lemma hostTick (hk : Quiet k) (h : σ.Rests id click) (env : PointerEnv) :
    (σ.step env .hostTick).Rests id false
      ∧ if click then IsClick (σ.log id .hostTick) else σ.log id .hostTick = [] := by
  obtain ⟨hsettled, hlog⟩ := h.handled hk
  obtain ⟨hstore, htold⟩ := hsettled.store.applyAll (tick_silent σ.handled.host)
  exact ⟨⟨hstore, (prevDown_tick σ.handled.host id).trans hsettled.prevDown,
    forall_mem_append.mpr ⟨hsettled.told, htold⟩⟩, hlog⟩

end GestureSystem.Rests

/-! ## What the compositor declares -/

namespace Pointer

variable {env : PointerEnv} {p : Pointer} {dx dy : ℤ} {buttons : ℕ}

lemma leftDown_mod (buttons : ℕ) : leftDown (buttons % 256) = leftDown buttons := by
  unfold leftDown
  congr 2
  omega

lemma onPointerDown_buttons (env : PointerEnv) (p : Pointer) :
    (p.onPointerDown env).1.buttons = p.buttons := by
  unfold onPointerDown
  split <;> rfl

lemma endWidgetInteraction_buttons (p : Pointer) :
    p.endWidgetInteraction.1.buttons = p.buttons := by
  unfold endWidgetInteraction
  split <;> rfl

lemma leftDown_onMouseEvent (env : PointerEnv) (p : Pointer) (dx dy : ℤ) (buttons : ℕ) :
    leftDown (p.onMouseEvent env dx dy buttons).1.buttons = leftDown buttons := by
  rw [← leftDown_mod buttons]
  congr 1
  unfold onMouseEvent
  simp only
  split
  · split
    · exact onPointerDown_buttons env _
    · rfl
  · split
    · exact endWidgetInteraction_buttons _
    · rfl

lemma localFields_silent (p : Pointer) (widget : Widget) : Silent (p.localFields widget) := by
  simp (disch := decide) only [Silent, localFields, getElem?_insert_of_ne]
  simp

lemma continueWidgetInteraction_silent (p : Pointer) :
    ∀ w ∈ p.continueWidgetInteraction, GraphWrite.Silent w := by
  unfold continueWidgetInteraction
  split
  · simp
  split
  case h_1 widget _ =>
    intro w hw
    rw [mem_singleton.mp hw]
    exact p.localFields_silent widget
  · simp

lemma endWidgetInteraction_silent (p : Pointer) :
    ∀ w ∈ p.endWidgetInteraction.2, GraphWrite.Silent w := by
  unfold endWidgetInteraction
  split
  · simp
  · intro w hw
    rw [mem_singleton.mp hw, GraphWrite.Silent, Silent, getElem?_insert_self]
    simp

lemma onMouseEvent_silent (h : leftDown buttons = true → leftDown p.buttons = true) :
    ∀ w ∈ (p.onMouseEvent env dx dy buttons).2, GraphWrite.Silent w := by
  unfold onMouseEvent
  simp only
  split
  case isTrue hdown =>
    simp only [h hdown, Bool.not_true, Bool.false_eq_true, if_false, nil_append]
    exact continueWidgetInteraction_silent _
  case isFalse =>
    split
    · exact endWidgetInteraction_silent _
    · simp

/-- A press on a known widget declares it twice. -/
lemma onMouseEvent_press {widget : Widget} (hup : leftDown p.buttons = false)
    (hdown : leftDown buttons = true)
    (hhit : env.hitWidget (p.update env dx dy buttons).x (p.update env dx dy buttons).y = some id)
    (hknown : p.manager.widgets[id]? = some widget) :
    (p.onMouseEvent env dx dy buttons).2
      = [.fiat ⟨id, Canon.widget, ((p.update env dx dy buttons).localFields widget).insert
          Canon.mouseDown (.bool true)⟩,
        .fiat ⟨id, Canon.widget, (p.update env dx dy buttons).localFields widget⟩] := by
  have hknown' : (p.update env dx dy buttons).manager.widgets[id]? = some widget := hknown
  unfold onMouseEvent
  simp only [hup, hdown, Bool.not_false, if_true, onPointerDown, hhit, hknown',
    continueWidgetInteraction]
  rfl

end Pointer

namespace GestureSystem.Rests

variable {σ : GestureSystem k} {click : Bool} {env : PointerEnv} {dx dy : ℤ} {buttons : ℕ}

/-- A mouse event that is not a press adds silent Things. -/
lemma mouse (h : σ.Rests id click) (env : PointerEnv) (dx dy : ℤ) (buttons : ℕ)
    (hbuttons : Pointer.leftDown buttons = true → Pointer.leftDown σ.pointer.buttons = true) :
    (σ.step env (.mouse dx dy buttons)).Rests id click := by
  obtain ⟨hstore, htold⟩ := h.store.applyAll (Pointer.onMouseEvent_silent hbuttons)
  exact ⟨hstore, h.prevDown, h.waits.append htold⟩

lemma press {widget : Widget} (h : σ.Rests id false)
    (hup : Pointer.leftDown σ.pointer.buttons = false) (hdown : Pointer.leftDown buttons = true)
    (hhit : env.hitWidget (σ.pointer.update env dx dy buttons).x
      (σ.pointer.update env dx dy buttons).y = some id)
    (hknown : σ.pointer.manager.widgets[id]? = some widget) :
    (σ.step env (.mouse dx dy buttons)).Rests id true := by
  have hwrites := Pointer.onMouseEvent_press hup hdown hhit hknown
  have hsilent := (σ.pointer.update env dx dy buttons).localFields_silent widget
  refine ⟨?_, h.prevDown, ?_⟩
  · simp only [step, hwrites]
    exact h.store.declare_twice rfl hsilent
  · simp only [step, hwrites]
    refine ⟨σ.pending, _, _, [], rfl, h.waits, by simp, ⟨⟨rfl, rfl⟩, ?_⟩, ⟨rfl, rfl⟩, ?_⟩
    · rw [isDown_eq_true_iff]
      exact getElem?_insert_self
    · exact isDown_of_silent hsilent

/-- As long as the button is held, only a tick of the host delivers anything, and the first one
delivers the click that waits. -/
lemma run_held (hk : Quiet k) (h : σ.Rests id click) (env : PointerEnv) {steps : List GestureStep}
    (hheld : ∀ dx dy buttons, .mouse dx dy buttons ∈ steps →
      Pointer.leftDown buttons = true ∧ Pointer.leftDown σ.pointer.buttons = true) :
    ((click = true → .hostTick ∉ steps) ∧ (run (step env) σ steps).Rests id click
        ∧ outputs (step env) (log id) σ steps = [])
      ∨ (click = true ∧ .hostTick ∈ steps ∧ (run (step env) σ steps).Rests id false
        ∧ IsClick (outputs (step env) (log id) σ steps)) := by
  induction steps generalizing σ click with
  | nil => exact .inl ⟨by simp, h, rfl⟩
  | cons i steps ih =>
    cases i with
    | mouse dx dy buttons =>
      obtain ⟨hdown, hwas⟩ := hheld dx dy buttons mem_cons_self
      have hlog : log id σ (.mouse dx dy buttons) = [] := by
        simp [log, Pointer.released, hdown]
      have hnext : (σ.step env (.mouse dx dy buttons)).Rests id click :=
        h.mouse env dx dy buttons fun _ => hwas
      rw [outputs, hlog, nil_append, run_cons]
      refine (ih hnext fun dx' dy' buttons' hmem => ?_).imp ?_ ?_
      · exact ⟨(hheld dx' dy' buttons' (mem_cons_of_mem _ hmem)).1,
          (Pointer.leftDown_onMouseEvent ..).trans hdown⟩
      · rintro ⟨hticks, hrest⟩
        exact ⟨fun hclick => by simpa using hticks hclick, hrest⟩
      · rintro ⟨hclick, htick, hrest⟩
        exact ⟨hclick, mem_cons_of_mem _ htick, hrest⟩
    | hostTick =>
      obtain ⟨hnext, hlog⟩ := h.hostTick hk env
      have hrest := ih hnext fun dx dy buttons hmem =>
        hheld dx dy buttons (mem_cons_of_mem _ hmem)
      rcases hrest with ⟨-, hrests, hnone⟩ | ⟨hfalse, -⟩
      · grind [outputs, run_cons]
      · cases hfalse

end GestureSystem.Rests

lemma GestureSystem.leftDown_run_held {σ : GestureSystem k} (env : PointerEnv)
    {steps : List GestureStep} (hdown : Pointer.leftDown σ.pointer.buttons = true)
    (hheld : ∀ dx dy buttons, .mouse dx dy buttons ∈ steps → Pointer.leftDown buttons = true) :
    Pointer.leftDown (run (step env) σ steps).pointer.buttons = true := by
  induction steps generalizing σ with
  | nil => exact hdown
  | cons i steps ih =>
    refine ih ?_ fun dx dy buttons hmem => hheld dx dy buttons (mem_cons_of_mem _ hmem)
    cases i with
    | mouse dx dy buttons =>
      exact (Pointer.leftDown_onMouseEvent ..).trans (hheld dx dy buttons mem_cons_self)
    | hostTick => exact hdown

/-! ## Gestures -/

/-- The step is no mouse event without the button. -/
def GestureStep.held : GestureStep → Bool
  | .mouse _ _ buttons => Pointer.leftDown buttons
  | .hostTick => true

/-- A press, what happens while the button is held, the release and some ticks of the host. -/
structure Gesture where
  press : ℤ × ℤ × ℕ
  middle : List GestureStep
  release : ℤ × ℤ × ℕ
  ticks : ℕ
  pressed : Pointer.leftDown press.2.2 = true
  held : ∀ i ∈ middle, i.held = true
  let_go : Pointer.leftDown release.2.2 = false

namespace Gesture

def steps (g : Gesture) : List GestureStep :=
  .mouse g.press.1 g.press.2.1 g.press.2.2 ::
    (g.middle ++ .mouse g.release.1 g.release.2.1 g.release.2.2 :: List.replicate g.ticks .hostTick)

lemma held_mouse (g : Gesture) (dx dy : ℤ) (buttons : ℕ)
    (hmem : .mouse dx dy buttons ∈ g.middle) : Pointer.leftDown buttons = true :=
  g.held _ hmem

def Hits (g : Gesture) (env : PointerEnv) (p : Pointer) (id : Uuid) : Prop :=
  let moved := p.update env g.press.1 g.press.2.1 g.press.2.2
  env.hitWidget moved.x moved.y = some id

end Gesture

/-- What ends with the release is no delivery. -/
lemma not_gestureDelivered_concat (log : List GestureLog) :
    ¬ GestureDelivered (log ++ [.released]) := by
  rintro ⟨before, after, x, y, x', y', hlog, -⟩
  have hlast := congrArg List.getLast? hlog
  rw [getLast?_concat, ← cons_append, ← append_assoc, getLast?_concat] at hlast
  cases hlast

lemma IsClick.gestureDelivered {log : List GestureLog} (h : IsClick log) :
    GestureDelivered (.released :: log) := by
  obtain ⟨x, y, x', y', rfl⟩ := h
  exact ⟨[], [.event (.mouseDown x y 1)], x', y', x, y, rfl, [], rfl⟩

section

variable (hk : Quiet k) (env : PointerEnv) (σ : GestureSystem k) (g : Gesture)
  (hrests : σ.Rests id false) (hup : Pointer.leftDown σ.pointer.buttons = false)
  (hhit : g.Hits env σ.pointer id) (hknown : id ∈ σ.pointer.manager.widgets)
include hk hrests hup hhit hknown

/-- The log of a gesture: the click comes with the first tick after the press, and a gesture without
any tick is not heard of. -/
lemma Gesture.log_cases :
    ∃ click, (.hostTick ∈ g.middle ∨ 0 < g.ticks → IsClick click)
      ∧ outputs (GestureSystem.step env) (GestureSystem.log id) σ g.steps
        = if .hostTick ∈ g.middle then click ++ [.released]
          else if 0 < g.ticks then .released :: click else [.released] := by
  obtain ⟨widget, hwidget⟩ : ∃ widget, σ.pointer.manager.widgets[id]? = some widget :=
    Option.isSome_iff_exists.mp (isSome_getElem?_iff_mem.mpr hknown)
  -- After the press a click waits and the button is down.
  have hpress := hrests.press hup g.pressed hhit hwidget
  have hdown : Pointer.leftDown
      (σ.step env (.mouse g.press.1 g.press.2.1 g.press.2.2)).pointer.buttons = true :=
    (Pointer.leftDown_onMouseEvent ..).trans g.pressed
  have hpressLog : σ.log id (.mouse g.press.1 g.press.2.1 g.press.2.2) = [] := by
    simp [GestureSystem.log, Pointer.released, g.pressed]
  rw [Gesture.steps, outputs, hpressLog, nil_append, outputs_append, outputs]
  generalize σ.step env (.mouse g.press.1 g.press.2.1 g.press.2.2) = τ at hpress hdown ⊢
  -- It still is at the release.
  have hlast := GestureSystem.leftDown_run_held env hdown g.held_mouse
  have hreleaseLog : (run (GestureSystem.step env) τ g.middle).log id
      (.mouse g.release.1 g.release.2.1 g.release.2.2) = [.released] := by
    simp [GestureSystem.log, Pointer.released, g.let_go, hlast]
  have hticks : ∀ υ : GestureSystem k, ∀ dx dy buttons,
      .mouse dx dy buttons ∈ List.replicate g.ticks GestureStep.hostTick →
      Pointer.leftDown buttons = true ∧ Pointer.leftDown υ.pointer.buttons = true :=
    fun _ _ _ _ hmem => absurd (eq_of_mem_replicate hmem) (by simp)
  rw [hreleaseLog]
  rcases hpress.run_held hk env fun dx dy buttons hmem =>
      ⟨g.held_mouse dx dy buttons hmem, hdown⟩ with
    ⟨hnone, hwaits, hlog⟩ | ⟨-, hsome, hwaits, hlog⟩
  all_goals
    have hreleased := hwaits.mouse env g.release.1 g.release.2.1 g.release.2.2 fun _ => hlast
    rcases hreleased.run_held hk env (hticks _) with ⟨hzero, -, hlog'⟩ | ⟨hclick, htick, -, hlog'⟩
  · grind
  · grind
  · exact ⟨_, fun _ => hlog, by simp [hsome, hlog']⟩
  · cases hclick

/-- A gesture on a widget is delivered exactly when the host has no tick while the button is held
and one later. -/
theorem gesture_delivered_iff :
    GestureDelivered (outputs (GestureSystem.step env) (GestureSystem.log id) σ g.steps)
      ↔ .hostTick ∉ g.middle ∧ 0 < g.ticks := by
  obtain ⟨click, hclick, hlog⟩ := g.log_cases hk env σ hrests hup hhit hknown
  rw [hlog]
  by_cases hmiddle : .hostTick ∈ g.middle
  · rw [if_pos hmiddle]
    exact iff_of_false (not_gestureDelivered_concat click) fun h => h.1 hmiddle
  by_cases hticks : 0 < g.ticks
  · rw [if_neg hmiddle, if_pos hticks]
    exact iff_of_true (hclick (.inr hticks)).gestureDelivered ⟨hmiddle, hticks⟩
  · rw [if_neg hmiddle, if_neg hticks]
    exact iff_of_false (not_gestureDelivered_concat []) fun h => hticks h.2

end

def wholeScreen : PointerEnv := ⟨100, 100, fun _ _ => some 1#128⟩

/-- The widget is known to the compositor and nothing has happened. -/
def untouched : GestureSystem idleToolkit where
  store := .new
  pointer := ⟨0, 0, 0, ⟨(∅ : Std.ExtTreeMap Uuid Widget compare).insert 1#128 (.blank 1#128),
    none⟩⟩
  host := ⟨∅, none⟩
  pending := []

/-- A press, a move and the release. -/
def drag (middle : List GestureStep) (held : ∀ i ∈ middle, i.held = true) : Gesture :=
  ⟨(5, 5, 1), middle, (0, 0, 0), 1, rfl, held, rfl⟩

lemma untouched_rests : untouched.Rests 1#128 false where
  store := by
    intro node thing hthing
    cases hthing
  prevDown := rfl
  waits := by
    intro thing hthing
    cases hthing

theorem gesture_delivered_iff_drag :
    GestureDelivered (outputs (GestureSystem.step wholeScreen) (GestureSystem.log 1#128) untouched
      (drag [.mouse 1 1 1] (by decide)).steps) :=
  (gesture_delivered_iff (fun _ _ _ _ hw => by cases hw) wholeScreen untouched _ untouched_rests rfl
    rfl (by decide +kernel)).mpr ⟨by decide, by decide⟩

/-- With a tick of the host between the press and the move, the button goes up before it is
released. -/
theorem held_button_released :
    outputs (GestureSystem.step wholeScreen) (GestureSystem.log 1#128) untouched
        (drag [.hostTick, .mouse 1 1 1] (by decide)).steps
      = [.event (.mouseDown 5 5 1), .event (.mouseUp 5 5 1), .released]
    ∧ ¬ GestureDelivered (outputs (GestureSystem.step wholeScreen) (GestureSystem.log 1#128)
      untouched (drag [.hostTick, .mouse 1 1 1] (by decide)).steps) := by
  have hlog : outputs (GestureSystem.step wholeScreen) (GestureSystem.log 1#128) untouched
      (drag [.hostTick, .mouse 1 1 1] (by decide)).steps
        = [.event (.mouseDown 5 5 1), .event (.mouseUp 5 5 1), .released] := by
    decide +kernel
  refine ⟨hlog, ?_⟩
  rw [hlog]
  exact not_gestureDelivered_concat [.event (.mouseDown 5 5 1), .event (.mouseUp 5 5 1)]

end ThingOS.Compositor
