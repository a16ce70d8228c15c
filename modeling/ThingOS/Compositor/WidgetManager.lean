import ThingOS.Common.Replica
import ThingOS.Common.Run
import ThingOS.Compositor.Window
import ThingOS.Host.Store

/-!
# The compositor's replica of the widgets

`WidgetManager` of `compositor/src/widget_manager.rs` keeps a `Widget` for every widget Thing it was
told of: loaded from the first, updated by every later one. An update takes a missing field as one
about which nothing is said, while the store forgets the old fields of a Thing that is declared
anew. So the replica is the widget of the store exactly when every attribute that the last Thing
leaves open was never set or last set to its default.
-/

namespace ThingOS.Compositor

open Ui Host InMemoryGraphStore List Widget

/-- `WidgetManager`, without its cache of icons. -/
structure WidgetManager where
  widgets : Std.ExtTreeMap Uuid Widget compare
  activeWidget : Option Uuid

namespace WidgetManager

def new : WidgetManager where
  widgets := ∅
  activeWidget := none

/-- The scroll position of a window follows its scrollbar. -/
def syncScroll (windows : Windows) (widget : Widget) (thing : GraphThing) : Windows :=
  match widget.parent, thing.field Canon.scrollY Value.asI64 with
  | some parent, some scrollY =>
    match windows[parent]? with
    | some window =>
      if window.scrollbarWidgetId = some widget.id then
        windows.insert parent { window with scrollY := asI32 scrollY }
      else windows
    | none => windows
  | _, _ => windows

def ingestWidget (m : WidgetManager) (windows : Windows) (thing : GraphThing) :
    WidgetManager × Windows :=
  match m.widgets[thing.id]? with
  | some existing =>
    let widget := existing.update thing
    ({ m with widgets := m.widgets.insert thing.id widget }, syncScroll windows widget thing)
  | none =>
    match load thing with
    | some widget =>
      ({ m with widgets := m.widgets.insert widget.id widget }, syncScroll windows widget thing)
    | none => (m, windows)

/-- The Things delivered one after the other. -/
def ingestWidgets (m : WidgetManager) (windows : Windows) (things : List GraphThing) :
    WidgetManager × Windows :=
  things.foldl (fun state thing => ingestWidget state.1 state.2 thing) (m, windows)

variable {m : WidgetManager} {windows : Windows} {id : Uuid} {thing : GraphThing}

lemma widgets_ingestWidget (hid : thing.id = id) (hkind : thing.kind = Canon.widget) :
    (ingestWidget m windows thing).1.widgets[id]?
      = some ((m.widgets[id]?.getD (Widget.blank id)).update thing) := by
  subst hid
  cases hm : m.widgets[thing.id]? with
  | some existing => simp [ingestWidget, hm]
  | none => simp [ingestWidget, hm, load_eq thing hkind, Widget.blank]

/-- The replica is a blank widget, updated by every Thing. -/
lemma widgets_ingestWidgets (hm : m.widgets[id]? = none) {things : List GraphThing}
    (hne : things ≠ []) (hthings : ∀ t ∈ things, t.id = id ∧ t.kind = Canon.widget) :
    (ingestWidgets m windows things).1.widgets[id]?
      = some (things.foldl update (Widget.blank id)) := by
  induction things using List.reverseRecOn with
  | nil => exact absurd rfl hne
  | append_singleton things t ih =>
    obtain ⟨hid, hkind⟩ := hthings t (by simp)
    rw [ingestWidgets, foldl_append, foldl_append]
    refine (widgets_ingestWidget hid hkind).trans ?_
    rcases eq_nil_or_concat things with rfl | ⟨init, x, rfl⟩
    · simp [hm]
    · have hprev := ih (by simp) fun u hu => hthings u (mem_append_left _ hu)
      rw [ingestWidgets] at hprev
      rw [hprev]
      rfl

end WidgetManager

/-! ## A widget's history -/

inductive WidgetRequest where
  | fiat (labels : List Symbol) (fields : Map)
  | setProps (props : Map)

namespace WidgetRequest

/-- The store after a request about the widget `id`, and the Thing that is delivered. A widget that
is not there has no properties to set. -/
def serve (id : Uuid) (s : InMemoryGraphStore) : WidgetRequest →
    InMemoryGraphStore × Option GraphThing
  | .fiat labels fields =>
    let (s, thing) := s.fiat ⟨some id, Canon.widget, labels, fields⟩
    (s, some thing)
  | .setProps props =>
    match s.propsSet ⟨id, props⟩ with
    | (s, .ok thing) => (s, some thing)
    | (s, .error _) => (s, none)

def served (id : Uuid) : InMemoryGraphStore → List WidgetRequest → InMemoryGraphStore :=
  run fun s request => (serve id s request).1

def delivered (id : Uuid) : InMemoryGraphStore → List WidgetRequest → List GraphThing :=
  outputs (fun s request => (serve id s request).1) fun s request => (serve id s request).2.toList

variable {id : Uuid} {s : InMemoryGraphStore}

/-- What is delivered is what is stored, and nothing is delivered when nothing changes. -/
lemma serve_spec (request : WidgetRequest)
    (hkind : ∀ t : GraphThing, s.things[id]? = some t → t.id = id ∧ t.kind = Canon.widget) :
    ((serve id s request).2 = none ∧ (serve id s request).1.things = s.things)
      ∨ ∃ t : GraphThing, (serve id s request).2 = some t ∧ t.id = id ∧ t.kind = Canon.widget
        ∧ (serve id s request).1.things[id]? = some t := by
  cases request with
  | fiat labels fields =>
    exact .inr ⟨_, rfl, rfl, rfl, by
      simp [serve, InMemoryGraphStore.fiat, InMemoryGraphStore.nextRevision, idOrNext]⟩
  | setProps props =>
    cases hthing : s.things[id]? with
    | none => exact .inl (by simp [serve, propsSet, hthing])
    | some t =>
      obtain ⟨hid, hwidget⟩ := hkind t hthing
      exact .inr ⟨{ t with
          fields := InMemoryGraphStore.extend t.fields props, revision := s.revision },
        by simp [serve, propsSet, hthing, InMemoryGraphStore.nextRevision],
        hid, hwidget,
        by simp [serve, propsSet, hthing, InMemoryGraphStore.nextRevision]⟩

lemma things_served (hs : s.things[id]? = none) (requests : List WidgetRequest) :
    (served id s requests).things[id]? = (delivered id s requests).getLast?
      ∧ ∀ t ∈ delivered id s requests, t.id = id ∧ t.kind = Canon.widget := by
  induction requests using List.reverseRecOn with
  | nil => exact ⟨hs, by simp [delivered, outputs]⟩
  | append_singleton requests request ih =>
    obtain ⟨hlast, hall⟩ := ih
    have hkind : ∀ t : GraphThing, (served id s requests).things[id]? = some t →
        t.id = id ∧ t.kind = Canon.widget := fun t ht =>
      hall t (mem_of_getLast? (hlast.symm.trans ht))
    rw [served, run_concat, delivered, outputs_concat]
    rcases serve_spec request hkind with ⟨hnone, hsame⟩ | ⟨t, hsome, hid, hwidget, hstored⟩
    · rw [served] at hnone hsame
      rw [hnone, hsame, Option.toList_none, append_nil]
      exact ⟨hlast, hall⟩
    · rw [served] at hsome hstored
      rw [hsome, hstored, Option.toList_some]
      exact ⟨by simp, forall_mem_concat.mpr ⟨hall, hid, hwidget⟩⟩

end WidgetRequest

open WidgetRequest

/-- Every attribute that the last Thing leaves open was never set before or last set to its
default. -/
def LeftAtDefault (id : Uuid) (things : List GraphThing) : Prop :=
  ∀ earlier last, things = earlier ++ [last] →
    ∀ a : Widget.Attribute, a.read last = none →
      ∀ v, Replica.lastRead (fun thing a => Widget.Attribute.read thing a) a earlier = some v →
        v = (Widget.blank id).get a

lemma get_foldl_update (w : Widget) (things : List GraphThing) :
    (things.foldl update w).get
      = things.foldl (Replica.patch fun thing a => Widget.Attribute.read thing a) w.get := by
  induction things generalizing w with
  | nil => rfl
  | cons t things ih =>
    rw [foldl_cons, foldl_cons, ih]
    congr 1
    funext a
    exact w.get_update t a

lemma id_foldl_update (w : Widget) (things : List GraphThing) :
    (things.foldl update w).id = w.id := by
  induction things generalizing w with
  | nil => rfl
  | cons t things ih => exact ih (w.update t)

/-- After any requests about a new widget, the replica is the widget that the store has exactly when
what the last Thing leaves open is at its default. -/
theorem replica_consistent_iff (id : Uuid) (m : WidgetManager) (windows : Windows)
    (s : InMemoryGraphStore) (hm : m.widgets[id]? = none) (hs : s.things[id]? = none)
    (requests : List WidgetRequest) :
    (m.ingestWidgets windows (delivered id s requests)).1.widgets[id]?
        = (served id s requests).things[id]?.bind load
      ↔ LeftAtDefault id (delivered id s requests) := by
  obtain ⟨hlast, hall⟩ := things_served hs requests
  rw [hlast]
  rcases eq_nil_or_concat (delivered id s requests) with hnil | ⟨earlier, last, hthings⟩
  · rw [hnil]
    refine iff_of_true ?_ ?_
    · simpa [WidgetManager.ingestWidgets] using hm
    · intro earlier last h
      simp at h
  · rw [concat_eq_append] at hthings
    rw [hthings] at hall ⊢
    obtain ⟨hid, hkind⟩ := hall last (by simp)
    rw [WidgetManager.widgets_ingestWidgets hm (by simp) hall, getLast?_concat,
      Option.bind_some, load_eq last hkind, hid, Option.some_inj,
      eq_iff_get (by rw [id_foldl_update, update_id]), get_foldl_update]
    have hload : ((Widget.blank id).update last).get
        = Replica.patch (fun thing a => Widget.Attribute.read thing a) (Widget.blank id).get last :=
      funext fun a => get_update _ last a
    rw [hload, Replica.foldl_patch_concat_eq_iff]
    constructor
    · intro h earlier' last' heq
      obtain ⟨rfl, hlast'⟩ := append_inj' heq rfl
      obtain rfl := singleton_inj.mp hlast'
      exact h
    · intro h
      exact h earlier last rfl

def declareWidth : WidgetRequest := .fiat [] ((∅ : Map).insert Canon.width (.u64 5))

def setLabel : WidgetRequest := .setProps ((∅ : Map).insert Canon.label (.text "ok"))

theorem replica_consistent_iff_setLabel :
    (WidgetManager.new.ingestWidgets ∅
        (delivered 1#128 .new [declareWidth, setLabel])).1.widgets[1#128]?
      = (served 1#128 .new [declareWidth, setLabel]).things[1#128]?.bind load := by
  refine (replica_consistent_iff 1#128 .new ∅ .new rfl rfl [declareWidth, setLabel]).mpr ?_
  obtain ⟨first, second, hthings, hkept⟩ : ∃ first second : GraphThing,
      delivered 1#128 .new [declareWidth, setLabel] = [first] ++ [second]
        ∧ ∀ a : Widget.Attribute, (a.read second).isNone → (a.read first).isNone :=
    ⟨_, _, rfl, by intro a; cases a <;> decide +kernel⟩
  intro earlier last heq a hnone v hv
  obtain ⟨rfl, hlast⟩ := append_inj' (hthings.symm.trans heq) rfl
  obtain rfl := singleton_inj.mp hlast
  have hfirst := Option.isNone_iff_eq_none.mp (hkept a (Option.isNone_iff_eq_none.mpr hnone))
  simp [Replica.lastRead, hfirst] at hv

/-- The widget is declared again, without a width. The replica keeps the old one. -/
theorem replica_keeps_width :
    (WidgetManager.new.ingestWidgets ∅
        (delivered 1#128 .new [declareWidth, .fiat [] ∅])).1.widgets[1#128]?.bind width
        = some 5
      ∧ ((served 1#128 .new [declareWidth, .fiat [] ∅]).things[1#128]?.bind load).bind
        width = none := by
  decide +kernel

end ThingOS.Compositor
