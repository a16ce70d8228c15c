import ThingOS.Kernel.Graph.WatchDelivery
import ThingOS.Host.WatchDelivery

/-!
# From filters to patterns

`register_graph` of `userland/src/watch.rs` turns a filter into a pattern: the kind becomes a label
and the id a value of the property `SRC`. To the matchers a label is one of the labels of a Thing,
which need not be its kind, and `SRC` is a field of the Thing or the source of an edge, but never
the id of a Thing. `register_journal` hands over the kind and drops the source and the destination.
-/

namespace ThingOS

open BoundedQueue GraphState List Host.HostRuntime

structure ThingFilter where
  kind : Option Symbol
  id : Option Uuid

structure EventFilter where
  kind : Option Symbol
  src : Option Uuid
  dst : Option Uuid

/-- The pattern that `register_graph` registers. -/
def ThingFilter.pattern (filter : ThingFilter) : NodePattern where
  labels := filter.kind.toList
  props :=
    match filter.id with
    | some id => (∅ : Map).insert Canon.src (.uuid id)
    | none => ∅

/-- The filter that `register_journal` hands to `register_graph`. -/
def EventFilter.thingFilter (filter : EventFilter) : ThingFilter where
  kind := filter.kind
  id := none

/-- The watches of the apps, with their ids in the manager and in the runtime. The inboxes, to which
`process_graph` moves every change that a poll returns, are left out. -/
structure WatchManager where
  /-- A `u32`. -/
  nextWatch : ℕ
  appWatches : Std.ExtTreeMap ℕ (List (ℕ × WatchId)) compare

namespace WatchManager

variable {R : Type*} (watchPattern : R → NodePattern → R × Option WatchId)

def allocWatch (m : WatchManager) : WatchManager × ℕ :=
  ({ m with nextWatch := (m.nextWatch + 1) % 2 ^ 32 }, m.nextWatch)

def watchesOf (m : WatchManager) (app : ℕ) : List (ℕ × WatchId) := m.appWatches.getD app []

/-- The manager, the runtime and the id of the watch. -/
def registerPattern (m : WatchManager) (runtime : R) (app : ℕ) (pattern : NodePattern) :
    WatchManager × R × ℕ :=
  let (m, watch) := m.allocWatch
  match watchPattern runtime pattern with
  | (runtime, some handle) =>
    ({ m with appWatches := m.appWatches.insert app (m.watchesOf app ++ [(watch, handle)]) },
      runtime, watch)
  | (runtime, none) => (m, runtime, watch)

def registerGraph (m : WatchManager) (runtime : R) (app : ℕ) (filter : ThingFilter) :
    WatchManager × R × ℕ :=
  m.registerPattern watchPattern runtime app filter.pattern

def registerJournal (m : WatchManager) (runtime : R) (app : ℕ) (filter : EventFilter) :
    WatchManager × R × ℕ :=
  m.registerGraph watchPattern runtime app filter.thingFilter

variable {watchPattern}

lemma registerPattern_eq {runtime runtime' : R} {pattern : NodePattern} {handle : WatchId}
    (h : watchPattern runtime pattern = (runtime', some handle)) (m : WatchManager) (app : ℕ) :
    (m.registerPattern watchPattern runtime app pattern).2 = (runtime', m.nextWatch)
      ∧ ((m.registerPattern watchPattern runtime app pattern).1.watchesOf app).getLast?
        = some (m.nextWatch, handle) := by
  simp [registerPattern, allocWatch, h, watchesOf]

end WatchManager

/-! ## What the filters ask for -/

/-- The change is one of a Thing with the kind and the id that are given. -/
def ThingFilter.accepts (filter : ThingFilter) : GraphChange → Bool
  | .thing thing => filter.kind.all (thing.kind == ·) && filter.id.all (thing.id == ·)
  | .edge _ => false

/-- The change has the kind, the source and the destination that are given. A Thing names source and
destination in its fields. What it is for an edge to be of a kind is left open. -/
def EventFilter.accepts (ofKind : GraphEdge → Symbol → Bool) (filter : EventFilter) :
    GraphChange → Bool
  | .thing thing =>
    filter.kind.all (thing.kind == ·)
      && filter.src.all (fun src => thing.fields[Canon.src]? == some (.uuid src))
      && filter.dst.all (fun dst => thing.fields[Canon.dst]? == some (.uuid dst))
  | .edge edge =>
    filter.kind.all (ofKind edge) && filter.src.all (edge.src == ·)
      && filter.dst.all (edge.dst == ·)

/-! ## What the patterns match -/

namespace ThingFilter

/-- The Thing has the kind for a label and names the id in its field `SRC`. -/
def Carried (filter : ThingFilter) (thing : GraphThing) : Prop :=
  (∀ kind ∈ filter.kind, kind ∈ thing.labels)
    ∧ ∀ id ∈ filter.id, thing.fields[Canon.src]? = some (.uuid id)

/-- The Thing at an end of the edge has the kind for a label, and it or the edge names the id as
source. -/
def CarriedAlong (s : Store) (filter : ThingFilter) (edge : GraphEdge) : Prop :=
  ∃ thing, s.edgeTarget edge = some thing ∧ (∀ kind ∈ filter.kind, kind ∈ thing.labels)
    ∧ ∀ id ∈ filter.id, thing.fields[Canon.src]? = some (.uuid id) ∨ edge.src = id

/-- The kind is the predicate of the edge, and no id is given. -/
def Names (filter : ThingFilter) (edge : GraphEdge) : Prop :=
  (∀ kind ∈ filter.kind, Host.symbolName kind = some edge.pred) ∧ filter.id = none

/-- The change is matched exactly if it is asked for, where `along` says of an edge that it is
matched. -/
def Faithful (along : GraphEdge → Prop) (filter : ThingFilter) : GraphChange → Prop
  | .thing thing => filter.Carried thing
      ↔ (∀ kind ∈ filter.kind, thing.kind = kind) ∧ ∀ id ∈ filter.id, thing.id = id
  | .edge edge => ¬ along edge

variable {filter : ThingFilter}

lemma forall_props_iff {P : Symbol → Value → Prop} :
    (∀ k v, filter.pattern.props[k]? = some v → P k v)
      ↔ ∀ id ∈ filter.id, P Canon.src (.uuid id) := by
  cases hid : filter.id with
  | none => simp [pattern, hid]
  | some id =>
    simp only [pattern, hid, Option.mem_some_iff, forall_eq']
    constructor
    · intro h
      exact h _ _ Std.ExtTreeMap.getElem?_insert_self
    · grind

lemma forall_labels_iff {P : Symbol → Prop} :
    (∀ label ∈ filter.pattern.labels, P label) ↔ ∀ kind ∈ filter.kind, P kind := by
  simp [pattern]

lemma patternMatches_iff (thing : GraphThing) :
    Host.patternMatches thing filter.pattern = true ↔ filter.Carried thing := by
  simp only [Host.patternMatches, Bool.and_eq_true, all_eq_true, Prod.forall,
    Std.ExtTreeMap.mem_toList_iff_getElem?_eq_some, Std.ExtTreeSet.contains_iff_mem, beq_iff_eq,
    forall_props_iff, forall_labels_iff]
  rfl

lemma matchChange_edge_iff (edge : GraphEdge) :
    Host.matchChange (.edge edge) filter.pattern = true ↔ filter.Names edge := by
  have hlabels : (filter.pattern.labels = []
        ∨ ∃ label ∈ filter.pattern.labels, Host.symbolName label = some edge.pred)
      ↔ ∀ kind ∈ filter.kind, Host.symbolName kind = some edge.pred := by
    cases hkind : filter.kind <;> simp [pattern, hkind]
  have hprops : filter.pattern.props = ∅ ↔ filter.id = none := by
    cases hid : filter.id with
    | none => simp [pattern, hid]
    | some id =>
      rw [← Std.ExtTreeMap.isEmpty_iff]
      simp [pattern, hid]
  rw [Host.matchChange, Host.edgeMatches_iff, hlabels, hprops]
  rfl

lemma sees_edge_iff_carriedAlong (s : Store) (edge : GraphEdge) :
    s.sees kernelBundleId filter.pattern (.edge edge) = true ↔ filter.CarriedAlong s edge := by
  have hsrc : Canon.src ≠ Canon.dst ∧ Canon.src ≠ Canon.predicate := by decide
  have hmet (thing : GraphThing) (id : Uuid) : Store.PropMet thing edge Canon.src (.uuid id)
      ↔ thing.fields[Canon.src]? = some (.uuid id) ∨ edge.src = id := by
    simp [Store.PropMet, hsrc, eq_comm]
  simp only [Store.sees_edge_iff, forall_props_iff, forall_labels_iff, hmet]
  rfl

lemma faithful_iff {matched : GraphChange → Bool} {along : GraphEdge → Prop}
    (hthing : ∀ thing, matched (.thing thing) = true ↔ filter.Carried thing)
    (hedge : ∀ edge, matched (.edge edge) = true ↔ along edge) (change : GraphChange) :
    (matched change = true ↔ filter.accepts change = true) ↔ filter.Faithful along change := by
  cases change with
  | thing thing =>
    rw [hthing]
    simp [Faithful, accepts, Option.all_eq_true]
  | edge edge =>
    rw [hedge]
    simp [Faithful, accepts]

end ThingFilter

/-- The change is asked for if it is matched. The filter without an id matches a Thing that has the
kind for a label, and `along` says of an edge that it is matched. -/
def EventFilter.Faithful (ofKind : GraphEdge → Symbol → Bool) (along : GraphEdge → Prop)
    (filter : EventFilter) : GraphChange → Prop
  | .thing thing => (∀ kind ∈ filter.kind, kind ∈ thing.labels)
      → filter.accepts ofKind (.thing thing) = true
  | .edge edge => along edge → filter.accepts ofKind (.edge edge) = true

lemma EventFilter.faithful_iff {ofKind : GraphEdge → Symbol → Bool} {filter : EventFilter}
    {matched : GraphChange → Bool} {along : GraphEdge → Prop}
    (hthing : ∀ thing, matched (.thing thing) = true ↔ filter.thingFilter.Carried thing)
    (hedge : ∀ edge, matched (.edge edge) = true ↔ along edge) (change : GraphChange) :
    (matched change = true → filter.accepts ofKind change = true)
      ↔ filter.Faithful ofKind along change := by
  cases change with
  | thing thing =>
    rw [hthing]
    simp [Faithful, ThingFilter.Carried, thingFilter]
  | edge edge =>
    rw [hedge]
    rfl

/-! ## Delivery -/

/-- If whatever is wanted is matched or not on its own account, the matched entries are the wanted
ones exactly if each entry is matched and wanted or neither. -/
lemma map_filter_eq_filter_map_iff {α β : Type*} {f : α → β} {matched : α → Bool}
    {wanted : β → Bool} {l : List α}
    (hf : ∀ x ∈ l, ∀ y ∈ l, f x = f y → wanted (f x) = true → matched x = matched y) :
    (l.filter matched).map f = (l.map f).filter wanted
      ↔ ∀ x ∈ l, matched x = true ↔ wanted (f x) = true := by
  rw [filter_map]
  constructor
  · intro h x hx
    constructor
    · intro hmatched
      have hmem : f x ∈ (l.filter (wanted ∘ f)).map f := by
        rw [← h]
        exact mem_map_of_mem (mem_filter.mpr ⟨hx, hmatched⟩)
      obtain ⟨y, hy, heq⟩ := mem_map.mp hmem
      rw [← heq]
      exact (mem_filter.mp hy).2
    · intro hwanted
      have hmem : f x ∈ (l.filter matched).map f := by
        rw [h]
        exact mem_map_of_mem (mem_filter.mpr ⟨hx, hwanted⟩)
      obtain ⟨y, hy, heq⟩ := mem_map.mp hmem
      obtain ⟨hyl, hy⟩ := mem_filter.mp hy
      exact (hf x hx y hyl heq.symm hwanted).trans hy
  · intro h
    exact congrArg _ (filter_congr fun x hx => Bool.eq_iff_iff.mpr (h x hx))

namespace Store

variable {ext : Externs}

/-- A watch sees what is visible to its owner and what it would see if the kernel owned it. -/
lemma sees_eq_and (s : Store) (owner : BundleId) (pattern : NodePattern) (change : GraphChange) :
    s.sees owner pattern change
      = (s.changeVisibleTo owner change && s.sees kernelBundleId pattern change) := by
  have hvisible : s.changeVisibleTo kernelBundleId change = true := by
    cases change <;> simp [changeVisibleTo, canRead]
  simp [sees, hvisible]

/-- What arrives in one call is what the call commits, if the watch sees it. -/
lemma arrivals_append_observation (events : List (BoundedQueue.Event GraphChange)) (id : WatchId)
    (owner : BundleId) (pattern : NodePattern) (s : Store) (c : Call) :
    arrivals (events ++ s.observation ext id owner pattern c)
      = arrivals events
        ++ ((s.notified ext c).toList.filter fun p => p.1.sees owner pattern p.2).map Prod.snd := by
  unfold observation
  split
  · rename_i polled hop
    have hnone : s.notified ext c = none := by simp [notified, hop]
    rw [hnone]
    split <;> simp
  · cases s.notified ext c with
    | none => simp
    | some p =>
      obtain ⟨t, change⟩ := p
      dsimp only
      split <;> rename_i hsees <;> simp [hsees]

end Store

namespace GraphState

variable (ext : Externs)

/-- `graph::watch_pattern` of an app, on the kernel. -/
def watchPattern (bundle : BundleId) (now : ℕ) (g : GraphState) (pattern : NodePattern) :
    GraphState × Option WatchId :=
  match perform ext g ⟨bundle, now, .registerWatchPattern pattern⟩ with
  | (g, .watch id) => (g, some id)
  | (g, _) => (g, none)

/-- The changes that the calls of a run commit and that the bundle may see, with the store they are
looked up in. -/
def visible (bundle : BundleId) (g : GraphState) (calls : List Call) :
    List (Store × GraphChange) :=
  (outputs (step ext) (fun g c => (g.store.notified ext c).toList) g calls).filter
    fun p => p.1.changeVisibleTo bundle p.2

/-- The changes that a run queues for a watch of the state it starts from. -/
def delivered (id : WatchId) (g : GraphState) (calls : List Call) : List GraphChange :=
  match g.store.watches[id]? with
  | some watch => arrivals (observed ext id watch.owner watch.pattern g calls)
  | none => []

variable {ext}

lemma arrivals_observed (id : WatchId) (owner : BundleId) (pattern : NodePattern)
    (g : GraphState) (calls : List Call) :
    arrivals (observed ext id owner pattern g calls)
      = ((visible ext owner g calls).filter
          fun p => p.1.sees kernelBundleId pattern p.2).map Prod.snd := by
  unfold visible
  rw [filter_filter]
  simp only [Bool.and_comm (Store.sees _ _ _ _), ← Store.sees_eq_and]
  induction calls using List.reverseRecOn with
  | nil => rfl
  | append_singleton calls c ih =>
    rw [observed, outputs_concat, outputs_concat, filter_append, map_append, ← ih]
    exact Store.arrivals_append_observation _ _ _ _ _ _

/-- A watch that an app registers with the kernel gets what its pattern matches, of what the app may
see. -/
lemma delivered_registerPattern (bundle : BundleId) (now : ℕ) (g : GraphState)
    (m : WatchManager) (app : ℕ) (pattern : NodePattern) (calls : List Call) :
    let r := m.registerPattern (watchPattern ext bundle now) g app pattern
    (r.1.watchesOf app).getLast? = some (r.2.2, g.store.nextWatchId)
      ∧ delivered ext g.store.nextWatchId r.2.1 calls
        = ((visible ext bundle r.2.1 calls).filter
            fun p => p.1.sees kernelBundleId pattern p.2).map Prod.snd := by
  have hcall : watchPattern ext bundle now g pattern
      = (step ext g ⟨bundle, now, .registerWatchPattern pattern⟩, some g.store.nextWatchId) := rfl
  obtain ⟨hruntime, hlast⟩ := WatchManager.registerPattern_eq hcall m app
  have hwatch : (step ext g ⟨bundle, now, .registerWatchPattern pattern⟩).store.watches[
      g.store.nextWatchId]? = some ⟨g.store.nextWatchId, bundle, pattern, []⟩ :=
    (Store.getElem?_registerWatchPattern g.store _ _ _).trans (if_pos rfl)
  dsimp only
  rw [hruntime, hlast]
  refine ⟨rfl, ?_⟩
  rw [delivered, hwatch]
  exact arrivals_observed _ _ _ _ _

lemma sees_thing_iff_carried {filter : ThingFilter} (s : Store) (thing : GraphThing) :
    s.sees kernelBundleId filter.pattern (.thing thing) = true ↔ filter.Carried thing := by
  rw [s.sees_thing, ThingFilter.patternMatches_iff]

/-- The kernel delivers what a filter asks for if each visible change is matched as it should. -/
lemma delivers_exactly_iff (visible : List (Store × GraphChange)) (filter : ThingFilter) :
    (visible.filter fun p => p.1.sees kernelBundleId filter.pattern p.2).map Prod.snd
        = (visible.map Prod.snd).filter filter.accepts
      ↔ ∀ p ∈ visible, filter.Faithful (filter.CarriedAlong p.1) p.2 := by
  rw [map_filter_eq_filter_map_iff]
  · exact forall₂_congr fun p _ => ThingFilter.faithful_iff (sees_thing_iff_carried p.1)
      (ThingFilter.sees_edge_iff_carriedAlong p.1) p.2
  · -- only Things are asked for, and they are matched without a look at the store
    rintro ⟨s, change⟩ - ⟨t, _⟩ - rfl hwanted
    cases change with
    | thing thing =>
      rw [s.sees_thing, t.sees_thing]
    | edge edge => simp [ThingFilter.accepts] at hwanted

lemma delivers_only_iff (visible : List (Store × GraphChange)) (filter : EventFilter)
    (ofKind : GraphEdge → Symbol → Bool) :
    (∀ change ∈ (visible.filter fun p =>
          p.1.sees kernelBundleId filter.thingFilter.pattern p.2).map Prod.snd,
        filter.accepts ofKind change = true)
      ↔ ∀ p ∈ visible, filter.Faithful ofKind (filter.thingFilter.CarriedAlong p.1) p.2 := by
  simp only [forall_mem_map, mem_filter, and_imp]
  exact forall₂_congr fun p _ => EventFilter.faithful_iff (sees_thing_iff_carried p.1)
    (ThingFilter.sees_edge_iff_carriedAlong p.1) p.2

end GraphState

namespace Host.HostRuntime

/-- `graph::watch_pattern` of an app, on the host. -/
def watchPattern (σ : HostRuntime) (pattern : NodePattern) : HostRuntime × Option WatchId :=
  (σ.start 0 (.watchRegister pattern), some σ.nextWatch)

/-- The queue of a watch after some changes were pushed to the watchers. -/
def delivered (id : WatchId) (σ : HostRuntime) (changes : List GraphChange) : List GraphChange :=
  (((changes.foldl pushChange σ.watchers)[id]?).map WatchState.queue).getD []

lemma foldl_pushChange {watchers : Std.ExtTreeMap WatchId WatchState compare} {id : WatchId}
    {w : WatchState} (h : watchers[id]? = some w) (changes : List GraphChange) :
    ((changes.foldl pushChange watchers)[id]?).map (fun w => (w.pattern, w.queue))
      = some (w.pattern, w.queue ++ changes.filter (matchChange · w.pattern)) := by
  induction changes generalizing watchers w with
  | nil => simp [h]
  | cons change changes ih =>
    have hpush : (pushChange watchers change)[id]? = some (w.push change) := by
      rw [pushChange, Std.ExtTreeMap.getElem?_map, h, Option.map_some]
    rw [foldl_cons, ih hpush, WatchState.push]
    cases hmatch : matchChange change w.pattern <;> simp [hmatch]

lemma delivered_registerPattern (σ : HostRuntime) (m : WatchManager) (app : ℕ)
    (pattern : NodePattern) (changes : List GraphChange) :
    let r := m.registerPattern watchPattern σ app pattern
    (r.1.watchesOf app).getLast? = some (r.2.2, σ.nextWatch)
      ∧ delivered σ.nextWatch r.2.1 changes = changes.filter (matchChange · pattern) := by
  have hcall : watchPattern σ pattern = (σ.start 0 (.watchRegister pattern), some σ.nextWatch) :=
    rfl
  obtain ⟨hruntime, hlast⟩ := WatchManager.registerPattern_eq hcall m app
  have hwatch : (σ.start 0 (.watchRegister pattern)).watchers[σ.nextWatch]?
      = some ⟨pattern, [], 0⟩ := Std.ExtTreeMap.getElem?_insert_self
  dsimp only
  rw [hruntime, hlast]
  refine ⟨rfl, ?_⟩
  have hqueue := congrArg (fun o => (o.map Prod.snd).getD []) (foldl_pushChange hwatch changes)
  simpa [delivered, Function.comp_def] using hqueue

lemma delivers_exactly_iff (changes : List GraphChange) (filter : ThingFilter) :
    changes.filter (matchChange · filter.pattern) = changes.filter filter.accepts
      ↔ ∀ change ∈ changes, filter.Faithful filter.Names change := by
  have h := @map_filter_eq_filter_map_iff _ _ id (matchChange · filter.pattern) filter.accepts
    changes (by rintro x - y - rfl -; rfl)
  rw [map_id, map_id] at h
  rw [h]
  exact forall₂_congr fun change _ => @ThingFilter.faithful_iff filter
    (matchChange · filter.pattern) _ ThingFilter.patternMatches_iff
    ThingFilter.matchChange_edge_iff change

lemma delivers_only_iff (changes : List GraphChange) (filter : EventFilter)
    (ofKind : GraphEdge → Symbol → Bool) :
    (∀ change ∈ changes.filter (matchChange · filter.thingFilter.pattern),
        filter.accepts ofKind change = true)
      ↔ ∀ change ∈ changes, filter.Faithful ofKind filter.thingFilter.Names change := by
  simp only [mem_filter, and_imp]
  exact forall₂_congr fun change _ => @EventFilter.faithful_iff ofKind filter
    (matchChange · filter.thingFilter.pattern) _ ThingFilter.patternMatches_iff
    ThingFilter.matchChange_edge_iff change

end Host.HostRuntime

/-! ## Fidelity -/

/-- On the kernel and on the host, a watch made by `register_graph` gets exactly the changes of
Things that the filter asks for if and only if every visible change is matched exactly if it is
asked for; one made by `register_journal` gets only such changes if and only if those that are
matched are asked for. -/
theorem filter_fidelity_iff (ext : Externs) (bundle : BundleId) (now : ℕ) (g : GraphState)
    (σ : Host.HostRuntime) (m : WatchManager) (app : ℕ) (filter : ThingFilter)
    (journal : EventFilter) (ofKind : GraphEdge → Symbol → Bool) (calls : List Call)
    (changes : List GraphChange) :
    (let r := m.registerGraph (watchPattern ext bundle now) g app filter;
      (r.1.watchesOf app).getLast? = some (r.2.2, g.store.nextWatchId)
        ∧ (delivered ext g.store.nextWatchId r.2.1 calls
            = ((visible ext bundle r.2.1 calls).map Prod.snd).filter filter.accepts
          ↔ ∀ p ∈ visible ext bundle r.2.1 calls,
            filter.Faithful (filter.CarriedAlong p.1) p.2))
    ∧ (let r := m.registerJournal (watchPattern ext bundle now) g app journal;
      (r.1.watchesOf app).getLast? = some (r.2.2, g.store.nextWatchId)
        ∧ ((∀ change ∈ delivered ext g.store.nextWatchId r.2.1 calls,
            journal.accepts ofKind change = true)
          ↔ ∀ p ∈ visible ext bundle r.2.1 calls,
            journal.Faithful ofKind (journal.thingFilter.CarriedAlong p.1) p.2))
    ∧ (let r := m.registerGraph watchPattern σ app filter;
      (r.1.watchesOf app).getLast? = some (r.2.2, σ.nextWatch)
        ∧ (delivered σ.nextWatch r.2.1 changes = changes.filter filter.accepts
          ↔ ∀ change ∈ changes, filter.Faithful filter.Names change))
    ∧ (let r := m.registerJournal watchPattern σ app journal;
      (r.1.watchesOf app).getLast? = some (r.2.2, σ.nextWatch)
        ∧ ((∀ change ∈ delivered σ.nextWatch r.2.1 changes,
            journal.accepts ofKind change = true)
          ↔ ∀ change ∈ changes, journal.Faithful ofKind journal.thingFilter.Names change)) := by
  refine ⟨?_, ?_, ?_, ?_⟩
  · obtain ⟨hlast, hdelivered⟩ :=
      @GraphState.delivered_registerPattern ext bundle now g m app filter.pattern calls
    refine ⟨hlast, ?_⟩
    rw [WatchManager.registerGraph, hdelivered]
    exact delivers_exactly_iff _ filter
  · obtain ⟨hlast, hdelivered⟩ := @GraphState.delivered_registerPattern ext bundle now g m app
      journal.thingFilter.pattern calls
    refine ⟨hlast, ?_⟩
    rw [WatchManager.registerJournal, WatchManager.registerGraph, hdelivered]
    exact delivers_only_iff _ journal ofKind
  · obtain ⟨hlast, hdelivered⟩ :=
      delivered_registerPattern σ m app filter.pattern changes
    refine ⟨hlast, ?_⟩
    rw [WatchManager.registerGraph, hdelivered]
    exact delivers_exactly_iff changes filter
  · obtain ⟨hlast, hdelivered⟩ := delivered_registerPattern σ m app
      journal.thingFilter.pattern changes
    refine ⟨hlast, ?_⟩
    rw [WatchManager.registerJournal, WatchManager.registerGraph, hdelivered]
    exact delivers_only_iff changes journal ofKind

def WatchManager.new : WatchManager := ⟨0, ∅⟩

/-- The declaration of a Thing with the id `1` and the kind `WINDOW`. -/
def declareWindow : Call := ⟨kernelBundleId, 0, .fiat ⟨some 1#128, Canon.window, [], ∅⟩⟩

/-- A watch for the Thing `1` misses the declaration of the Thing `1`, and a watch of the journal
for changes at the source `7` is told of it, though it names no source. -/
theorem filters_unfaithful :
    (let r := WatchManager.new.registerGraph (watchPattern crates kernelBundleId 0) .new
        0 ⟨none, some 1#128⟩;
      delivered crates 1 r.2.1 [declareWindow]
        ≠ ((visible crates kernelBundleId r.2.1 [declareWindow]).map Prod.snd).filter
          (ThingFilter.accepts ⟨none, some 1#128⟩))
    ∧ (let r := WatchManager.new.registerJournal (watchPattern crates kernelBundleId 0)
        .new 0 ⟨none, some 7#128, none⟩;
      ∃ change ∈ delivered crates 1 r.2.1 [declareWindow],
        EventFilter.accepts (fun edge kind => Canon.symbolToString kind == edge.pred)
          ⟨none, some 7#128, none⟩ change = false) := by
  decide +kernel

end ThingOS
