import ThingOS.Kernel.Graph.KindIndex
import ThingOS.Kernel.Graph.Refinement
import ThingOS.Host.Store

/-!
# The kernel's store and the host's

The two stores are fed the same requests, the kernel's as the kernel bundle. They are compared by
what they answer: the Things for a pattern, the Things of a kind and the edges, without owner,
revision and edge id, without the `OWNER` field that the kernel fills in, and without the kernel
bundle's node and ownership edges.

They part in three places. A declaration's label list counts only for the host. A declaration that
changes the kind of a Thing leaves it in the kernel's index of the old kind. A link between two
Things that are linked already is one edge for the kernel; for the host the edge id counts.
`Stores.Alike` rules these out, and `Mirrors` then holds between the stores.
-/

namespace ThingOS

open GraphState Store List
open Host (InMemoryGraphStore)

/-! ## Requests -/

/-- A request that both stores serve. A declaration names its id. -/
inductive StoreRequest where
  | fiat (id : Uuid) (kind : Symbol) (labels : List Symbol) (fields : Map)
  | propsSet (request : GraphPropsRequest)
  | link (request : GraphLinkRequest)

def StoreRequest.op : StoreRequest → Op
  | fiat id kind labels fields => .fiat ⟨some id, kind, labels, fields⟩
  | propsSet request => .setProps request
  | link request => .linkEdge request

def Host.InMemoryGraphStore.serve (h : InMemoryGraphStore) : StoreRequest → InMemoryGraphStore
  | .fiat id kind labels fields => (h.fiat ⟨some id, kind, labels, fields⟩).1
  | .propsSet request => (h.propsSet request).1
  | .link request => (h.link request).1

structure Stores where
  kernel : GraphState
  host : InMemoryGraphStore

namespace Stores

def new : Stores := ⟨GraphState.new, .new⟩

/-- Both serve a request, which the kernel stamps with its clock. -/
def step (ext : Externs) (σ : Stores) (i : ℕ × StoreRequest) : Stores where
  kernel := GraphState.step ext σ.kernel ⟨kernelBundleId, i.1, i.2.op⟩
  host := σ.host.serve i.2

end Stores

/-! ## What is compared -/

/-- A Thing without owner, revision and `OWNER` field. -/
@[ext] structure ThingView where
  id : Uuid
  kind : Symbol
  labels : Std.ExtTreeSet Symbol compare
  fields : Map

def GraphThing.view (t : GraphThing) : ThingView :=
  ⟨t.id, t.kind, t.labels, t.fields.erase Canon.owner⟩

/-- The node of the kernel bundle is not compared. -/
def ThingView.compared (x : ThingView) : Bool := x.id != kernelBundleId

/-- An edge without id, owner and revision. -/
structure EdgeView where
  src : Uuid
  pred : String
  dst : Uuid
  props : Map

def GraphEdge.view (e : GraphEdge) : EdgeView := ⟨e.src, e.pred, e.dst, e.props⟩

def GraphLinkRequest.view (request : GraphLinkRequest) : EdgeView :=
  ⟨request.from_, request.pred, request.to_, request.props⟩

def EdgeView.compared (x : EdgeView) : Bool :=
  !(x.src == kernelBundleId && x.pred == Canon.symbolToString Canon.owns)

def comparedThings (things : List GraphThing) : List ThingView :=
  (things.map GraphThing.view).filter ThingView.compared

def comparedEdges (edges : List GraphEdge) : List EdgeView :=
  (edges.map GraphEdge.view).filter EdgeView.compared

/-- The stores give the same Things for every pattern, which may not ask for the `OWNER` field, and
for every kind, and have the same edges. -/
structure SameAnswers (s : Store) (h : InMemoryGraphStore) : Prop where
  pattern : ∀ p : NodePattern, Canon.owner ∉ p.props →
    (comparedThings (s.getNodes kernelBundleId p)).Perm (comparedThings (h.get (.pattern p)))
  kind : ∀ k, (comparedThings (s.latestOfKind k)).Perm (comparedThings (Host.ofKind h.things k))
  edges : (comparedEdges s.edges).Perm (comparedEdges (mapValues h.edges))

/-- The request is the same thing for both stores. A declaration lists no label but its kind and
does not change the kind of a Thing. A link is new to both stores, the kernel asking for the ends
and the predicate and the host for the edge id, or the host has the same edge under the id. The
kernel has revisions left. -/
def Stores.Alike (σ : Stores) (i : ℕ × StoreRequest) : Prop :=
  σ.kernel.store.issued + 2 < u64Size ∧
    match i.2 with
    | .fiat id kind labels _ => id = kernelBundleId
        ∨ (∀ l ∈ labels, l = kind) ∧ ∀ v, σ.kernel.store.latest id = some v → v.kind = kind
    | .propsSet _ => True
    | .link request =>
      let held := (σ.host.edges[(idOrNext request.id σ.host.uuids).1]?.map GraphEdge.view).filter
        EdgeView.compared
      held = some request.view
        ∨ held = none ∧ (request.view.compared = true →
          σ.kernel.store.edgeBetween request.from_ request.pred request.to_ = none)

/-! ## Views -/

/-- Whether a pattern that does not ask for `OWNER` matches depends on the view. -/
def ThingView.meets (p : NodePattern) (x : ThingView) : Bool :=
  (p.labels.all fun label => x.labels.contains label)
    && p.props.toList.all fun (k, v) => x.fields[k]? == some v

lemma GraphThing.getElem?_view_fields (t : GraphThing) {k : Symbol} (hk : k ≠ Canon.owner) :
    t.view.fields[k]? = t.fields[k]? := by
  simp [GraphThing.view, Std.ExtTreeMap.getElem?_erase, Ne.symm hk]

lemma Host.patternMatches_eq_meets {p : NodePattern} (hp : Canon.owner ∉ p.props)
    (t : GraphThing) : Host.patternMatches t p = t.view.meets p := by
  unfold Host.patternMatches ThingView.meets
  congr 1
  rw [Bool.eq_iff_iff, all_eq_true, all_eq_true]
  refine forall₂_congr ?_
  rintro ⟨k, v⟩ hentry
  have hkey : k ≠ Canon.owner := by
    grind
  simp only [t.getElem?_view_fields hkey]

lemma Store.matchesPattern_none (p : NodePattern) (t : GraphThing) :
    matchesPattern p t none = Host.patternMatches t p := by
  unfold matchesPattern Host.patternMatches
  congr 1
  refine all_congr rfl fun entry => ?_
  simp only [matchesProp]
  split <;> simp_all

lemma comparedThings_filter (p : ThingView → Bool) (things : List GraphThing) :
    comparedThings (things.filter fun t => p t.view) = (comparedThings things).filter p := by
  simp only [comparedThings, filter_map, filter_filter, Function.comp_def, Bool.and_comm]

@[simp] lemma comparedEdges_append (es fs : List GraphEdge) :
    comparedEdges (es ++ fs) = comparedEdges es ++ comparedEdges fs := by
  simp [comparedEdges]

lemma comparedEdges_singleton (e : GraphEdge) :
    comparedEdges [e] = if e.view.compared then [e.view] else [] := by
  simp [comparedEdges, filter_singleton]

/-- The Things filed in a map, listed by their ids. -/
lemma mapValues_eq_filterMap {ν : Type*} (m : Std.ExtTreeMap Uuid ν compare) :
    mapValues m = m.keys.filterMap fun id => m[id]? := by
  rw [mapValues, ← Std.ExtTreeMap.map_fst_toList_eq_keys, filterMap_map,
    ← filterMap_eq_map]
  refine filterMap_congr fun entry hentry => ?_
  simp [Std.ExtTreeMap.mem_toList_iff_getElem?_eq_some.mp hentry]

section Listing

variable {ids : List Uuid} {find : Uuid → Option GraphThing}
  (hfiled : ∀ id t, find id = some t → t.id = id)
include hfiled

lemma mem_comparedThings {x : ThingView} :
    x ∈ comparedThings (ids.filterMap find)
      ↔ x.compared = true ∧ x.id ∈ ids ∧ (find x.id).map GraphThing.view = some x := by
  simp only [comparedThings, mem_filter, mem_map, mem_filterMap,
    Option.map_eq_some_iff]
  constructor
  · rintro ⟨⟨t, ⟨id, hid, ht⟩, rfl⟩, hcompared⟩
    obtain rfl := hfiled id t ht
    exact ⟨hcompared, hid, t, ht, rfl⟩
  · rintro ⟨hcompared, hid, t, ht, hview⟩
    exact ⟨⟨t, ⟨x.id, hid, ht⟩, hview⟩, hcompared⟩

lemma nodup_comparedThings (hids : ids.Nodup) : (comparedThings (ids.filterMap find)).Nodup := by
  refine List.Nodup.filter _ ?_
  rw [map_filterMap]
  refine List.Nodup.filterMap ?_ hids
  intro a b x ha hb
  obtain ⟨t, ht, rfl⟩ := Option.map_eq_some_iff.mp ha
  obtain ⟨u, hu, hview⟩ := Option.map_eq_some_iff.mp hb
  rw [← hfiled a t ht, ← hfiled b u hu]
  exact congrArg ThingView.id hview.symm

end Listing

/-! ## The relation between the stores -/

/-- The stores agree Thing by Thing and edge by edge, and the kernel's indices are in order for
everything that is compared. -/
structure Mirrors (s : Store) (h : InMemoryGraphStore) : Prop where
  wellFormed : s.WellFormed
  ordered : s.Ordered
  filed : ∀ (id : Uuid) t, h.things[id]? = some t → t.id = id
  things : ∀ id, id ≠ kernelBundleId →
    (s.latest id).map GraphThing.view = h.things[id]?.map GraphThing.view
  oneKind : ∀ id, id ≠ kernelBundleId → ∀ v ∈ s.versions id, ∀ w, s.latest id = some w →
    v.kind = w.kind
  edges : (comparedEdges s.edges).Perm (comparedEdges (mapValues h.edges))

variable {id : Uuid} {request : GraphLinkRequest}

namespace Mirrors

variable {ext : Externs} {s t : Store} {h h' : InMemoryGraphStore}

lemma mem_keys (m : Mirrors s h) {x : ThingView}
    (hx : (s.latest id).map GraphThing.view = some x) : id ∈ s.things.keys := by
  obtain ⟨v, hv, -⟩ := Option.map_eq_some_iff.mp hx
  rw [Std.ExtTreeMap.mem_keys, Std.ExtTreeMap.mem_iff_isSome_getElem?, Option.isSome_iff_ne_none,
    Ne, ← m.wellFormed.latest_eq_none_iff, hv]
  simp

lemma filterMap_getLast?_things (s : Store) :
    (mapValues s.things).filterMap List.getLast? = s.things.keys.filterMap s.latest := by
  rw [mapValues_eq_filterMap, filterMap_filterMap]
  rfl

lemma comparedThings_perm (m : Mirrors s h) :
    (comparedThings ((mapValues s.things).filterMap List.getLast?)).Perm
      (comparedThings (mapValues h.things)) := by
  have hlatest : ∀ id v, s.latest id = some v → v.id = id := fun id v => m.wellFormed.latest_id
  rw [filterMap_getLast?_things, mapValues_eq_filterMap h.things]
  refine (perm_ext_iff_of_nodup (nodup_comparedThings hlatest ?_)
    (nodup_comparedThings m.filed ?_)).mpr fun x => ?_
  · exact Std.ExtTreeMap.nodup_keys
  · exact Std.ExtTreeMap.nodup_keys
  · rw [mem_comparedThings hlatest, mem_comparedThings m.filed]
    refine and_congr_right fun hcompared => ?_
    have hne : x.id ≠ kernelBundleId := by simpa [ThingView.compared] using hcompared
    rw [m.things x.id hne]
    constructor
    · grind
    · rintro ⟨-, hx⟩
      exact ⟨m.mem_keys ((m.things x.id hne).trans hx), hx⟩

lemma comparedThings_latestOfKind (m : Mirrors s h) (k : Symbol) :
    (comparedThings (s.latestOfKind k)).Perm
      ((comparedThings ((mapValues s.things).filterMap List.getLast?)).filter
        fun x => x.kind == k) := by
  have hlatest : ∀ id v, s.latest id = some v → v.id = id := fun id v => m.wellFormed.latest_id
  rw [filterMap_getLast?_things, latestOfKind_eq]
  refine (perm_ext_iff_of_nodup (nodup_comparedThings hlatest (nodup_toList _))
    ((nodup_comparedThings hlatest (Std.ExtTreeMap.nodup_keys)).filter _)).mpr fun x => ?_
  rw [mem_filter, mem_comparedThings hlatest, mem_comparedThings hlatest, and_assoc,
    and_assoc, beq_iff_eq]
  refine and_congr_right fun hcompared => ?_
  have hne : x.id ≠ kernelBundleId := by simpa [ThingView.compared] using hcompared
  rw [Std.ExtTreeSet.mem_toList, m.wellFormed.mem_kindIds]
  constructor
  · rintro ⟨⟨v, hv, hkind⟩, hx⟩
    refine ⟨m.mem_keys hx, hx, ?_⟩
    obtain ⟨w, hw, rfl⟩ := Option.map_eq_some_iff.mp hx
    exact (m.oneKind _ hne v hv w hw).symm.trans hkind
  · rintro ⟨-, hx, hkind⟩
    refine ⟨?_, hx⟩
    obtain ⟨w, hw, rfl⟩ := Option.map_eq_some_iff.mp hx
    rw [latest_eq_getLast?] at hw
    exact ⟨w, mem_of_getLast? hw, hkind⟩

lemma sameAnswers (m : Mirrors s h) : SameAnswers s h where
  pattern p hp := by
    have hmeets : ∀ t : GraphThing, matchesPattern p t none = t.view.meets p := fun t => by
      rw [matchesPattern_none, Host.patternMatches_eq_meets hp]
    have hread : ∀ id, s.canRead kernelBundleId id = true := fun id => by simp [canRead]
    simp only [getNodes, InMemoryGraphStore.get, hread, Bool.true_and, hmeets,
      Host.patternMatches_eq_meets hp]
    rw [comparedThings_filter, comparedThings_filter]
    exact m.comparedThings_perm.filter _
  kind k := by
    have hhost : (comparedThings (Host.ofKind h.things k)).Perm
        ((comparedThings (mapValues h.things)).filter fun x => x.kind == k) := by
      rw [← comparedThings_filter]
      exact ((mergeSort_perm _ _).map _).filter _
    exact (m.comparedThings_latestOfKind k).trans
      ((m.comparedThings_perm.filter _).trans hhost.symm)
  edges := m.edges

lemma new : Mirrors Store.new .new where
  wellFormed := wellFormed_new
  ordered := ordered_new
  filed := by simp [InMemoryGraphStore.new]
  things := by simp [Store.new, Store.latest, InMemoryGraphStore.new]
  oneKind := by simp [Store.new, Store.versions]
  edges := by simp [Store.new, InMemoryGraphStore.new, mapValues, comparedEdges]

/-! ## One request -/

/-- Edges are committed, Things are not. -/
lemma of_sameThings (m : Mirrors s h) (hwf : t.WellFormed) (hord : t.Ordered)
    (hversions : ∀ id, t.versions id = s.versions id) (hthings : h'.things = h.things)
    (hedges : (comparedEdges t.edges).Perm (comparedEdges (mapValues h'.edges))) :
    Mirrors t h' where
  wellFormed := hwf
  ordered := hord
  filed := by rw [hthings]; exact m.filed
  things id := by
    rw [hthings, latest_eq_getLast?, hversions, ← latest_eq_getLast?]
    exact m.things id
  oneKind id := by
    rw [latest_eq_getLast?, hversions, ← latest_eq_getLast?]
    exact m.oneKind id
  edges := hedges

lemma of_graph (m : Mirrors t h) (hgraph : s.graph = t.graph) : Mirrors s h :=
  m.of_sameThings (m.wellFormed.of_graph hgraph) (m.ordered.of_graph hgraph)
    (versions_eq_of_graph hgraph) rfl (by rw [edges_eq_of_graph hgraph]; exact m.edges)

section

variable (m : Mirrors s h) (hbound : s.issued + 1 < u64Size)
include m hbound

/-- The kernel commits a Thing and the host has the same under its id, unless it is the node of the
kernel bundle. -/
lemma commitThing (thing : ℕ → GraphThing) (hrev : ∀ r, (thing r).revision = r)
    (hkind : (thing s.nextRevision).id ≠ kernelBundleId →
      ∀ v, s.latest (thing s.nextRevision).id = some v → v.kind = (thing s.nextRevision).kind)
    (hfiled : ∀ (id : Uuid) t, h'.things[id]? = some t → t.id = id)
    (hthings : ∀ id, id ≠ kernelBundleId → h'.things[id]?.map GraphThing.view
      = if (thing s.nextRevision).id = id then some (thing s.nextRevision).view
        else h.things[id]?.map GraphThing.view)
    (hedges : h'.edges = h.edges) : Mirrors (s.commitThing thing) h' where
  wellFormed := m.wellFormed.commitThing thing
  ordered := m.ordered.commitThing hbound thing hrev
  filed := hfiled
  things id hid := by
    rw [m.ordered.latest_commitThing hbound thing hrev, hthings id hid]
    split
    · rfl
    · exact m.things id hid
  oneKind id hid v hv w hw := by
    rw [m.ordered.latest_commitThing hbound thing hrev] at hw
    rw [Store.commitThing, Store.versions_insertThing] at hv
    by_cases hthing : (thing s.nextRevision).id = id
    · subst hthing
      rw [if_pos rfl, Option.some.injEq] at hw
      subst hw
      have hold : ∀ u ∈ s.versions (thing s.nextRevision).id,
          u.kind = (thing s.nextRevision).kind := by
        intro u hu
        obtain ⟨last, hlast⟩ : ∃ last, s.latest (thing s.nextRevision).id = some last := by
          rw [latest_eq_getLast?]
          exact Option.isSome_iff_exists.mp (by simpa using ne_nil_of_mem hu)
        exact (m.oneKind _ hid u hu last hlast).trans (hkind hid last hlast)
      split at hv
      · rcases mem_append.mp hv with hv | hv
        · exact hold v hv
        · rw [mem_singleton.mp hv]
      · exact hold v hv
    · rw [if_neg hthing] at hw
      rw [if_neg fun h => hthing h.1] at hv
      exact m.oneKind id hid v hv w hw
  edges := by
    rw [commitThing_edges, hedges]
    exact m.edges

lemma ensureBundleNode :
    Mirrors (s.ensureBundleNode kernelBundleId) h := by
  refine ensureBundleNode_induction (P := fun t => Mirrors t h) kernelBundleId m ?_
  refine m.commitThing hbound _ (fun _ => rfl) (fun hne => absurd rfl hne) m.filed ?_ rfl
  intro id hid
  exact (if_neg hid.symm).symm

/-- The node of the kernel bundle is the only Thing that is new. -/
lemma latest_ensureBundleNode
    (hid : id ≠ kernelBundleId) : (s.ensureBundleNode kernelBundleId).latest id = s.latest id := by
  rcases ensureBundleNode_cases s kernelBundleId with heq | ⟨-, heq⟩
  · rw [heq]
  · rw [heq, m.ordered.latest_commitThing hbound _ fun _ => rfl]
    exact if_neg hid.symm

end

lemma comparedEdges_ownershipEdge (ext : Externs) (node : Uuid) (revision : ℕ) :
    comparedEdges [ownershipEdge ext kernelBundleId node revision] = [] := by
  simp [comparedEdges_singleton, GraphEdge.view, EdgeView.compared, ownershipEdge,
    bundleNodeId]

/-- What the two stores make of a declaration looks the same. -/
lemma view_fiat (ext : Externs) {kind : Symbol} {labels : List Symbol} {fields : Map}
    (hlabels : ∀ l ∈ labels, l = kind) (r r' : ℕ) :
    (nodeThing ext kernelBundleId (fiatNodeRequest ⟨some id, kind, labels, fields⟩) r).view
      = (InMemoryGraphStore.fiatThing id ⟨some id, kind, labels, fields⟩ r').view := by
  ext1
  · rfl
  · rfl
  · refine Std.ExtTreeSet.ext_mem fun l => ?_
    have hkernel : l ∈ nodeLabels (fiatNodeRequest ⟨some id, kind, labels, fields⟩) ↔ l = kind := by
      rw [mem_nodeLabels, requestLabels_fiat]
      rfl
    refine hkernel.trans ?_
    simp only [GraphThing.view, InMemoryGraphStore.fiatThing, InMemoryGraphStore.fiatLabels]
    cases labels with
    | nil => simpa using eq_comm
    | cons a rest =>
      have ha : a = kind := hlabels a mem_cons_self
      simp only [isEmpty_cons, Bool.false_eq_true, if_false, Std.ExtTreeSet.mem_ofList,
        contains_iff_mem]
      exact ⟨fun hl => by rw [hl, ← ha]; exact mem_cons_self, hlabels l⟩
  · refine Std.ExtTreeMap.ext_getElem? fun k => ?_
    simp only [GraphThing.view, nodeThing, InMemoryGraphStore.fiatThing,
      Std.ExtTreeMap.getElem?_erase, getElem?_nodeFields]
    by_cases hk : Canon.owner = k
    · simp [hk]
    · simp [hk, Ne.symm hk, fiatNodeRequest]

lemma fiat (m : Mirrors s h) (hbound : s.issued + 2 < u64Size) {kind : Symbol}
    {labels : List Symbol} {fields : Map} (halike : id = kernelBundleId
      ∨ (∀ l ∈ labels, l = kind) ∧ ∀ v, s.latest id = some v → v.kind = kind) :
    Mirrors (commitOwned ext (s.ensureBundleNode kernelBundleId) kernelBundleId
        (nodeThing ext kernelBundleId (fiatNodeRequest ⟨some id, kind, labels, fields⟩)))
      (h.fiat ⟨some id, kind, labels, fields⟩).1 := by
  have hens := m.ensureBundleNode (by omega)
  have hissued : (s.ensureBundleNode kernelBundleId).issued + 1 < u64Size := by
    rcases ensureBundleNode_cases s kernelBundleId with heq | ⟨-, heq⟩
    · rw [heq]
      omega
    · rw [heq, commitThing_issued]
      omega
  have hcommit : Mirrors ((s.ensureBundleNode kernelBundleId).commitThing
        (nodeThing ext kernelBundleId (fiatNodeRequest ⟨some id, kind, labels, fields⟩)))
      (h.fiat ⟨some id, kind, labels, fields⟩).1 :=
    hens.commitThing hissued _ (fun _ => rfl) ?_ ?_ ?_ rfl
  · refine hcommit.of_sameThings (hens.wellFormed.commitOwned ext _ _)
      (hens.ordered.commitOwned hissued ext _ _ fun _ => rfl)
      (fun id => versions_commitOwned ext _ _ _ id) rfl ?_
    rw [hens.ordered.edges_commitOwned hissued, comparedEdges_append,
      comparedEdges_ownershipEdge, append_nil]
    exact hens.edges
  · intro hne v hv
    have hid : id ≠ kernelBundleId := hne
    obtain ⟨-, hkinds⟩ := halike.resolve_left hid
    exact hkinds v ((m.latest_ensureBundleNode (by omega) hid).symm.trans hv)
  · intro other t ht
    simp only [InMemoryGraphStore.fiat, idOrNext, Std.ExtTreeMap.getElem?_insert,
      Std.LawfulEqCmp.compare_eq_iff_eq] at ht
    split at ht
    · rename_i heq
      cases ht
      exact heq
    · exact m.filed other t ht
  · intro other hother
    simp only [InMemoryGraphStore.fiat, idOrNext, Std.ExtTreeMap.getElem?_insert,
      Std.LawfulEqCmp.compare_eq_iff_eq]
    by_cases heq : id = other
    · subst heq
      have hnode : (nodeThing ext kernelBundleId (fiatNodeRequest ⟨some id, kind, labels, fields⟩)
          (s.ensureBundleNode kernelBundleId).nextRevision).id = id := rfl
      rw [if_pos rfl, if_pos hnode, Option.map_some,
        view_fiat ext (halike.resolve_left hother).1]
    · have hnode : (nodeThing ext kernelBundleId (fiatNodeRequest ⟨some id, kind, labels, fields⟩)
          (s.ensureBundleNode kernelBundleId).nextRevision).id ≠ other := heq
      rw [if_neg heq, if_neg hnode]
      rfl

/-- Overlaying properties on two Things that look the same. -/
lemma view_propsThing {current t : GraphThing} (hview : current.view = t.view)
    (request : GraphPropsRequest) (r r' : ℕ) :
    (propsThing current request r).view = (propsThing t request r').view := by
  have hfields : ∀ k : Symbol, k ≠ Canon.owner → current.fields[k]? = t.fields[k]? := fun k hk => by
    rw [← current.getElem?_view_fields hk, hview, t.getElem?_view_fields hk]
  have hid : current.id = t.id := congrArg ThingView.id hview
  have hkind : current.kind = t.kind := congrArg ThingView.kind hview
  have hlabels : current.labels = t.labels := congrArg ThingView.labels hview
  ext1
  · exact hid
  · exact hkind
  · exact hlabels
  · refine Std.ExtTreeMap.ext_getElem? fun k => ?_
    simp only [GraphThing.view, propsThing, Std.ExtTreeMap.getElem?_erase,
      getElem?_overlay]
    by_cases hk : Canon.owner = k
    · simp [hk]
    · rw [hfields k (Ne.symm hk)]

lemma filed_propsSet (m : Mirrors s h) (request : GraphPropsRequest) (id : Uuid) (t : GraphThing)
    (ht : (h.propsSet request).1.things[id]? = some t) : t.id = id := by
  unfold InMemoryGraphStore.propsSet at ht
  split at ht
  · rename_i current hcurrent
    simp only [InMemoryGraphStore.nextRevision, Std.ExtTreeMap.getElem?_insert,
      Std.LawfulEqCmp.compare_eq_iff_eq] at ht
    split at ht
    · rename_i heq
      cases ht
      rw [← heq]
      exact m.filed _ current hcurrent
    · exact m.filed id t ht
  · exact m.filed id t ht

lemma propsSet_edges (h : InMemoryGraphStore) (request : GraphPropsRequest) :
    (h.propsSet request).1.edges = h.edges := by
  unfold InMemoryGraphStore.propsSet
  split <;> rfl

lemma propsSet (m : Mirrors s h) (hbound : s.issued + 1 < u64Size) {request : GraphPropsRequest}
    {current : GraphThing} (hcurrent : s.latest request.node = some current) :
    Mirrors (s.commitThing (propsThing current request)) (h.propsSet request).1 := by
  have hid : current.id = request.node := m.wellFormed.latest_id hcurrent
  refine m.commitThing hbound _ (fun _ => rfl) ?_ (m.filed_propsSet request) ?_
    (propsSet_edges h request)
  · intro _ v hv
    have hv' : s.latest current.id = some v := hv
    rw [hid, hcurrent, Option.some.injEq] at hv'
    rw [← hv']
    rfl
  · intro other hother
    have hnode : (propsThing current request s.nextRevision).id = request.node := hid
    rw [hnode]
    by_cases heq : request.node = other
    · subst heq
      have hthing := m.things _ hother
      rw [hcurrent, Option.map_some] at hthing
      obtain ⟨t, ht, hview⟩ := Option.map_eq_some_iff.mp hthing.symm
      rw [if_pos rfl]
      simp only [InMemoryGraphStore.propsSet, ht, InMemoryGraphStore.nextRevision,
        Std.ExtTreeMap.getElem?_insert_self, Option.map_some]
      exact congrArg some (view_propsThing hview request h.revision s.nextRevision)
    · rw [if_neg heq]
      unfold InMemoryGraphStore.propsSet
      split
      · simp [InMemoryGraphStore.nextRevision, Std.ExtTreeMap.getElem?_insert, heq]
      · rfl

/-- A Thing that the kernel does not have the host does not update either, unless it has the id of
the kernel bundle. -/
lemma propsSet_missing (m : Mirrors s h) {request : GraphPropsRequest}
    (hnone : s.latest request.node = none) : Mirrors s (h.propsSet request).1 where
  wellFormed := m.wellFormed
  ordered := m.ordered
  filed := m.filed_propsSet request
  things id hid := by
    rw [m.things id hid]
    unfold InMemoryGraphStore.propsSet
    split
    · rename_i t ht
      have hne : request.node ≠ id := by
        rintro rfl
        have := m.things _ hid
        rw [hnone, ht] at this
        cases this
      simp [InMemoryGraphStore.nextRevision, Std.ExtTreeMap.getElem?_insert, hne]
    · rfl
  oneKind := m.oneKind
  edges := by rw [propsSet_edges]; exact m.edges

/-! ## Links -/

/-- The host's edges before and after a link: what the edge id had is replaced. -/
lemma comparedEdges_link (h : InMemoryGraphStore) (request : GraphLinkRequest) :
    ∃ rest,
      (comparedEdges (mapValues h.edges)).Perm
        (((h.edges[(idOrNext request.id h.uuids).1]?.map GraphEdge.view).filter
          EdgeView.compared).toList ++ rest)
      ∧ (comparedEdges (mapValues (h.link request).1.edges)).Perm
        (((some request.view).filter EdgeView.compared).toList ++ rest) := by
  have hmap : ∀ {entries others : List (Uuid × GraphEdge)}, entries.Perm others →
      (comparedEdges (entries.map Prod.snd)).Perm (comparedEdges (others.map Prod.snd)) :=
    fun hperm => ((hperm.map _).map _).filter _
  refine ⟨comparedEdges ((h.edges.toList.filter fun entry =>
    decide (entry.1 ≠ (idOrNext request.id h.uuids).1)).map Prod.snd), ?_, ?_⟩
  · refine (hmap (toList_perm_cons h.edges (idOrNext request.id h.uuids).1)).trans ?_
    rw [map_append, comparedEdges_append]
    cases h.edges[(idOrNext request.id h.uuids).1]? with
    | none => exact List.Perm.refl _
    | some held => simp [comparedEdges_singleton, Option.filter_some, apply_ite Option.toList]
  · refine (hmap (toList_insert_perm h.edges (idOrNext request.id h.uuids).1 _)).trans ?_
    rw [map_cons, ← singleton_append, comparedEdges_append, comparedEdges_singleton]
    simp only [Option.filter_some, apply_ite Option.toList]
    exact List.Perm.refl _

lemma link_new (m : Mirrors s h) (hbound : s.issued + 1 < u64Size)
    (hheld : (h.edges[(idOrNext request.id h.uuids).1]?.map GraphEdge.view).filter
      EdgeView.compared = none) :
    Mirrors (s.commitEdge (linkRequestEdge ext kernelBundleId request)) (h.link request).1 := by
  refine m.of_sameThings (m.wellFormed.commitEdge _)
    (m.ordered.commitEdge hbound _ fun _ => rfl) (versions_commitEdge s _) rfl ?_
  obtain ⟨rest, hbefore, hafter⟩ := comparedEdges_link h request
  rw [hheld] at hbefore
  have hview : (linkRequestEdge ext kernelBundleId request s.nextRevision).view
      = request.view := rfl
  rw [m.ordered.edges_commitEdge hbound _ fun _ => rfl, comparedEdges_append,
    comparedEdges_singleton, hview]
  refine List.Perm.trans ?_ hafter.symm
  rw [Option.filter_some, apply_ite Option.toList]
  exact perm_append_comm.trans ((m.edges.trans hbefore).append_left _)

lemma link_same (m : Mirrors s h)
    (hheld : (h.edges[(idOrNext request.id h.uuids).1]?.map GraphEdge.view).filter
      EdgeView.compared = (some request.view).filter EdgeView.compared) :
    Mirrors s (h.link request).1 := by
  refine m.of_sameThings m.wellFormed m.ordered (fun _ => rfl) rfl ?_
  obtain ⟨rest, hbefore, hafter⟩ := comparedEdges_link h request
  rw [hheld] at hbefore
  exact m.edges.trans (hbefore.trans hafter.symm)

lemma edgeBetween_ne_none (m : Mirrors s h)
    (hheld : (h.edges[(idOrNext request.id h.uuids).1]?.map GraphEdge.view).filter
      EdgeView.compared = some request.view) :
    s.edgeBetween request.from_ request.pred request.to_ ≠ none := by
  obtain ⟨rest, hbefore, -⟩ := comparedEdges_link h request
  rw [hheld] at hbefore
  have hmem : request.view ∈ comparedEdges s.edges :=
    (m.edges.trans hbefore).mem_iff.mpr mem_cons_self
  obtain ⟨e, he, hview⟩ := mem_map.mp (mem_filter.mp hmem).1
  exact m.wellFormed.edgeBetween_ne_none he (congrArg EdgeView.src hview)
    (congrArg EdgeView.pred hview) (congrArg EdgeView.dst hview)

end Mirrors

/-! ## Runs -/

namespace Stores

variable {ext : Externs}

lemma mirrors_step {σ : Stores} (m : Mirrors σ.kernel.store σ.host) {i : ℕ × StoreRequest}
    (halike : σ.Alike i) : Mirrors (σ.step ext i).kernel.store (σ.step ext i).host := by
  obtain ⟨now, request⟩ := i
  obtain ⟨hbound, halike⟩ := halike
  cases request with
  | fiat id kind labels fields =>
    exact (m.fiat hbound halike).of_graph (step_graph_of_nodeRequest ext σ.kernel rfl)
  | propsSet request =>
    have hstep : (σ.step ext (now, .propsSet request)).kernel.store
        = (σ.kernel.store.setProps kernelBundleId request).1 := rfl
    rw [hstep]
    cases hcurrent : σ.kernel.store.latest request.node with
    | none =>
      have hnothing : (σ.kernel.store.setProps kernelBundleId request).1 = σ.kernel.store := by
        simp [setProps, hcurrent]
      rw [hnothing]
      exact m.propsSet_missing hcurrent
    | some current =>
      have hwrite : σ.kernel.store.canWrite kernelBundleId current.id = true := by
        simp [canWrite]
      exact (m.propsSet (by omega) hcurrent).of_graph
        (setProps_of_written kernelBundleId hcurrent hwrite).1
  | link request =>
    have hstep : (σ.step ext (now, .link request)).kernel.store
        = (linkEdge ext now σ.kernel kernelBundleId request).1.store := rfl
    rw [hstep]
    have hlink : σ.kernel.store.canLink kernelBundleId request.from_ request.to_ request.pred
        = true := by simp [canLink]
    cases hbetween : σ.kernel.store.edgeBetween request.from_ request.pred request.to_ with
    | none =>
      have hheld := halike.resolve_left fun hheld => m.edgeBetween_ne_none hheld hbetween
      exact (m.link_new (by omega) hheld.1).of_graph
        (linkEdge_of_new ext now σ.kernel kernelBundleId hlink hbetween).1
    | some edge =>
      have hnothing : (linkEdge ext now σ.kernel kernelBundleId request).1 = σ.kernel := by
        simp [linkEdge, hlink, hbetween]
      rw [hnothing]
      refine m.link_same ?_
      rcases halike with hheld | ⟨hheld, hnew⟩
      · rw [hheld, Option.filter_some, if_pos]
        exact (Option.filter_eq_some_iff.mp hheld).2
      · grind

/-- In a run of requests that are alike for the stores, the stores give the same answers. -/
theorem stores_equivalent (ext : Externs) (inputs : List (ℕ × StoreRequest))
    (hsteps : EachStep (step ext) Alike new inputs) :
    SameAnswers (run (step ext) new inputs).kernel.store (run (step ext) new inputs).host :=
  (run_invariant_of_eachStep (P := fun σ : Stores => Mirrors σ.kernel.store σ.host) hsteps
    Mirrors.new fun _ _ halike m => mirrors_step m halike).sameAnswers

/-- A window without labels and an edge to itself. -/
def windowRun : List (ℕ × StoreRequest) :=
  [(0, .fiat 1#128 Canon.window [] ∅), (0, .link ⟨none, "NEXT", 1#128, 1#128, ∅⟩)]

theorem stores_equivalent_windowRun :
    SameAnswers (run (step crates) new windowRun).kernel.store
      (run (step crates) new windowRun).host := by
  refine stores_equivalent crates windowRun ?_
  refine eachStep_cons.mpr ⟨⟨by decide, Or.inr ⟨by simp, ?_⟩⟩, ?_⟩
  · intro v hv
    cases hv
  · refine eachStep_cons.mpr ⟨⟨by decide +kernel, Or.inr ⟨by decide +kernel, ?_⟩⟩, eachStep_nil _⟩
    intro _
    decide +kernel

/-- A declaration with a label of its own. -/
def labelRun : List (ℕ × StoreRequest) := [(0, .fiat 1#128 Canon.window [Canon.public_] ∅)]

/-- A Thing that changes its kind. -/
def kindRun : List (ℕ × StoreRequest) :=
  [(0, .fiat 1#128 Canon.window [] ∅), (0, .fiat 1#128 Canon.package [] ∅)]

/-- The same link twice. -/
def linkRun : List (ℕ × StoreRequest) :=
  [(0, .link ⟨none, "NEXT", 1#128, 2#128, ∅⟩), (0, .link ⟨none, "NEXT", 1#128, 2#128, ∅⟩)]

/-- The host finds the Thing by its label and the kernel does not, the kernel finds it under the
kind it had and the host does not, and the host has two edges where the kernel has one. -/
theorem stores_differ :
    ¬ SameAnswers (run (step crates) new labelRun).kernel.store
        (run (step crates) new labelRun).host
      ∧ ¬ SameAnswers (run (step crates) new kindRun).kernel.store
        (run (step crates) new kindRun).host
      ∧ ¬ SameAnswers (run (step crates) new linkRun).kernel.store
        (run (step crates) new linkRun).host := by
  refine ⟨fun h => ?_, fun h => ?_, fun h => ?_⟩
  · have hlength := (h.pattern ⟨[Canon.public_], ∅⟩ (by simp)).length_eq
    revert hlength
    decide +kernel
  · have hlength := (h.kind Canon.window).length_eq
    revert hlength
    decide +kernel
  · have hlength := h.edges.length_eq
    revert hlength
    decide +kernel

end Stores

end ThingOS
