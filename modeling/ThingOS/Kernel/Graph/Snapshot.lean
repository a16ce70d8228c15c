import ThingOS.Kernel.Graph.Representation
import ThingOS.Kernel.Graph.Watches

/-!
# Restoring a snapshot

`apply_snapshot` clears the store and inserts the Things and edges of the snapshot one by one, with
the functions that drop what is not newer and that build the two indices. The version lists and the
edge list of a reachable store are strictly increasing, because these same functions built them; so
nothing is dropped. The indices are determined by the lists.

The counter is the exception. `snapshot` saves `next_revision - 1` and `apply_snapshot` adds one
again, both saturating, while `next_revision` wraps around: zero comes back as one.
-/

namespace ThingOS

open GraphState Store List Std.ExtTreeMap

variable {s t : Store}

namespace Store

/-! ## The lists are increasing -/

/-- Versions of a Thing and edges stand in strictly increasing order of revisions, and the counter
is a `u64`. -/
structure Increasing (s : Store) : Prop where
  versions : ∀ id, (s.versions id).Pairwise fun v w => v.revision < w.revision
  edges : s.edges.Pairwise fun e f => e.revision < f.revision
  counter : s.nextRevision < u64Size

/-- An element above the last one can be appended to an increasing list. -/
lemma pairwise_lt_concat {α : Type*} {f : α → ℕ} {l : List α} {a : α}
    (h : l.Pairwise fun x y => f x < f y) (hlast : ∀ b ∈ l.getLast?, f b < f a) :
    (l ++ [a]).Pairwise fun x y => f x < f y := by
  refine pairwise_append.mpr ⟨h, pairwise_singleton _ _, ?_⟩
  intro x hx y hy
  rw [mem_singleton.mp hy]
  rcases eq_nil_or_concat' l with rfl | ⟨init, last, rfl⟩
  · exact absurd hx not_mem_nil
  · have hle := hlast last (by simp)
    rcases mem_append.mp hx with hx | hx
    · exact ((pairwise_append.mp h).2.2 x hx last (by simp)).trans hle
    · rwa [mem_singleton.mp hx]

lemma Increasing.of_graph (h : s.graph = t.graph) (ht : t.Increasing) : s.Increasing where
  versions id := by rw [versions_eq_of_graph h]; exact ht.versions id
  edges := by rw [edges_eq_of_graph h]; exact ht.edges
  counter := by rw [nextRevision_eq_of_graph h]; exact ht.counter

lemma increasing_new : Store.new.Increasing :=
  ⟨by simp [Store.new, Store.versions], by simp [Store.new], by decide⟩

lemma Increasing.takeNextRevision (h : s.Increasing) : s.takeNextRevision.2.Increasing :=
  ⟨h.versions, h.edges, Nat.mod_lt _ (by decide)⟩

lemma Increasing.insertThing (h : s.Increasing) (thing : GraphThing) :
    (s.insertThing thing).Increasing := by
  refine ⟨fun id => ?_, by simpa using h.edges, by simpa using h.counter⟩
  rw [versions_insertThing]
  split
  · rename_i hkeep
    obtain ⟨rfl, hkeep⟩ := hkeep
    exact pairwise_lt_concat (h.versions _) hkeep
  · exact h.versions id

lemma Increasing.insertEdge (h : s.Increasing) (edge : GraphEdge) :
    (s.insertEdge edge).Increasing := by
  refine ⟨by simpa using h.versions, ?_, by simpa using h.counter⟩
  rw [edges_insertEdge]
  split
  · rename_i hkeep
    exact pairwise_lt_concat h.edges hkeep
  · exact h.edges

lemma Increasing.commitThing (h : s.Increasing) (thing : ℕ → GraphThing) :
    (s.commitThing thing).Increasing :=
  h.takeNextRevision.insertThing _

lemma Increasing.ensureBundleNode (h : s.Increasing) (bundle : BundleId) :
    (s.ensureBundleNode bundle).Increasing :=
  ensureBundleNode_induction bundle h (h.commitThing _)

lemma increasing_applySnapshot (s : Store) (snap : GraphSnapshot) (hs : s.Increasing) :
    (s.applySnapshot snap).Increasing := by
  have hempty : s.cleared.Increasing :=
    ⟨by simp [cleared, Store.versions], by simp [cleared], hs.counter⟩
  have hthings : (run insertThing s.cleared snap.things).Increasing :=
    run_invariant snap.things hempty fun _ thing h => h.insertThing thing
  have hedges : (run insertEdge _ snap.edges).Increasing :=
    run_invariant snap.edges hthings fun _ edge h => h.insertEdge edge
  refine ⟨hedges.versions, hedges.edges, ?_⟩
  have hmax : u64Size - 1 < u64Size := by decide
  exact (min_le_right _ _).trans_lt hmax

lemma Increasing.of_wrote {ext : Externs} {c : Call} (h : s.Increasing) (hw : Wrote ext s c t) :
    t.Increasing := by
  cases hw with
  | nothing => exact h
  | node request hop => exact ((h.ensureBundleNode _).commitThing _).insertEdge _
  | props request current hop hcurrent hwrite => exact h.commitThing _
  | link request hop hlink hnew => exact h.takeNextRevision.insertEdge _
  | grant request hop hcap hgrant => exact (h.ensureBundleNode _).takeNextRevision.insertEdge _
  | snapshot snap hop => exact increasing_applySnapshot _ _ h

end Store

namespace GraphState

lemma reach_increasing (ext : Externs) (calls : List Call) : (reach ext calls).store.Increasing :=
  run_invariant (P := fun g : GraphState => g.store.Increasing) calls increasing_new
      fun g c h => by
    obtain ⟨t, hw, hgraph⟩ := step_wrote ext g c
    exact (h.of_wrote hw).of_graph hgraph

end GraphState

/-! ## The lists come back -/

namespace Store

/-- Inserting Things in an order that is increasing for every id keeps them all. -/
lemma versions_run_insertThing (things : List GraphThing) (t : Store) (id : Uuid)
    (h : ∀ id, (t.versions id ++ things.filter fun v => v.id = id).Pairwise
      fun v w => v.revision < w.revision) :
    (run insertThing t things).versions id
      = t.versions id ++ things.filter fun v => v.id = id := by
  induction things generalizing t with
  | nil => simp
  | cons thing things ih =>
    have hkeep : t.KeepsThing thing := by
      intro prev hprev
      have hpair := h thing.id
      rw [filter_cons_of_pos (by simp)] at hpair
      exact (pairwise_append.mp hpair).2.2 prev (mem_of_getLast? hprev) thing
        mem_cons_self
    have hsplit : ∀ id, (t.insertThing thing).versions id ++ things.filter (fun v => v.id = id)
        = t.versions id ++ (thing :: things).filter fun v => v.id = id := by
      intro id
      rw [versions_insertThing_of_keeps hkeep, filter_cons]
      split <;> simp_all
    rw [run_cons, ih _ fun id => by rw [hsplit]; exact h id, hsplit]

lemma edges_run_insertEdge (edges : List GraphEdge) (t : Store)
    (h : (t.edges ++ edges).Pairwise fun e f => e.revision < f.revision) :
    (run insertEdge t edges).edges = t.edges ++ edges := by
  induction edges generalizing t with
  | nil => simp
  | cons edge edges ih =>
    have hkeep : t.KeepsEdge edge := fun prev hprev =>
      (pairwise_append.mp h).2.2 prev (mem_of_getLast? hprev) edge mem_cons_self
    have hedges : (t.insertEdge edge).edges = t.edges ++ [edge] := by rw [insertEdge_of_keeps hkeep]
    rw [run_cons, ih _ (by rw [hedges]; simpa using h), hedges]
    simp

lemma filter_flatten_eq_nil {l : List (Uuid × List GraphThing)} {id : Uuid}
    (hids : ∀ entry ∈ l, ∀ v ∈ entry.2, v.id = entry.1) (hne : ∀ entry ∈ l, entry.1 ≠ id) :
    (l.map Prod.snd).flatten.filter (fun v => v.id = id) = [] := by
  rw [filter_eq_nil_iff]
  intro v hv hid
  obtain ⟨vs, hvs, hmem⟩ := mem_flatten.mp hv
  obtain ⟨entry, hentry, rfl⟩ := mem_map.mp hvs
  exact hne entry hentry ((hids entry hentry v hmem).symm.trans (of_decide_eq_true hid))

/-- Among lists filed under distinct ids, picking the versions of one id gives the list filed under
it. -/
lemma filter_flatten_eq {l : List (Uuid × List GraphThing)} {id : Uuid} {vs : List GraphThing}
    (hids : ∀ entry ∈ l, ∀ v ∈ entry.2, v.id = entry.1)
    (hdistinct : l.Pairwise fun a b => a.1 ≠ b.1) (hmem : (id, vs) ∈ l) :
    (l.map Prod.snd).flatten.filter (fun v => v.id = id) = vs := by
  obtain ⟨before, after, rfl⟩ := append_of_mem hmem
  obtain ⟨-, hafter, hbefore⟩ := pairwise_append.mp hdistinct
  have hself : vs.filter (fun v => v.id = id) = vs :=
    filter_eq_self.mpr fun v hv => by simp [hids (id, vs) (by simp) v hv]
  have hleft := filter_flatten_eq_nil (fun entry h => hids entry (by simp [h]))
    fun entry hentry => hbefore entry hentry (id, vs) mem_cons_self
  have hright := filter_flatten_eq_nil (fun entry h => hids entry (by simp [h]))
    fun entry hentry => ((pairwise_cons.mp hafter).1 entry hentry).symm
  simp only [map_append, map_cons, flatten_append, flatten_cons,
    filter_append, hleft, hself, hright, nil_append, append_nil]

/-- Listing the versions of all Things and picking those of one id gives its versions. -/
lemma filter_flatten_things (h : s.WellFormed) (id : Uuid) :
    (mapValues s.things).flatten.filter (fun v => v.id = id) = s.versions id := by
  have hids : ∀ entry ∈ s.things.toList, ∀ v ∈ entry.2, v.id = entry.1 := by
    intro entry hentry v hv
    have hget := mem_toList_iff_getElem?_eq_some.mp hentry
    exact h.versions_id entry.1 v (by rwa [versions, hget])
  unfold versions
  cases hid : s.things[id]? with
  | some vs =>
    refine filter_flatten_eq hids ?_ (mem_toList_iff_getElem?_eq_some.mpr hid)
    refine distinct_keys_toList.imp ?_
    intro a b hne heq
    exact hne (by rw [heq]; exact Std.ReflCmp.compare_self)
  | none =>
    refine filter_flatten_eq_nil hids ?_
    rintro entry hentry rfl
    cases hid.symm.trans (mem_toList_iff_getElem?_eq_some.mp hentry)

/-! ## The lists determine the rest -/

/-- Well-formed stores with the same versions have the same Things. -/
lemma things_ext (hs : s.WellFormed) (ht : t.WellFormed)
    (h : ∀ id, t.versions id = s.versions id) : t.things = s.things := by
  apply Std.ExtTreeMap.ext_getElem?
  intro id
  have hnil : t.things[id]? = none ↔ s.things[id]? = none := by
    rw [← ht.versions_eq_nil_iff, ← hs.versions_eq_nil_iff, h]
  have hid := h id
  unfold versions at hid
  cases hleft : t.things[id]? with
  | none => exact (hnil.mp hleft).symm
  | some vs =>
    grind

/-- and the same kind index, -/
lemma kindIndex_ext (hs : s.WellFormed) (ht : t.WellFormed)
    (h : ∀ id, t.versions id = s.versions id) : t.kindIndex = s.kindIndex := by
  apply Std.ExtTreeMap.ext_getElem?
  intro k
  have hids : t.kindIds k = s.kindIds k := by
    apply Std.ExtTreeSet.ext_mem
    intro id
    rw [ht.mem_kindIds, hs.mem_kindIds, h]
  unfold kindIds at hids
  have hempty : ∀ {ids : Std.ExtTreeSet Uuid compare} {r : Store}, r.WellFormed →
      r.kindIndex[k]? = some ids → ids ≠ ∅ := fun hr => hr.kindIndex_ne_empty k _
  cases hleft : t.kindIndex[k]? with
  | none =>
    grind
  | some ids =>
    grind

/-- and those with the same edges the same edge index. -/
lemma edgesBySrcPred_ext (hs : s.WellFormed) (ht : t.WellFormed) (h : t.edges = s.edges) :
    t.edgesBySrcPred = s.edgesBySrcPred := by
  apply Std.ExtTreeMap.ext_getElem?
  intro key
  have hgroup : t.edgeGroup key = s.edgeGroup key := by rw [edgeGroup, edgeGroup, h]
  apply Option.ext
  intro es
  rw [ht.edge_index, hs.edge_index, hgroup]

/-! ## Stores with the same contents -/

/-- The contents of two stores agree: everything but the watches. -/
structure SameContents (s t : Store) : Prop where
  things : s.things = t.things
  edges : s.edges = t.edges
  kindIndex : s.kindIndex = t.kindIndex
  edgesBySrcPred : s.edgesBySrcPred = t.edgesBySrcPred
  nextRevision : s.nextRevision = t.nextRevision

namespace SameContents

lemma symm (h : s.SameContents t) : t.SameContents s :=
  ⟨h.1.symm, h.2.symm, h.3.symm, h.4.symm, h.5.symm⟩

lemma trans {r : Store} (h : s.SameContents t) (h' : t.SameContents r) : s.SameContents r :=
  ⟨h.1.trans h'.1, h.2.trans h'.2, h.3.trans h'.3, h.4.trans h'.4, h.5.trans h'.5⟩

variable (h : s.SameContents t)
include h

lemma versions (id : Uuid) : s.versions id = t.versions id := by
  rw [Store.versions, Store.versions, h.things]

lemma latest (id : Uuid) : s.latest id = t.latest id := by
  rw [Store.latest, Store.latest, h.things]

lemma hasCapability (bundle : BundleId) (target : Uuid) (predicate : Symbol) :
    s.hasCapability bundle target predicate = t.hasCapability bundle target predicate := by
  rw [Store.hasCapability, Store.hasCapability, h.edgesBySrcPred]

lemma canWrite (bundle : BundleId) (node : Uuid) :
    s.canWrite bundle node = t.canWrite bundle node := by
  simp only [Store.canWrite, Store.owns, h.hasCapability]

lemma canLink (bundle : BundleId) (src dst : Uuid) (kind : String) :
    s.canLink bundle src dst kind = t.canLink bundle src dst kind := by
  unfold Store.canLink Store.owns
  rw [h.hasCapability, h.hasCapability, h.edgesBySrcPred]

lemma edgeBetween (src : Uuid) (pred : String) (dst : Uuid) :
    s.edgeBetween src pred dst = t.edgeBetween src pred dst := by
  rw [Store.edgeBetween, Store.edgeBetween, h.edgesBySrcPred]

lemma canGrant (grantor : BundleId) (request : GrantCapabilityRequest) :
    GraphState.canGrant s grantor request = GraphState.canGrant t grantor request := by
  simp only [GraphState.canGrant, Store.owns, h.hasCapability]

lemma takeNextRevision : s.takeNextRevision.2.SameContents t.takeNextRevision.2 :=
  ⟨h.1, h.2, h.3, h.4, by simp [h.nextRevision]⟩

lemma insertThing (thing : GraphThing) :
    (s.insertThing thing).SameContents (t.insertThing thing) := by
  by_cases hkeep : s.KeepsThing thing
  · have hkeep' : t.KeepsThing thing := by rwa [KeepsThing, ← h.versions]
    rw [insertThing_of_keeps hkeep, insertThing_of_keeps hkeep', kindIds, kindIds]
    exact ⟨by rw [h.things, h.versions], h.2, by rw [h.kindIndex], h.4, h.5⟩
  · have hkeep' : ¬ t.KeepsThing thing := by rwa [KeepsThing, ← h.versions]
    rw [insertThing_of_not_keeps hkeep, insertThing_of_not_keeps hkeep']
    exact ⟨h.1, h.2, h.3, h.4, h.5⟩

lemma insertEdge (edge : GraphEdge) : (s.insertEdge edge).SameContents (t.insertEdge edge) := by
  by_cases hkeep : s.KeepsEdge edge
  · have hkeep' : t.KeepsEdge edge := by rwa [KeepsEdge, ← h.edges]
    rw [insertEdge_of_keeps hkeep, insertEdge_of_keeps hkeep', edgesOf, edgesOf]
    exact ⟨h.1, by rw [h.edges], h.3, by rw [h.edgesBySrcPred], h.5⟩
  · have hkeep' : ¬ t.KeepsEdge edge := by rwa [KeepsEdge, ← h.edges]
    rw [insertEdge_of_not_keeps hkeep, insertEdge_of_not_keeps hkeep']
    exact ⟨h.1, h.2, h.3, h.4, h.5⟩

lemma ensureBundleNode (bundle : BundleId) :
    (s.ensureBundleNode bundle).SameContents (t.ensureBundleNode bundle) := by
  unfold Store.ensureBundleNode
  simp only [h.things, Store.takeNextRevision_fst, h.nextRevision]
  split
  · exact h
  · exact h.takeNextRevision.insertThing _

end SameContents

lemma sameContents_notifyWatches (s : Store) (change : GraphChange) :
    (s.notifyWatches change).SameContents s := by
  obtain ⟨watches, h⟩ := notifyWatches_eq s change
  rw [h]
  exact ⟨rfl, rfl, rfl, rfl, rfl⟩

section

variable (h : s.SameContents t)
include h

lemma SameContents.notifyWatches (change : GraphChange) :
    (s.notifyWatches change).SameContents (t.notifyWatches change) :=
  ((sameContents_notifyWatches s change).trans h).trans (sameContents_notifyWatches t change).symm

lemma SameContents.commitThing (thing : ℕ → GraphThing) :
    (s.commitThing thing).SameContents (t.commitThing thing) := by
  rw [Store.commitThing, Store.commitThing, h.nextRevision]
  exact h.takeNextRevision.insertThing _

lemma SameContents.commitEdge (edge : ℕ → GraphEdge) :
    (s.commitEdge edge).SameContents (t.commitEdge edge) := by
  rw [Store.commitEdge, Store.commitEdge, h.nextRevision]
  exact h.takeNextRevision.insertEdge _

lemma SameContents.commitOwned (ext : Externs) (owner : BundleId) (thing : ℕ → GraphThing) :
    (Store.commitOwned ext s owner thing).SameContents (Store.commitOwned ext t owner thing) := by
  rw [Store.commitOwned, Store.commitOwned, h.nextRevision]
  exact (h.commitThing thing).insertEdge _

/-- Two stores with the same contents commit the same change, and go on with the same contents. -/
lemma SameContents.notified (ext : Externs) (c : Call) :
    s.notified ext c = none ∧ t.notified ext c = none
      ∨ ∃ s' t' change, s.notified ext c = some (s', change)
        ∧ t.notified ext c = some (t', change) ∧ s'.SameContents t' := by
  unfold Store.notified declared
  cases c.op with
  | fiat | fiatNode =>
    have h' := h.ensureBundleNode c.bundle
    exact .inr ⟨_, _, _, rfl, by simp only [h'.nextRevision], h'.commitOwned _ _ _⟩
  | setProps request =>
    simp only [h.latest, h.canWrite, h.nextRevision]
    split
    · exact .inl ⟨rfl, rfl⟩
    · split
      · exact .inr ⟨_, _, _, rfl, rfl, h.commitThing _⟩
      · exact .inl ⟨rfl, rfl⟩
  | linkEdge request =>
    simp only [h.canLink, h.edgeBetween, h.nextRevision]
    split
    · split
      · exact .inl ⟨rfl, rfl⟩
      · exact .inr ⟨_, _, _, rfl, rfl, h.commitEdge _⟩
    · exact .inl ⟨rfl, rfl⟩
  | grantCapability request =>
    have h' := h.ensureBundleNode request.grantee
    simp only [h.canGrant, h'.nextRevision]
    split
    · exact .inr ⟨_, _, _, rfl, rfl, h'.commitEdge _⟩
    · exact .inl ⟨rfl, rfl⟩
  | _ => exact .inl ⟨rfl, rfl⟩

end

end Store

namespace GraphState

variable {g g' : GraphState} (h : g.store.SameContents g'.store) (ext : Externs) {c : Call}
include h

/-- An operation that may commit a change answers by the contents of the store. -/
lemma perform_response_of_sameContents (hcommits : c.op.commits = true) :
    (perform ext g c).2 = (perform ext g' c).2 := by
  unfold perform
  cases hop : c.op with
  | fiat | fiatNode =>
    have h' := (h.ensureBundleNode c.bundle).nextRevision
    simp only [fiat, fiatNode, Store.takeNextRevision_fst, h']
  | setProps request =>
    simp only [setProps, h.latest, h.canWrite]
    split
    · rfl
    · split <;> rfl
  | linkEdge request =>
    simp only [linkEdge, h.canLink, h.edgeBetween, Store.takeNextRevision_fst, h.nextRevision]
    split
    · rfl
    · split <;> rfl
  | grantCapability request =>
    simp only [grantCapability, h.canGrant]
    split
    · rfl
    · split <;> rfl
  | _ => simp [hop, Op.commits] at hcommits

lemma sameContents_step (hcommits : c.op.commits = true) :
    (step ext g c).store.SameContents (step ext g' c).store := by
  have hw := perform_watched ext g c
  have hw' := perform_watched ext g' c
  unfold step
  rcases h.notified ext c with ⟨hnone, hnone'⟩ | ⟨s', t', change, hsome, hsome', hsame⟩
  · rwa [eq_of_not_notified hw hcommits hnone, eq_of_not_notified hw' hcommits hnone']
  · rw [eq_of_notified hw hsome, eq_of_notified hw' hsome']
    exact hsame.notifyWatches change

/-- Whole runs of such operations answer alike and end with the same contents. -/
lemma run_of_sameContents {calls : List Call} (hcalls : ∀ c ∈ calls, c.op.commits = true) :
    outputs (step ext) (fun g c => [(perform ext g c).2]) g calls
        = outputs (step ext) (fun g c => [(perform ext g c).2]) g' calls
      ∧ (run (step ext) g calls).store.SameContents (run (step ext) g' calls).store := by
  induction calls generalizing g g' with
  | nil => exact ⟨rfl, h⟩
  | cons c calls ih =>
    have hc := hcalls c mem_cons_self
    obtain ⟨houtputs, hend⟩ := ih (sameContents_step h ext hc)
      fun d hd => hcalls d (mem_cons_of_mem _ hd)
    refine ⟨?_, hend⟩
    rw [outputs, outputs, perform_response_of_sameContents h ext hc, houtputs]

end GraphState

/-! ## The round trip -/

namespace Store

/-- Restoring the snapshot of `s` in `t` gives a store with the contents of `s` and no watches, and
every further sequence of declarations, updates, links and grants is answered alike and keeps the
contents alike. -/
def RoundTrips (ext : Externs) (s t : Store) : Prop :=
  let restored := t.applySnapshot s.snapshot
  restored.SameContents s ∧ restored.watches = ∅
    ∧ ∀ (j j' : Journal) (calls : List Call), (∀ c ∈ calls, c.op.commits = true) →
      outputs (step ext) (fun g c => [(perform ext g c).2]) ⟨restored, j⟩ calls
          = outputs (step ext) (fun g c => [(perform ext g c).2]) ⟨s, j'⟩ calls
        ∧ (run (step ext) ⟨restored, j⟩ calls).store.SameContents
          (run (step ext) ⟨s, j'⟩ calls).store

lemma lists_applySnapshot (h : s.WellFormed) (hinc : s.Increasing) (t : Store) :
    (∀ id, (t.applySnapshot s.snapshot).versions id = s.versions id)
      ∧ (t.applySnapshot s.snapshot).edges = s.edges := by
  have hempty : ∀ id, t.cleared.versions id = [] := by simp [cleared, versions]
  have hthings : ∀ id, (run insertThing t.cleared s.snapshot.things).versions id
      = s.versions id := by
    intro id
    rw [versions_run_insertThing s.snapshot.things t.cleared id, hempty, nil_append]
    · exact filter_flatten_things h id
    · intro id
      rw [hempty, nil_append, snapshot, filter_flatten_things h]
      exact hinc.versions id
  have hnoEdges : (run insertThing t.cleared s.snapshot.things).edges = [] :=
    run_invariant (P := fun r : Store => r.edges = []) s.snapshot.things rfl
      fun r thing hr => by rw [insertThing_edges, hr]
  constructor
  · intro id
    rw [← hthings id]
    exact run_invariant (P := fun r : Store => r.versions id = _) s.snapshot.edges rfl
      fun r edge hr => by rw [versions_insertEdge, hr]
  · have hedges := edges_run_insertEdge s.snapshot.edges
      (run insertThing t.cleared s.snapshot.things) (by rw [hnoEdges]; exact hinc.edges)
    rw [hnoEdges] at hedges
    exact hedges

/-- The counter that comes back. -/
lemma nextRevision_applySnapshot (hinc : s.Increasing) (t : Store) :
    (t.applySnapshot s.snapshot).nextRevision
      = if s.nextRevision = 0 then 1 else s.nextRevision := by
  have hlt := hinc.counter
  show min (s.nextRevision - 1 + 1) (u64Size - 1) = _
  split
  · rename_i hzero
    rw [hzero]
    decide
  · omega

/-- Everything but the counter comes back. -/
lemma roundTrips_iff (ext : Externs) (h : s.WellFormed) (hinc : s.Increasing) (t : Store) :
    s.RoundTrips ext t ↔ s.nextRevision ≠ 0 := by
  constructor
  · intro hround hzero
    have hnext := hround.1.nextRevision
    rw [nextRevision_applySnapshot hinc, if_pos hzero, hzero] at hnext
    exact absurd hnext one_ne_zero
  · intro hne
    obtain ⟨hversions, hedges⟩ := lists_applySnapshot h hinc t
    have hwf := wellFormed_applySnapshot t s.snapshot
    have hsame : (t.applySnapshot s.snapshot).SameContents s :=
      ⟨things_ext h hwf hversions, hedges, kindIndex_ext h hwf hversions,
        edgesBySrcPred_ext h hwf hedges, by rw [nextRevision_applySnapshot hinc, if_neg hne]⟩
    exact ⟨hsame, applySnapshot_watches t s.snapshot,
      fun j j' calls hcalls => @run_of_sameContents ⟨_, j⟩ ⟨s, j'⟩ hsame ext calls hcalls⟩

end Store

namespace GraphState

/-- The snapshot of a reachable store, restored anywhere, gives the store back, exactly if its
revision counter does not stand at zero; and it does not as long as fewer than `2 ^ 64 - 1`
revisions were issued. -/
theorem snapshot_round_trip (ext : Externs) (calls : List Call) :
    let s := (reach ext calls).store
    (∀ t, s.RoundTrips ext t ↔ s.nextRevision ≠ 0)
      ∧ (NoRestore calls → s.issued < u64Size - 1 → s.nextRevision ≠ 0) := by
  intro s
  refine ⟨roundTrips_iff ext (reach_wellFormed ext calls) (reach_increasing ext calls), ?_⟩
  intro hcalls hbound
  have hord : s.Ordered := reach_ordered ext hcalls (hbound.trans (by decide))
  rw [hord.nextRevision_eq (by omega)]
  exact Nat.succ_ne_zero _

/-- After `2 ^ 64 - 1` revisions the counter stands at zero and comes back as one. -/
theorem wrapped_counter_not_restored :
    NoRestore wrapRun ∧ (reach crates wrapRun).store.issued < u64Size
      ∧ ¬ (reach crates wrapRun).store.RoundTrips crates Store.new := by
  obtain ⟨hrestore, hissued, hnext, -⟩ := reach_updates (u64Size - 3) (by decide)
  refine ⟨hrestore, ?_, ?_⟩
  · rw [wrapRun, hissued]
    decide
  · rw [wrapRun,
      roundTrips_iff crates (reach_wellFormed crates _) (reach_increasing crates _), hnext]
    decide

end GraphState

end ThingOS
