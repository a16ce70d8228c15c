import ThingOS.Kernel.Graph.Step

/-!
# The representation invariant of the store

`WellFormed` says that the redundant structures agree: the edge index is the partition of the edge
list, the kind index is the set of ids that ever had the kind. It holds in every reachable state,
also after the revision counter has wrapped and the insert functions have started to drop their
arguments.

`Ordered` says that revisions grow. It needs that fewer than `2 ^ 64` revisions were issued, and
then no insert function ever drops its argument.
-/

namespace ThingOS

open Store List

variable {s t : Store}

variable {e : GraphEdge} {ext : Externs} {c : Call}

namespace Store

/-! ## Reading through `graph` -/

section

variable (h : s.graph = t.graph)
include h

lemma things_eq_of_graph : s.things = t.things :=
  show s.graph.things = t.graph.things by rw [h]

lemma edges_eq_of_graph : s.edges = t.edges :=
  show s.graph.edges = t.graph.edges by rw [h]

lemma kindIndex_eq_of_graph : s.kindIndex = t.kindIndex :=
  show s.graph.kindIndex = t.graph.kindIndex by rw [h]

lemma edgesBySrcPred_eq_of_graph : s.edgesBySrcPred = t.edgesBySrcPred :=
  show s.graph.edgesBySrcPred = t.graph.edgesBySrcPred by rw [h]

lemma nextRevision_eq_of_graph : s.nextRevision = t.nextRevision :=
  show s.graph.nextRevision = t.graph.nextRevision by rw [h]

lemma issued_eq_of_graph : s.issued = t.issued :=
  show s.graph.issued = t.graph.issued by rw [h]

lemma discarded_eq_of_graph : s.discarded = t.discarded :=
  show s.graph.discarded = t.graph.discarded by rw [h]

lemma versions_eq_of_graph (id : Uuid) :
    s.versions id = t.versions id := by
  rw [versions, versions, things_eq_of_graph h]

lemma latest_eq_of_graph (id : Uuid) : s.latest id = t.latest id := by
  rw [latest, latest, things_eq_of_graph h]

lemma kindIds_eq_of_graph (k : Symbol) : s.kindIds k = t.kindIds k := by
  rw [kindIds, kindIds, kindIndex_eq_of_graph h]

end

/-! ## The redundant structures agree -/

/-- The edges with a given source and predicate, in commit order. -/
def edgeGroup (s : Store) (key : EdgeKey) : List GraphEdge :=
  s.edges.filter fun e => decide ((e.src, e.pred) = key)

/-- Agreement of the store's redundant structures. -/
structure WellFormed (s : Store) : Prop where
  /-- A Thing that is there has a version. -/
  versions_ne_nil : ∀ (id : Uuid) vs, s.things[id]? = some vs → vs ≠ []
  /-- Versions are filed under their own id. -/
  versions_id : ∀ id, ∀ v ∈ s.versions id, v.id = id
  /-- The kind index holds the ids that have a version of the kind. -/
  mem_kindIds : ∀ k id, id ∈ s.kindIds k ↔ ∃ v ∈ s.versions id, v.kind = k
  /-- A kind has an index entry only if some id is filed under it. -/
  kindIndex_ne_empty : ∀ (k : Symbol) ids, s.kindIndex[k]? = some ids → ids ≠ ∅
  /-- The edge index is the partition of the edge list by source and predicate. -/
  edge_index : ∀ (key : EdgeKey) es,
    s.edgesBySrcPred[key]? = some es ↔ es ≠ [] ∧ es = s.edgeGroup key

lemma WellFormed.of_graph (h : s.graph = t.graph) (ht : t.WellFormed) : s.WellFormed where
  versions_ne_nil := by rw [things_eq_of_graph h]; exact ht.versions_ne_nil
  versions_id id := by rw [versions_eq_of_graph h]; exact ht.versions_id id
  mem_kindIds k id := by
    rw [versions_eq_of_graph h, kindIds_eq_of_graph h]
    exact ht.mem_kindIds k id
  kindIndex_ne_empty := by rw [kindIndex_eq_of_graph h]; exact ht.kindIndex_ne_empty
  edge_index := by
    rw [edgesBySrcPred_eq_of_graph h]
    simp only [edgeGroup, edges_eq_of_graph h]
    exact ht.edge_index

lemma WellFormed.versions_eq_nil_iff (h : s.WellFormed) (id : Uuid) :
    s.versions id = [] ↔ s.things[id]? = none := by
  unfold versions
  cases hid : s.things[id]? with
  | none => simp
  | some vs => simp [h.versions_ne_nil id vs hid]

lemma WellFormed.latest_eq_none_iff (h : s.WellFormed) (id : Uuid) :
    s.latest id = none ↔ s.things[id]? = none := by
  rw [latest_eq_getLast?, getLast?_eq_none_iff, h.versions_eq_nil_iff]

lemma WellFormed.latest_id (h : s.WellFormed) {id : Uuid} {v : GraphThing}
    (hv : s.latest id = some v) : v.id = id := by
  rw [latest_eq_getLast?] at hv
  exact h.versions_id id v (mem_of_getLast? hv)

/-- The index lookup returns the group, also when it is empty. -/
lemma WellFormed.edgesOf_eq (h : s.WellFormed) (src : Uuid) (pred : String) :
    s.edgesOf src pred = s.edgeGroup (src, pred) := by
  unfold edgesOf
  cases hk : s.edgesBySrcPred[(src, pred)]? with
  | some es => exact ((h.edge_index _ es).mp hk).2
  | none =>
    by_contra hne
    have hgroup : s.edgeGroup (src, pred) ≠ [] := fun hnil => hne (by rw [hnil]; rfl)
    have := (h.edge_index (src, pred) _).mpr ⟨hgroup, rfl⟩
    rw [hk] at this
    exact absurd this (by simp)

lemma mem_edgeGroup {key : EdgeKey} :
    e ∈ s.edgeGroup key ↔ e ∈ s.edges ∧ e.src = key.1 ∧ e.pred = key.2 := by
  simp [edgeGroup, Prod.ext_iff]

lemma hasCapability_eq_any (s : Store) (bundle : BundleId) (target : Uuid) (predicate : Symbol) :
    s.hasCapability bundle target predicate
      = (s.edgesOf bundle (Canon.symbolToString predicate)).any fun e => e.dst == target := by
  unfold hasCapability edgesOf bundleNodeId
  cases s.edgesBySrcPred[(bundle, Canon.symbolToString predicate)]? <;> rfl

/-- A capability is an edge from the bundle's node to the target under the printed name. -/
lemma WellFormed.hasCapability_iff (h : s.WellFormed) (bundle : BundleId) (target : Uuid)
    (predicate : Symbol) :
    s.hasCapability bundle target predicate = true
      ↔ ∃ e ∈ s.edges, e.src = bundle ∧ e.pred = Canon.symbolToString predicate
        ∧ e.dst = target := by
  rw [hasCapability_eq_any, h.edgesOf_eq, any_eq_true]
  simp only [mem_edgeGroup, beq_iff_eq, and_assoc]

lemma WellFormed.of_edgeBetween (h : s.WellFormed) {src dst : Uuid} {pred : String}
    (he : s.edgeBetween src pred dst = some e) :
    e ∈ s.edges ∧ e.src = src ∧ e.pred = pred ∧ e.dst = dst := by
  obtain ⟨es, hes, hfind⟩ := Option.bind_eq_some_iff.mp he
  have hdst : e.dst = dst := by simpa using find?_some hfind
  have hmem : e ∈ s.edgeGroup (src, pred) := by
    rw [← ((h.edge_index _ es).mp hes).2]
    exact mem_reverse.mp (mem_of_find?_eq_some hfind)
  obtain ⟨hedge, hsrc, hpred⟩ := mem_edgeGroup.mp hmem
  exact ⟨hedge, hsrc, hpred, hdst⟩

lemma WellFormed.edgeBetween_ne_none (h : s.WellFormed) {src dst : Uuid} {pred : String}
    (he : e ∈ s.edges) (hsrc : e.src = src) (hpred : e.pred = pred)
    (hdst : e.dst = dst) : s.edgeBetween src pred dst ≠ none := by
  have hmem : e ∈ s.edgeGroup (src, pred) := mem_edgeGroup.mpr ⟨he, hsrc, hpred⟩
  have hindex := (h.edge_index (src, pred) _).mpr ⟨ne_nil_of_mem hmem, rfl⟩
  rw [edgeBetween, hindex, Option.bind_some, Ne, find?_eq_none]
  intro hnone
  exact hnone e (mem_reverse.mpr hmem) (by simp [hdst])

lemma wellFormed_new : new.WellFormed where
  versions_ne_nil := by simp [new]
  versions_id := by simp [new, versions]
  mem_kindIds := by simp [new, versions, kindIds]
  kindIndex_ne_empty := by simp [new]
  edge_index := by
    intro key es
    simp only [new, edgeGroup, filter_nil]
    constructor
    · intro h
      simp at h
    · rintro ⟨hne, rfl⟩
      exact absurd rfl hne

lemma WellFormed.takeNextRevision (h : s.WellFormed) : s.takeNextRevision.2.WellFormed :=
  ⟨h.1, h.2, h.3, h.4, h.5⟩

lemma kindIds_insertThing_of_keeps {thing : GraphThing} (h : s.KeepsThing thing) (k : Symbol) :
    (s.insertThing thing).kindIds k
      = if thing.kind = k then (s.kindIds k).insert thing.id else s.kindIds k := by
  rw [insertThing_of_keeps h]
  by_cases hk : thing.kind = k
  · subst hk
    simp [kindIds]
  · simp [kindIds, Std.ExtTreeMap.getElem?_insert, hk]

section

variable (h : s.WellFormed)
include h

/-- Inserting a Thing keeps the structures in agreement, whether it is kept or dropped. -/
lemma WellFormed.insertThing (thing : GraphThing) : (s.insertThing thing).WellFormed := by
  by_cases hkeep : s.KeepsThing thing
  · refine ⟨?_, ?_, ?_, ?_, ?_⟩
    · rw [insertThing_of_keeps hkeep]
      exact forall_insert (by simp) fun id vs _ => h.versions_ne_nil id vs
    · grind [versions_insertThing_of_keeps, h.versions_id]
    · intro k id
      rw [versions_insertThing_of_keeps hkeep, kindIds_insertThing_of_keeps hkeep]
      -- the new version is filed under exactly one id and one kind
      by_cases hid : thing.id = id <;> by_cases hk : thing.kind = k <;>
        simp only [hid, hk, if_true, if_false, Std.ExtTreeSet.mem_insert, h.mem_kindIds k id,
          Std.LawfulEqCmp.compare_eq_iff_eq, mem_append, mem_singleton, or_and_right,
          exists_or, exists_eq_left, true_or, or_true, false_or, or_false]
    · rw [insertThing_of_keeps hkeep]
      refine forall_insert ?_ fun k ids _ => h.kindIndex_ne_empty k ids
      intro hempty
      have hmem : thing.id ∈ (s.kindIds thing.kind).insert thing.id := by simp
      rw [hempty] at hmem
      simp at hmem
    · simpa only [edgeGroup, insertThing_edges, insertThing_edgesBySrcPred] using h.edge_index
  · rw [insertThing_of_not_keeps hkeep]
    exact ⟨h.1, h.2, h.3, h.4, h.5⟩

/-- Inserting an edge keeps the structures in agreement, whether it is kept or dropped. -/
lemma WellFormed.insertEdge (edge : GraphEdge) : (s.insertEdge edge).WellFormed := by
  by_cases hkeep : s.KeepsEdge edge
  · refine ⟨?_, ?_, ?_, ?_, ?_⟩
    · simpa only [insertEdge_things] using h.versions_ne_nil
    · simpa only [versions_insertEdge] using h.versions_id
    · simpa only [versions_insertEdge, kindIds, insertEdge_kindIndex] using h.mem_kindIds
    · simpa only [insertEdge_kindIndex] using h.kindIndex_ne_empty
    · intro key es
      rw [insertEdge_of_keeps hkeep]
      simp only [Std.ExtTreeMap.getElem?_insert, Std.LawfulEqCmp.compare_eq_iff_eq, edgeGroup,
        filter_append, filter_singleton]
      -- only the group of the edge's own key grows, and it grows at its end
      by_cases hkey : (edge.src, edge.pred) = key
      · simp only [hkey, if_true, decide_true, cond_true, Option.some.injEq, h.edgesOf_eq]
        constructor
        · rintro rfl
          exact ⟨by simp, rfl⟩
        · rintro ⟨-, rfl⟩
          rfl
      · simp only [hkey, if_false, decide_false, cond_false, append_nil]
        exact h.edge_index key es
  · rw [insertEdge_of_not_keeps hkeep]
    exact ⟨h.1, h.2, h.3, h.4, h.5⟩

lemma WellFormed.commitThing (thing : ℕ → GraphThing) : (s.commitThing thing).WellFormed :=
  h.takeNextRevision.insertThing _

lemma WellFormed.commitEdge (edge : ℕ → GraphEdge) : (s.commitEdge edge).WellFormed :=
  h.takeNextRevision.insertEdge _

lemma WellFormed.commitOwned (ext : Externs) (owner : BundleId)
    (thing : ℕ → GraphThing) : (Store.commitOwned ext s owner thing).WellFormed :=
  (h.commitThing thing).insertEdge _

lemma WellFormed.ensureBundleNode (bundle : BundleId) : (s.ensureBundleNode bundle).WellFormed :=
  ensureBundleNode_induction bundle h (h.commitThing _)

end

/-- A snapshot is inserted into an emptied store, so nothing about the old one matters. -/
lemma wellFormed_applySnapshot (s : Store) (snap : GraphSnapshot) :
    (s.applySnapshot snap).WellFormed := by
  have hempty : s.cleared.WellFormed :=
    ⟨wellFormed_new.1, wellFormed_new.2, wellFormed_new.3, wellFormed_new.4, wellFormed_new.5⟩
  have hthings : (snap.things.foldl insertThing s.cleared).WellFormed :=
    run_invariant snap.things hempty fun _ thing h => h.insertThing thing
  have hedges : (snap.edges.foldl insertEdge _).WellFormed :=
    run_invariant snap.edges hthings fun _ edge h => h.insertEdge edge
  exact ⟨hedges.1, hedges.2, hedges.3, hedges.4, hedges.5⟩

lemma WellFormed.of_wrote (h : s.WellFormed) (hw : Wrote ext s c t) :
    t.WellFormed := by
  cases hw with
  | nothing => exact h
  | node request hop => exact (h.ensureBundleNode _).commitOwned _ _ _
  | props request current hop hcurrent hwrite => exact h.commitThing _
  | link request hop hlink hnew => exact h.commitEdge _
  | grant request hop hcap hgrant => exact (h.ensureBundleNode _).commitEdge _
  | snapshot snap hop => exact wellFormed_applySnapshot _ _

end Store

namespace GraphState

lemma reach_wellFormed (ext : Externs) (calls : List Call) : (reach ext calls).store.WellFormed :=
  run_invariant (P := fun g : GraphState => g.store.WellFormed) calls wellFormed_new
      fun g c h => by
    obtain ⟨t, hw, hgraph⟩ := step_wrote ext g c
    exact (h.of_wrote hw).of_graph hgraph

end GraphState

namespace Store

/-! ## Revisions grow -/

/-- Revisions were handed out in order and every value built with one was kept. -/
structure Ordered (s : Store) : Prop where
  counter : s.nextRevision = (s.issued + 1) % u64Size
  versions_increasing : ∀ id, (s.versions id).Pairwise fun v w => v.revision < w.revision
  edges_increasing : s.edges.Pairwise fun e f => e.revision < f.revision
  versions_issued : ∀ id, ∀ v ∈ s.versions id, 0 < v.revision ∧ v.revision ≤ s.issued
  edges_issued : ∀ e ∈ s.edges, 0 < e.revision ∧ e.revision ≤ s.issued
  discarded_nil : s.discarded = []

lemma Ordered.of_graph (h : s.graph = t.graph) (ht : t.Ordered) : s.Ordered where
  counter := by rw [nextRevision_eq_of_graph h, issued_eq_of_graph h]; exact ht.counter
  versions_increasing id := by rw [versions_eq_of_graph h]; exact ht.versions_increasing id
  edges_increasing := by rw [edges_eq_of_graph h]; exact ht.edges_increasing
  versions_issued id := by
    rw [versions_eq_of_graph h, issued_eq_of_graph h]
    exact ht.versions_issued id
  edges_issued := by rw [edges_eq_of_graph h, issued_eq_of_graph h]; exact ht.edges_issued
  discarded_nil := by rw [discarded_eq_of_graph h]; exact ht.discarded_nil

lemma ordered_new : new.Ordered where
  counter := rfl
  versions_increasing := by simp [new, versions]
  edges_increasing := List.Pairwise.nil
  versions_issued := by simp [new, versions]
  edges_issued := by simp [new]
  discarded_nil := rfl

/-- Below the bound the counter is one ahead of the number of revisions issued. -/
lemma Ordered.nextRevision_eq (h : s.Ordered) (hbound : s.issued + 1 < u64Size) :
    s.nextRevision = s.issued + 1 := by
  rw [h.counter, Nat.mod_eq_of_lt hbound]

lemma Ordered.takeNextRevision (h : s.Ordered) : s.takeNextRevision.2.Ordered where
  counter := by
    rw [takeNextRevision_nextRevision, takeNextRevision_issued, h.counter, Nat.mod_add_mod]
  versions_increasing := h.versions_increasing
  edges_increasing := h.edges_increasing
  versions_issued id v hv := (h.versions_issued id v hv).imp_right Nat.le_succ_of_le
  edges_issued e he := (h.edges_issued e he).imp_right Nat.le_succ_of_le
  discarded_nil := h.discarded_nil

lemma Ordered.insertThing (h : s.Ordered) {thing : GraphThing} (hpos : 0 < thing.revision)
    (hissued : thing.revision ≤ s.issued)
    (hnew : ∀ v ∈ s.versions thing.id, v.revision < thing.revision) :
    (s.insertThing thing).Ordered := by
  have hkeep : s.KeepsThing thing := fun v hv => hnew v (mem_of_getLast? hv)
  refine ⟨?_, ?_, ?_, ?_, ?_, ?_⟩
  · simpa using h.counter
  · intro id
    rw [versions_insertThing_of_keeps hkeep]
    split
    · rename_i hid
      subst hid
      exact pairwise_concat.mpr ⟨h.versions_increasing _, hnew⟩
    · exact h.versions_increasing id
  · simpa using h.edges_increasing
  · intro id v hv
    rw [insertThing_issued]
    rw [versions_insertThing_of_keeps hkeep] at hv
    split at hv
    · exact forall_mem_concat.mpr ⟨h.versions_issued id, hpos, hissued⟩ v hv
    · exact h.versions_issued id v hv
  · simpa using h.edges_issued
  · rw [insertThing_of_keeps hkeep]
    exact h.discarded_nil

lemma Ordered.insertEdge (h : s.Ordered) {edge : GraphEdge} (hpos : 0 < edge.revision)
    (hissued : edge.revision ≤ s.issued) (hnew : ∀ e ∈ s.edges, e.revision < edge.revision) :
    (s.insertEdge edge).Ordered := by
  have hkeep : s.KeepsEdge edge := fun e he => hnew e (mem_of_getLast? he)
  have hedges : (s.insertEdge edge).edges = s.edges ++ [edge] := by rw [insertEdge_of_keeps hkeep]
  refine ⟨?_, ?_, ?_, ?_, ?_, ?_⟩
  · simpa using h.counter
  · simpa using h.versions_increasing
  · rw [hedges]
    exact pairwise_concat.mpr ⟨h.edges_increasing, hnew⟩
  · simpa using h.versions_issued
  · intro e he
    rw [insertEdge_issued]
    rw [hedges] at he
    exact forall_mem_concat.mpr ⟨h.edges_issued, hpos, hissued⟩ e he
  · rw [insertEdge_of_keeps hkeep]
    exact h.discarded_nil

section Commits

variable (h : s.Ordered) (hbound : s.issued + 1 < u64Size)
include h hbound

lemma Ordered.commitThing (thing : ℕ → GraphThing) (hrev : ∀ r, (thing r).revision = r) :
    (s.commitThing thing).Ordered := by
  have hnext : (thing s.nextRevision).revision = s.issued + 1 := by
    rw [hrev, h.nextRevision_eq hbound]
  refine h.takeNextRevision.insertThing ?_ ?_ fun v hv => ?_
  · omega
  · rw [hnext, takeNextRevision_issued]
  · have := (h.versions_issued _ v hv).2
    omega

lemma Ordered.commitEdge (edge : ℕ → GraphEdge) (hrev : ∀ r, (edge r).revision = r) :
    (s.commitEdge edge).Ordered := by
  have hnext : (edge s.nextRevision).revision = s.issued + 1 := by
    rw [hrev, h.nextRevision_eq hbound]
  refine h.takeNextRevision.insertEdge ?_ ?_ fun e he => ?_
  · omega
  · rw [hnext, takeNextRevision_issued]
  · have := (h.edges_issued e he).2
    omega

/-- The Thing and its ownership edge share a revision; neither stands in the other's way, because
the two lists are compared separately. -/
lemma Ordered.commitOwned (ext : Externs) (owner : BundleId) (thing : ℕ → GraphThing)
    (hrev : ∀ r, (thing r).revision = r) : (Store.commitOwned ext s owner thing).Ordered := by
  have hnext := h.nextRevision_eq hbound
  refine (h.commitThing hbound thing hrev).insertEdge ?_ ?_ ?_
  · simp only [ownershipEdge]
    omega
  · simp only [ownershipEdge, commitThing_issued]
    omega
  · intro e he
    rw [commitThing_edges] at he
    have := (h.edges_issued e he).2
    simp only [ownershipEdge]
    omega

lemma Ordered.edges_commitEdge (edge : ℕ → GraphEdge) (hrev : ∀ r, (edge r).revision = r) :
    (s.commitEdge edge).edges = s.edges ++ [edge s.nextRevision] := by
  have hkeep : s.takeNextRevision.2.KeepsEdge (edge s.nextRevision) := by
    intro e he
    have := (h.edges_issued e (mem_of_getLast? he)).2
    rw [hrev, h.nextRevision_eq hbound]
    omega
  rw [Store.commitEdge, insertEdge_of_keeps hkeep]
  rfl

lemma Ordered.edges_commitOwned (ext : Externs) (owner : BundleId) (thing : ℕ → GraphThing) :
    (Store.commitOwned ext s owner thing).edges
      = s.edges ++ [ownershipEdge ext owner (thing s.nextRevision).id s.nextRevision] := by
  have hkeep : (s.commitThing thing).KeepsEdge
      (ownershipEdge ext owner (thing s.nextRevision).id s.nextRevision) := by
    intro e he
    rw [commitThing_edges] at he
    have := (h.edges_issued e (mem_of_getLast? he)).2
    simp only [ownershipEdge, h.nextRevision_eq hbound]
    omega
  rw [Store.commitOwned, addOwnershipEdge, insertEdge_of_keeps hkeep, commitThing_edges]

end Commits

lemma Ordered.ensureBundleNode (h : s.Ordered) (bundle : BundleId)
    (hbound : (s.ensureBundleNode bundle).issued < u64Size) :
    (s.ensureBundleNode bundle).Ordered := by
  rcases ensureBundleNode_cases s bundle with heq | ⟨-, heq⟩
  · rwa [heq]
  · rw [heq, commitThing_issued] at hbound
    rw [heq]
    exact h.commitThing hbound _ fun _ => rfl

/-- A call that restores no snapshot only issues revisions. -/
lemma issued_le_of_wrote (hw : Wrote ext s c t) (hc : ¬ c.restores) :
    s.issued ≤ t.issued := by
  cases hw with
  | nothing => exact le_rfl
  | node request hop =>
    rw [commitOwned_issued]
    exact (issued_le_ensureBundleNode s _).trans (Nat.le_succ _)
  | props request current hop hcurrent hwrite => simp
  | link request hop hlink hnew => simp
  | grant request hop hcap hgrant =>
    rw [commitEdge_issued]
    exact (issued_le_ensureBundleNode s _).trans (Nat.le_succ _)
  | snapshot snap hop => exact absurd ⟨snap, hop⟩ hc

lemma Ordered.of_wrote (h : s.Ordered) (hw : Wrote ext s c t)
    (hc : ¬ c.restores) (hbound : t.issued < u64Size) : t.Ordered := by
  cases hw with
  | nothing => exact h
  | node request hop =>
    rw [commitOwned_issued] at hbound
    exact (h.ensureBundleNode c.bundle (by omega)).commitOwned hbound ext c.bundle _ fun _ => rfl
  | props request current hop hcurrent hwrite =>
    rw [commitThing_issued] at hbound
    exact h.commitThing hbound _ fun _ => rfl
  | link request hop hlink hnew =>
    rw [commitEdge_issued] at hbound
    exact h.commitEdge hbound _ fun _ => rfl
  | grant request hop hcap hgrant =>
    rw [commitEdge_issued] at hbound
    exact (h.ensureBundleNode request.grantee (by omega)).commitEdge hbound _ fun _ => rfl
  | snapshot snap hop => exact absurd ⟨snap, hop⟩ hc

end Store

variable {g : GraphState}

namespace GraphState

variable (ext : Externs)

lemma issued_le_step (g : GraphState) (hc : ¬ c.restores) :
    g.store.issued ≤ (step ext g c).store.issued := by
  obtain ⟨t, hw, hgraph⟩ := step_wrote ext g c
  rw [issued_eq_of_graph hgraph]
  exact issued_le_of_wrote hw hc

lemma step_ordered (h : g.store.Ordered) (hc : ¬ c.restores)
    (hbound : (step ext g c).store.issued < u64Size) : (step ext g c).store.Ordered := by
  obtain ⟨t, hw, hgraph⟩ := step_wrote ext g c
  rw [issued_eq_of_graph hgraph] at hbound
  exact (h.of_wrote hw hc hbound).of_graph hgraph

lemma issued_le_reach {pre post : List Call} (hpost : NoRestore post) :
    (reach ext pre).store.issued ≤ (reach ext (pre ++ post)).store.issued := by
  rw [reach, reach, run_append]
  exact run_grows (P := fun c : Call => ¬ c.restores)
    (R := fun g g' : GraphState => g.store.issued ≤ g'.store.issued)
    (fun _ => le_rfl) (fun _ _ _ => le_trans) (fun g c hc => issued_le_step ext g hc) _ hpost

/-- As long as fewer than `2 ^ 64` revisions were issued, revisions grow and nothing is dropped. -/
lemma reach_ordered {calls : List Call} (hcalls : NoRestore calls)
    (hbound : (reach ext calls).store.issued < u64Size) : (reach ext calls).store.Ordered := by
  induction calls using List.reverseRecOn with
  | nil => exact ordered_new
  | append_singleton calls c ih =>
    have hc : ¬ c.restores := hcalls c (by simp)
    rw [reach_concat] at hbound ⊢
    have hprev := (issued_le_step ext _ hc).trans_lt hbound
    exact step_ordered ext (ih (fun d hd => hcalls d (by simp [hd])) hprev) hc hbound

/-- The redundant structures agree, revisions grow along edges and versions and stay below the
counter, and no insert dropped its argument. The counter itself is a `u64`: once all `2 ^ 64 - 1`
nonzero revisions were issued it stands at zero again. -/
theorem representation_invariant (ext : Externs) (calls : List Call) (hcalls : NoRestore calls)
    (hbound : (reach ext calls).store.issued < u64Size) :
    let s := (reach ext calls).store
    (∀ (key : EdgeKey) (es : List GraphEdge), s.edgesBySrcPred[key]? = some es
      ↔ es ≠ [] ∧ es = s.edges.filter fun e => decide ((e.src, e.pred) = key))
    ∧ (s.edges.Pairwise fun e f => e.revision < f.revision)
    ∧ (∀ id, (s.versions id).Pairwise fun v w => v.revision < w.revision)
    ∧ (((∀ e ∈ s.edges, e.revision < s.nextRevision)
          ∧ ∀ id, ∀ v ∈ s.versions id, v.revision < s.nextRevision)
        ∨ s.issued = u64Size - 1 ∧ s.nextRevision = 0)
    ∧ (∀ (k : Symbol) (id : Uuid), (∃ ids, s.kindIndex[k]? = some ids ∧ id ∈ ids)
      ↔ ∃ v ∈ s.versions id, v.kind = k)
    ∧ s.discarded = [] := by
  intro s
  have hwf : s.WellFormed := reach_wellFormed ext calls
  have hord : s.Ordered := reach_ordered ext hcalls hbound
  refine ⟨hwf.edge_index, hord.edges_increasing, hord.versions_increasing, ?_, ?_,
    hord.discarded_nil⟩
  · by_cases hlast : s.issued + 1 < u64Size
    · left
      rw [hord.nextRevision_eq hlast]
      exact ⟨fun e he => Nat.lt_succ_of_le (hord.edges_issued e he).2,
        fun id v hv => Nat.lt_succ_of_le (hord.versions_issued id v hv).2⟩
    · right
      have hissued : s.issued + 1 = u64Size := by
        have : s.issued < u64Size := hbound
        omega
      exact ⟨by omega, by rw [hord.counter, hissued, Nat.mod_self]⟩
  · intro k id
    rw [← hwf.mem_kindIds]
    unfold kindIds
    cases s.kindIndex[k]? with
    | none => simp
    | some ids => simp

def declareOne : Call := ⟨kernelBundleId, 0, .fiatNode ⟨some 1#128, [], ∅⟩⟩

def updateOne : Call := ⟨kernelBundleId, 0, .setProps ⟨1#128, ∅⟩⟩

theorem representation_invariant_declareOne : (reach crates [declareOne]).store.discarded = [] :=
  (representation_invariant crates [declareOne] (by simp [NoRestore, Call.restores, declareOne])
    (by decide +kernel)).2.2.2.2.2

lemma updateOne_graph (hone : g.store.versions 1#128 ≠ []) :
    ∃ current, g.store.latest 1#128 = some current
      ∧ (step ext g updateOne).store.graph
        = (g.store.commitThing (propsThing current ⟨1#128, ∅⟩)).graph := by
  obtain ⟨current, hcurrent⟩ : ∃ current, g.store.latest 1#128 = some current := by
    rw [latest_eq_getLast?]
    exact Option.isSome_iff_exists.mp (by simpa using hone)
  exact ⟨current, hcurrent,
    (setProps_of_written kernelBundleId hcurrent (by simp [canWrite])).1⟩

lemma versions_updateOne (hone : g.store.versions 1#128 ≠ []) :
    (step ext g updateOne).store.versions 1#128 ≠ [] := by
  obtain ⟨current, -, hstep⟩ := updateOne_graph ext hone
  rw [versions_eq_of_graph hstep, commitThing, versions_insertThing]
  split <;> simp [hone]

/-- Every update by the kernel of a Thing that is there issues one revision. -/
lemma issued_updates (n : ℕ) (g : GraphState) (hone : g.store.versions 1#128 ≠ []) :
    (run (step ext) g (List.replicate n updateOne)).store.issued = g.store.issued + n
      ∧ (run (step ext) g (List.replicate n updateOne)).store.versions 1#128 ≠ [] := by
  induction n generalizing g with
  | zero => exact ⟨rfl, hone⟩
  | succ n ih =>
    obtain ⟨current, -, hstep⟩ := updateOne_graph ext hone
    have hissued : (step ext g updateOne).store.issued = g.store.issued + 1 := by
      rw [issued_eq_of_graph hstep, commitThing_issued]
    rw [replicate_succ, run_cons]
    obtain ⟨hn, hne⟩ := ih _ (versions_updateOne ext hone)
    exact ⟨by rw [hn, hissued]; omega, hne⟩

/-- A declaration, which issues a revision for the kernel's own node and one for the Thing, and
`n` updates: the counter is one ahead of the revisions issued, modulo the size of its type. -/
lemma reach_updates (n : ℕ) (hn : n + 2 < u64Size) :
    NoRestore (declareOne :: List.replicate n updateOne)
      ∧ (reach crates (declareOne :: List.replicate n updateOne)).store.issued = 2 + n
      ∧ (reach crates (declareOne :: List.replicate n updateOne)).store.nextRevision
        = (n + 3) % u64Size
      ∧ (reach crates (declareOne :: List.replicate n updateOne)).store.versions 1#128 ≠ [] := by
  have hrestore : NoRestore (declareOne :: List.replicate n updateOne) := by
    intro c hc
    simp only [mem_cons, mem_replicate] at hc
    rcases hc with rfl | ⟨-, rfl⟩ <;> exact fun ⟨_, h⟩ => nomatch h
  have hfirst : (step crates new declareOne).store.issued = 2 := by decide +kernel
  have hthere : (step crates new declareOne).store.versions 1#128 ≠ [] := by decide +kernel
  obtain ⟨hissued, hne⟩ := issued_updates crates n _ hthere
  rw [hfirst] at hissued
  have hbound :
      (reach crates (declareOne :: List.replicate n updateOne)).store.issued < u64Size := by
    rw [reach, run_cons, hissued]
    omega
  refine ⟨hrestore, hissued, ?_, hne⟩
  rw [(reach_ordered crates hrestore hbound).counter, reach, run_cons, hissued]
  congr 1
  omega

/-- One declaration, which issues a revision for the kernel's own node and one for the Thing, and
as many updates as it takes to issue `2 ^ 64 - 1` revisions. -/
def wrapRun : List Call := declareOne :: List.replicate (u64Size - 3) updateOne

/-- The last revision below `2 ^ 64` is stored while the counter already stands at zero. -/
theorem revision_not_below_counter :
    NoRestore wrapRun ∧ (reach crates wrapRun).store.issued < u64Size
      ∧ ∃ v ∈ (reach crates wrapRun).store.versions 1#128,
        ¬ v.revision < (reach crates wrapRun).store.nextRevision := by
  obtain ⟨hrestore, hissued, hnext, hne⟩ := reach_updates (u64Size - 3) (by decide)
  rw [wrapRun]
  obtain ⟨v, hv⟩ := exists_mem_of_ne_nil _ hne
  refine ⟨hrestore, ?_, v, hv, ?_⟩
  · rw [hissued]
    decide
  · have hzero : (u64Size - 3 + 3) % u64Size = 0 := by decide
    rw [hnext, hzero]
    exact Nat.not_lt_zero _

end GraphState

end ThingOS
