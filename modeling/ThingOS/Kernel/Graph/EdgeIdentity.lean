import ThingOS.Kernel.Graph.Authority

/-!
# Which edges are one edge

Edges are made by declarations, links and grants. Only a link looks whether its edge is there
already. And the id of an edge is derived from its predicate and its properties: those of a link
need not name the ends, and those of a grant name the grantor and the target but not the grantee, so
that different edges get one id.

A run keeps edges apart exactly if every edge that a call adds differs, in its ends and predicate
and in the name its id is derived from, from all edges that are there.
-/

namespace ThingOS

open GraphState List Option

/-- Source, predicate and destination. -/
def GraphEdge.ends (e : GraphEdge) : Uuid × String × Uuid := (e.src, e.pred, e.dst)

/-- What `derive_uuid` hashes for an edge. -/
def edgeName (ext : Externs) (e : GraphEdge) : List UInt8 :=
  e.pred.toUTF8.data.toList ++ (ext.toAllocvec e.props).getD []

/-- A declaration, a link without an id of its own, or a grant. -/
def Op.derivesEdge : Op → Prop
  | .fiat _ | .fiatNode _ | .grantCapability _ => True
  | .linkEdge request => request.id = none
  | _ => False

lemma Call.not_restores_of_derivesEdge {c : Call} (h : c.op.derivesEdge) : ¬ c.restores := by
  rintro ⟨snapshot, hop⟩
  rw [hop] at h
  exact h

/-- The edge a call adds, as far as the guards let it, up to its revision. -/
def addedEdge (ext : Externs) (s : Store) (c : Call) : Option (ℕ → GraphEdge) :=
  match c.op with
  | .fiat request =>
    some (Store.ownershipEdge ext c.bundle (nodeId ext c.bundle (fiatNodeRequest request)))
  | .fiatNode request => some (Store.ownershipEdge ext c.bundle (nodeId ext c.bundle request))
  | .linkEdge request =>
    if s.canLink c.bundle request.from_ request.to_ request.pred = true
        ∧ s.edgeBetween request.from_ request.pred request.to_ = none then
      some (linkRequestEdge ext c.bundle request)
    else none
  | .grantCapability request =>
    if (Store.isDataCapability request.capability = true
          ∨ Store.isHardwareCapability request.capability = true)
        ∧ canGrant s c.bundle request = true then
      some (grantEdge ext c.bundle request)
    else none
  | _ => none

/-- No two edges have the same ends and predicate, and no two edges that differ in them the same
id. -/
structure Store.EdgesApart (s : Store) : Prop where
  nodup_ends : (s.edges.map GraphEdge.ends).Nodup
  id_ne : ∀ e ∈ s.edges, ∀ f ∈ s.edges, e.ends ≠ f.ends → e.id ≠ f.id

/-- The edge that a call adds has ends or predicate, and a name, that no edge in the store has. -/
def AddsFresh (ext : Externs) (g : GraphState) (c : Call) : Prop :=
  ∀ edge ∈ addedEdge ext g.store c, ∀ e ∈ g.store.edges,
    e.ends ≠ (edge 0).ends ∧ edgeName ext e ≠ edgeName ext (edge 0)

variable {ext : Externs} {g : GraphState} {c : Call}

/-- The revision matters neither for the ends nor for the name, and the id is that of the name. -/
lemma addedEdge_spec (hc : c.op.derivesEdge) {edge : ℕ → GraphEdge}
    (hedge : edge ∈ addedEdge ext g.store c) (revision : ℕ) :
    (edge revision).ends = (edge 0).ends ∧ edgeName ext (edge revision) = edgeName ext (edge 0)
      ∧ (edge revision).id = ext.newV5 namespaceOid (edgeName ext (edge 0)) := by
  unfold addedEdge at hedge
  split at hedge
  case h_1 request hop | h_2 request hop =>
    cases hedge
    exact ⟨rfl, rfl, rfl⟩
  case h_3 request hop =>
    rw [hop] at hc
    split at hedge
    · cases hedge
      refine ⟨rfl, rfl, ?_⟩
      simp only [linkRequestEdge, show request.id = none from hc]
      rfl
    · cases hedge
  case h_4 request hop =>
    split at hedge
    · cases hedge
      exact ⟨rfl, rfl, rfl⟩
    · cases hedge
  case h_5 => cases hedge

lemma edges_step_of_nodeRequest {request : GraphNodeRequest}
    (hop : c.op.nodeRequest = some request) (hord : g.store.Ordered)
    (hbound : (step ext g c).store.issued < u64Size) :
    ∃ revision, (step ext g c).store.edges = g.store.edges
      ++ [Store.ownershipEdge ext c.bundle (nodeId ext c.bundle request) revision] := by
  have hgraph := step_graph_of_nodeRequest ext g hop
  rw [Store.issued_eq_of_graph hgraph, Store.commitOwned_issued] at hbound
  have hens := hord.ensureBundleNode c.bundle (Nat.lt_of_succ_lt hbound)
  rw [Store.edges_eq_of_graph hgraph, hens.edges_commitOwned hbound, Store.ensureBundleNode_edges]
  exact ⟨_, rfl⟩

lemma edges_step (hc : c.op.derivesEdge) (hord : g.store.Ordered)
    (hbound : (step ext g c).store.issued < u64Size) :
    ∃ revision, (step ext g c).store.edges
      = g.store.edges ++ ((addedEdge ext g.store c).map fun edge => edge revision).toList := by
  unfold addedEdge
  cases hop : c.op with
  | fiat | fiatNode => exact edges_step_of_nodeRequest (by rw [hop]; rfl) hord hbound
  | linkEdge request =>
    simp only [step, perform_of_linkEdge ext g hop] at hbound ⊢
    split
    case isTrue hnew =>
      have hgraph := (linkEdge_of_new ext c.now g c.bundle hnew.1 hnew.2).1
      rw [Store.issued_eq_of_graph hgraph, Store.commitEdge_issued] at hbound
      rw [Store.edges_eq_of_graph hgraph, hord.edges_commitEdge hbound _ fun _ => rfl]
      exact ⟨_, rfl⟩
    case isFalse hnot =>
      refine ⟨0, ?_⟩
      rw [map_none, toList_none, append_nil]
      rcases linkEdge_cases ext c.now g c.bundle request with h | ⟨_, -, h⟩ | hnew
      · rw [h]
      · rw [h]
      · exact absurd hnew hnot
  | grantCapability request =>
    simp only [step, perform_of_grant ext g hop] at hbound ⊢
    split
    case isTrue hok =>
      have hgraph := (grantCapability_of_granted ext c.now g c.bundle hok.1 hok.2).1
      rw [Store.issued_eq_of_graph hgraph, Store.commitEdge_issued] at hbound
      have hens := hord.ensureBundleNode request.grantee (Nat.lt_of_succ_lt hbound)
      rw [Store.edges_eq_of_graph hgraph, hens.edges_commitEdge hbound _ fun _ => rfl,
        Store.ensureBundleNode_edges]
      exact ⟨_, rfl⟩
    case isFalse hnot =>
      refine ⟨0, ?_⟩
      rw [map_none, toList_none, append_nil]
      rcases grantCapability_cases ext c.now g c.bundle request with h | hok
      · rw [h]
      · exact absurd hok hnot
  | setProps | registerWatch | registerWatchPattern | pollWatch | applySnapshot =>
    rw [hop] at hc
    exact hc.elim

/-- The id of every edge is derived from its name. -/
def IdsDerived (ext : Externs) (s : Store) : Prop :=
  ∀ e ∈ s.edges, e.id = ext.newV5 namespaceOid (edgeName ext e)

lemma IdsDerived.step (h : IdsDerived ext g.store) (hc : c.op.derivesEdge)
    (hord : g.store.Ordered) (hbound : (GraphState.step ext g c).store.issued < u64Size) :
    IdsDerived ext (GraphState.step ext g c).store := by
  obtain ⟨revision, hedges⟩ := edges_step hc hord hbound
  intro e he
  rw [hedges, mem_append, mem_toList] at he
  rcases he with he | he
  · exact h e he
  · obtain ⟨edge, hedge, rfl⟩ := map_eq_some_iff.mp he
    obtain ⟨-, hname, hid⟩ := addedEdge_spec hc hedge revision
    rw [hid, hname]

/-- One more edge leaves edges apart exactly if its ends or predicate and its id are new. -/
lemma edgesApart_append_iff {s t : Store} (h : s.EdgesApart) {edge : GraphEdge}
    (hedges : t.edges = s.edges ++ [edge]) :
    t.EdgesApart ↔ ∀ e ∈ s.edges, e.ends ≠ edge.ends ∧ e.id ≠ edge.id := by
  have hnodup : (t.edges.map GraphEdge.ends).Nodup ↔ ∀ e ∈ s.edges, e.ends ≠ edge.ends := by
    simp [hedges, nodup_append, h.nodup_ends]
  constructor
  · rintro ⟨hends, hid⟩ e he
    have hne := hnodup.mp hends e he
    refine ⟨hne, hid e ?_ edge ?_ hne⟩
    · rw [hedges]
      exact mem_append_left _ he
    · rw [hedges]
      exact mem_append_right _ (mem_singleton_self _)
  · intro hfresh
    refine ⟨hnodup.mpr fun e he => (hfresh e he).1, ?_⟩
    intro e he f hf hdiff
    rw [hedges, mem_append, mem_singleton] at he hf
    rcases he with he | rfl
    · rcases hf with hf | rfl
      · exact h.id_ne e he f hf hdiff
      · exact (hfresh e he).2
    · rcases hf with hf | rfl
      · exact (hfresh f hf).2.symm
      · exact absurd rfl hdiff

/-- A call keeps edges apart exactly if the edge it adds is fresh. The other direction needs that
the hash keeps the names apart that are in use. -/
lemma edgesApart_step_iff (h : g.store.EdgesApart) (hids : IdsDerived ext g.store)
    (hc : c.op.derivesEdge) (hord : g.store.Ordered)
    (hbound : (step ext g c).store.issued < u64Size)
    (hinj : Set.InjOn (ext.newV5 namespaceOid)
      {name | ∃ e ∈ (step ext g c).store.edges, edgeName ext e = name}) :
    (step ext g c).store.EdgesApart ↔ AddsFresh ext g c := by
  obtain ⟨revision, hedges⟩ := edges_step hc hord hbound
  cases hadded : addedEdge ext g.store c with
  | none =>
    rw [hadded, map_none, toList_none, append_nil] at hedges
    refine iff_of_true ?_ (by simp [AddsFresh, hadded])
    exact ⟨hedges ▸ h.nodup_ends, hedges ▸ h.id_ne⟩
  | some edge =>
    obtain ⟨hends, hname, hid⟩ := addedEdge_spec hc hadded revision
    rw [hadded, map_some, toList_some] at hedges
    -- One id means one name, since both names are in use.
    have hidName : ∀ e ∈ g.store.edges,
        e.id = (edge revision).id ↔ edgeName ext e = edgeName ext (edge 0) := by
      intro e he
      rw [hids e he, hid, ← hname]
      refine hinj.eq_iff ⟨e, ?_, rfl⟩ ⟨edge revision, ?_, rfl⟩
      · rw [hedges]
        exact mem_append_left _ he
      · rw [hedges]
        exact mem_append_right _ (mem_singleton_self _)
    have hfresh : AddsFresh ext g c
        ↔ ∀ e ∈ g.store.edges, e.ends ≠ (edge 0).ends ∧ edgeName ext e ≠ edgeName ext (edge 0) := by
      simp [AddsFresh, hadded]
    rw [edgesApart_append_iff h hedges, hfresh, hends]
    exact forall₂_congr fun e he => and_congr_right fun _ => not_congr (hidName e he)

/-! ## Runs -/

/-- The names that the ids of a store's edges are derived from. -/
def namesInUse (ext : Externs) (s : Store) : Set (List UInt8) :=
  {name | ∃ e ∈ s.edges, edgeName ext e = name}

/-- A declaration or a grant that was accepted before adds no edge. -/
def RepeatsAddNothing (ext : Externs) (calls : List Call) : Prop :=
  ∀ pre c mid c' post, calls = pre ++ c :: mid ++ c' :: post → c'.bundle = c.bundle → c'.op = c.op →
    (c.op.nodeRequest.isSome ∨ ∃ request, c.op = .grantCapability request) →
    (perform ext (reach ext pre) c).2.accepted = true →
    (reach ext (pre ++ c :: mid ++ [c'])).store.edges = (reach ext (pre ++ c :: mid)).store.edges

lemma addedEdge_unique {s t : Store} {c' : Call} (hbundle : c'.bundle = c.bundle)
    (hop : c'.op = c.op)
    (hkind : c.op.nodeRequest.isSome ∨ ∃ request, c.op = .grantCapability request)
    {edge edge' : ℕ → GraphEdge} (hedge : edge ∈ addedEdge ext s c)
    (hedge' : edge' ∈ addedEdge ext t c') : edge' = edge := by
  unfold addedEdge at hedge hedge'
  rw [hbundle, hop] at hedge'
  cases hcop : c.op with
  | fiat request | fiatNode request =>
    rw [hcop] at hedge hedge'
    exact Option.some.inj (hedge'.symm.trans hedge)
  | grantCapability request =>
    grind
  | linkEdge | setProps | registerWatch | registerWatchPattern | pollWatch | applySnapshot =>
    simp [hcop, Op.nodeRequest] at hkind

lemma exists_addedEdge
    (hkind : c.op.nodeRequest.isSome ∨ ∃ request, c.op = .grantCapability request)
    (haccepted : (perform ext g c).2.accepted = true) : ∃ edge, edge ∈ addedEdge ext g.store c := by
  unfold addedEdge
  cases hcop : c.op with
  | fiat request | fiatNode request => exact ⟨_, rfl⟩
  | grantCapability request =>
    have hok : (grantCapability ext c.now g c.bundle request).2 = true := by
      simpa [perform_of_grant ext g hcop, Response.accepted] using haccepted
    have hgranted := (grantCapability_cases ext c.now g c.bundle request).resolve_left
      fun h => by simp [h] at hok
    exact ⟨_, if_pos hgranted⟩
  | linkEdge | setProps | registerWatch | registerWatchPattern | pollWatch | applySnapshot =>
    simp [hcop, Op.nodeRequest] at hkind

section Run

variable {calls : List Call} (hcalls : ∀ c ∈ calls, c.op.derivesEdge)
  (hbound : (reach ext calls).store.issued < u64Size)
include hcalls hbound

lemma idsDerived_of_run {pre post : List Call} (hsplit : calls = pre ++ post) :
    (reach ext pre).store.Ordered ∧ IdsDerived ext (reach ext pre).store := by
  subst hsplit
  have hrestore : ∀ d ∈ pre ++ post, ¬ d.restores :=
    fun d hd => Call.not_restores_of_derivesEdge (hcalls d hd)
  have hpre : (reach ext pre).store.issued < u64Size :=
    (issued_le_reach ext fun d hd => hrestore d (mem_append_right _ hd)).trans_lt hbound
  refine ⟨reach_ordered ext (fun d hd => hrestore d (mem_append_left _ hd)) hpre, ?_⟩
  induction pre using List.reverseRecOn generalizing post with
  | nil => simp [IdsDerived, new, Store.new]
  | append_singleton pre c ih =>
    have hc : c.op.derivesEdge := hcalls c (by simp)
    have hless := (issued_le_step ext (reach ext pre)
      (Call.not_restores_of_derivesEdge hc)).trans_lt (reach_concat ext pre c ▸ hpre)
    have hord := reach_ordered ext (fun d hd => hrestore d (by simp [hd])) hless
    rw [append_assoc] at hcalls hbound hrestore
    rw [reach_concat] at hpre ⊢
    exact (ih hcalls hbound hrestore hless).step hc hord hpre

variable (hinj : Set.InjOn (ext.newV5 namespaceOid) (namesInUse ext (reach ext calls).store))
include hinj

/-- At each step of the run, edges that were apart stay so exactly if the step adds a fresh one. -/
lemma edgesApart_concat_iff {pre post : List Call} (hsplit : calls = pre ++ c :: post)
    (hpre : (reach ext pre).store.EdgesApart) :
    (reach ext (pre ++ [c])).store.EdgesApart ↔ AddsFresh ext (reach ext pre) c := by
  obtain ⟨hord, hids⟩ := idsDerived_of_run hcalls hbound hsplit
  subst hsplit
  have hrestore : NoRestore (pre ++ c :: post) :=
    fun d hd => Call.not_restores_of_derivesEdge (hcalls d hd)
  rw [reach_concat]
  refine edgesApart_step_iff hpre hids (hcalls c (by simp)) hord (step_bound hrestore hbound) ?_
  refine hinj.mono ?_
  rintro name ⟨e, he, rfl⟩
  refine ⟨e, ?_, rfl⟩
  rw [append_cons]
  rw [← reach_concat] at he
  exact (edges_grow_reach ext fun d hd => hrestore d (by simp [hd])).subset he

end Run

/-- Below `2 ^ 64` revisions, and with no collisions of the hash among the names in use: edges are
apart in every state of a run and repeated declarations and grants add nothing, exactly if every
call adds a fresh edge or none. -/
theorem edge_identity_iff (ext : Externs) (calls : List Call)
    (hcalls : ∀ c ∈ calls, c.op.derivesEdge) (hbound : (reach ext calls).store.issued < u64Size)
    (hinj : Set.InjOn (ext.newV5 namespaceOid) (namesInUse ext (reach ext calls).store)) :
    (∀ pre post, calls = pre ++ post → (reach ext pre).store.EdgesApart)
        ∧ RepeatsAddNothing ext calls
      ↔ EachStep (step ext) (AddsFresh ext) new calls := by
  constructor
  · rintro ⟨hapart, -⟩ pre c post hsplit
    refine (edgesApart_concat_iff hcalls hbound hinj hsplit (hapart _ _ hsplit)).mp ?_
    exact hapart _ post (by rw [hsplit, append_cons])
  · intro hfresh
    constructor
    · intro pre post hsplit
      induction pre using List.reverseRecOn generalizing post with
      | nil => exact ⟨nodup_nil, by simp [new, Store.new]⟩
      | append_singleton pre c ih =>
        have hcons : calls = pre ++ c :: post := by simpa using hsplit
        exact (edgesApart_concat_iff hcalls hbound hinj hcons (ih _ hcons)).mpr
          (hfresh pre c post hcons)
    · intro pre c mid c' post hsplit hbundle hop hkind haccepted
      have hrestore : NoRestore calls := fun d hd => Call.not_restores_of_derivesEdge (hcalls d hd)
      have hfirst : calls = pre ++ c :: (mid ++ c' :: post) := by simpa using hsplit
      -- The first call left its edge, and the edge is still there.
      obtain ⟨edge, hedge⟩ := exists_addedEdge hkind haccepted
      obtain ⟨hord, -⟩ := idsDerived_of_run hcalls hbound hfirst
      have hbound1 : (step ext (reach ext pre) c).store.issued < u64Size :=
        step_bound (hfirst ▸ hrestore) (hfirst ▸ hbound)
      obtain ⟨revision, hedges⟩ := edges_step (hcalls c (by simp [hfirst])) hord hbound1
      rw [mem_def.mp hedge, map_some, toList_some] at hedges
      have hthere : edge revision ∈ (reach ext (pre ++ c :: mid)).store.edges := by
        have hgrow : (reach ext (pre ++ [c])).store.edges
            <+: (reach ext (pre ++ [c] ++ mid)).store.edges :=
          edges_grow_reach ext fun d hd => hrestore d (by simp [hfirst, hd])
        rw [append_cons]
        refine hgrow.subset ?_
        rw [reach_concat, hedges]
        exact mem_append_right _ (mem_singleton_self _)
      -- The second one would add it again.
      obtain ⟨hord', -⟩ := idsDerived_of_run hcalls hbound hsplit
      have hc' : c'.op.derivesEdge := hcalls c' (by simp [hfirst])
      have hbound2 : (step ext (reach ext (pre ++ c :: mid)) c').store.issued < u64Size :=
        step_bound (hsplit ▸ hrestore) (hsplit ▸ hbound)
      obtain ⟨revision', hedges'⟩ := edges_step hc' hord' hbound2
      rw [reach_concat, hedges']
      cases hadded : addedEdge ext (reach ext (pre ++ c :: mid)).store c' with
      | none => simp
      | some edge' =>
        obtain rfl := addedEdge_unique hbundle hop hkind hedge hadded
        have hne := (hfresh _ c' post hsplit edge' hadded _ hthere).1
        exact absurd (addedEdge_spec hc' hadded revision).1 hne

def grantRead (grantee : BundleId) : Call :=
  ⟨kernelBundleId, 0, .grantCapability ⟨grantee, 1#128, "CAN_READ"⟩⟩

theorem edge_identity_iff_grantRead :
    ((∀ pre post, [declareOne, grantRead 0xb1#128] = pre ++ post →
          (reach crates pre).store.EdgesApart)
        ∧ RepeatsAddNothing crates [declareOne, grantRead 0xb1#128])
      ↔ EachStep (step crates) (AddsFresh crates) new [declareOne, grantRead 0xb1#128] := by
  refine edge_identity_iff crates [declareOne, grantRead 0xb1#128]
    (by simp [declareOne, grantRead, Op.derivesEdge]) (by decide +kernel) ?_
  rintro _ ⟨e, he, rfl⟩ _ ⟨f, hf, rfl⟩
  revert e f
  decide +kernel

/-- Declared twice, a Thing has two edges to its owner; and the grants to two bundles have one
id. -/
theorem edges_not_apart :
    ¬ (reach crates [declareOne, declareOne]).store.EdgesApart
      ∧ ¬ (reach crates [grantRead 0xb1#128, grantRead 0xb2#128]).store.EdgesApart := by
  constructor
  · rintro ⟨hnodup, -⟩
    revert hnodup
    decide +kernel
  · rintro ⟨-, hids⟩
    revert hids
    decide +kernel

end ThingOS
