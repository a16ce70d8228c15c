import ThingOS.Kernel.Graph.Representation

/-!
# Where authority comes from

Authority is an edge, so which bundle may do what depends on which calls add which edges. `Added` is
the inversion of a step for edges: a new edge is the ownership edge of a declaration, the edge of a
link or of a grant, or comes out of a restored snapshot.

Edges are never removed except by a restore, and below `2 ^ 64` revisions no edge is dropped. So
authority is exactly the set of accepted declarations, grants and links.
-/

namespace ThingOS

open GraphState Store List

variable {ext : Externs} {s t : Store} {c : Call} {e : GraphEdge}

/-! ## The edges a call can add -/

/-- The edges a call can add to the store, with the guards that were passed. -/
inductive Added (ext : Externs) (s : Store) (c : Call) : GraphEdge → Prop
  | owns (request : GraphNodeRequest) (revision : ℕ) (hop : c.op.nodeRequest = some request) :
      Added ext s c
        (ownershipEdge ext c.bundle (nodeId ext c.bundle request) revision)
  | link (request : GraphLinkRequest) (revision : ℕ) (hop : c.op = .linkEdge request)
      (hlink : s.canLink c.bundle request.from_ request.to_ request.pred = true)
      (hnew : s.edgeBetween request.from_ request.pred request.to_ = none) :
      Added ext s c (linkRequestEdge ext c.bundle request revision)
  | grant (request : GrantCapabilityRequest) (revision : ℕ)
      (hop : c.op = .grantCapability request)
      (hcap : isDataCapability request.capability = true
        ∨ isHardwareCapability request.capability = true)
      (hgrant : canGrant s c.bundle request = true) :
      Added ext s c (grantEdge ext c.bundle request revision)
  | restored (snapshot : GraphSnapshot) (edge : GraphEdge) (hop : c.op = .applySnapshot snapshot)
      (hedge : edge ∈ snapshot.edges) : Added ext s c edge

namespace Store

lemma mem_edges_insertEdge {edge : GraphEdge} (h : e ∈ (s.insertEdge edge).edges) :
    e ∈ s.edges ∨ e = edge := by
  rw [edges_insertEdge] at h
  split at h
  · simpa using h
  · exact .inl h

lemma mem_edges_commitEdge {edge : ℕ → GraphEdge} (h : e ∈ (s.commitEdge edge).edges) :
    e ∈ s.edges ∨ e = edge s.nextRevision :=
  mem_edges_insertEdge (s := s.takeNextRevision.2) h

lemma mem_edges_commitOwned {owner : BundleId} {thing : ℕ → GraphThing}
    (h : e ∈ (commitOwned ext s owner thing).edges) :
    e ∈ s.edges ∨ e = ownershipEdge ext owner (thing s.nextRevision).id s.nextRevision := by
  rcases mem_edges_insertEdge h with h | h
  · exact .inl (by simpa using h)
  · exact .inr h

/-- A restored store has no edge that the snapshot does not have. -/
lemma mem_edges_applySnapshot {snapshot : GraphSnapshot}
    (h : e ∈ (s.applySnapshot snapshot).edges) : e ∈ snapshot.edges := by
  have hthings : ∀ (things : List GraphThing) (r : Store),
      (things.foldl insertThing r).edges = r.edges := by
    intro things r
    exact run_invariant (P := fun r' : Store => r'.edges = r.edges) things rfl
      fun r' thing hr' => by rw [insertThing_edges, hr']
  have hedges : ∀ (edges : List GraphEdge) (r : Store),
      e ∈ (edges.foldl insertEdge r).edges → e ∈ r.edges ∨ e ∈ edges := by
    intro edges
    induction edges with
    | nil => exact fun r hr => .inl hr
    | cons edge edges ih =>
      intro r hr
      rcases ih _ hr with hr | hr
      · rcases mem_edges_insertEdge hr with hr | rfl
        · exact .inl hr
        · exact .inr mem_cons_self
      · exact .inr (mem_cons_of_mem _ hr)
  rcases hedges _ _ h with h | h
  · rw [hthings] at h
    exact absurd h (not_mem_nil)
  · exact h

lemma added_of_wrote (hw : Wrote ext s c t) (he : e ∈ t.edges) :
    e ∈ s.edges ∨ Added ext s c e := by
  cases hw with
  | nothing => exact .inl he
  | node request hop =>
    rcases mem_edges_commitOwned he with he | rfl
    · exact .inl (by simpa using he)
    · exact .inr (.owns request _ hop)
  | props request current hop hcurrent hwrite => exact .inl (by simpa using he)
  | link request hop hlink hnew =>
    rcases mem_edges_commitEdge he with he | rfl
    · exact .inl he
    · exact .inr (.link request _ hop hlink hnew)
  | grant request hop hcap hgrant =>
    rcases mem_edges_commitEdge he with he | rfl
    · exact .inl (by simpa using he)
    · exact .inr (.grant request _ hop hcap hgrant)
  | snapshot snap hop => exact .inr (.restored snap e hop (mem_edges_applySnapshot he))

/-- A call that restores no snapshot only appends to the edge list. -/
lemma edges_grow_of_wrote (hw : Wrote ext s c t) (hc : ¬ c.restores) : s.edges <+: t.edges := by
  cases hw with
  | nothing => exact prefix_rfl
  | node request hop =>
    have h := edges_grow_commitOwned ext (s.ensureBundleNode c.bundle) c.bundle
      (nodeThing ext c.bundle request)
    rwa [ensureBundleNode_edges] at h
  | props request current hop hcurrent hwrite => simp
  | link request hop hlink hnew => exact edges_grow_commitEdge _ _
  | grant request hop hcap hgrant =>
    have h := edges_grow_commitEdge (s.ensureBundleNode request.grantee)
      (grantEdge ext c.bundle request)
    rwa [ensureBundleNode_edges] at h
  | snapshot snap hop => exact absurd ⟨snap, hop⟩ hc

end Store

namespace GraphState

lemma added_of_step {g : GraphState} (hnew : e ∉ g.store.edges)
    (he : e ∈ (step ext g c).store.edges) : Added ext g.store c e := by
  obtain ⟨t, hw, hgraph⟩ := step_wrote ext g c
  rw [edges_eq_of_graph hgraph] at he
  exact (added_of_wrote hw he).resolve_left hnew

lemma edges_grow_step (ext : Externs) (g : GraphState) (hc : ¬ c.restores) :
    g.store.edges <+: (step ext g c).store.edges := by
  obtain ⟨t, hw, hgraph⟩ := step_wrote ext g c
  rw [edges_eq_of_graph hgraph]
  exact edges_grow_of_wrote hw hc

lemma exists_added (ext : Externs) {calls : List Call}
    (he : e ∈ (reach ext calls).store.edges) :
    ∃ pre c post, calls = pre ++ c :: post ∧ e ∉ (reach ext pre).store.edges
      ∧ e ∈ (step ext (reach ext pre) c).store.edges ∧ Added ext (reach ext pre).store c e := by
  have hinit : ¬ e ∈ new.store.edges := by simp [new, Store.new]
  obtain ⟨pre, c, post, rfl, hpre, hc⟩ :=
    exists_step_of_run (Q := fun g : GraphState => e ∈ g.store.edges) hinit he
  exact ⟨pre, c, post, rfl, hpre, hc, added_of_step hpre hc⟩

/-- Edges stay, as long as no snapshot is restored. -/
lemma edges_grow_reach (ext : Externs) {pre post : List Call} (hpost : NoRestore post) :
    (reach ext pre).store.edges <+: (reach ext (pre ++ post)).store.edges := by
  rw [reach, reach, run_append]
  exact run_grows (P := fun c : Call => ¬ c.restores)
    (R := fun g g' : GraphState => g.store.edges <+: g'.store.edges)
    (fun _ => prefix_rfl) (fun _ _ _ => List.IsPrefix.trans)
    (fun g c hc => edges_grow_step ext g hc) _ hpost

end GraphState

/-! ## Authority is what was conferred -/

/-- The calls that are meant to give `bundle` a capability on `target`: a declaration of the target
by the bundle itself, a grant, or a link under the capability's name. -/
inductive Confers (ext : Externs) (c : Call) (bundle : BundleId) (target : Uuid) : Symbol → Prop
  | declared (hbundle : c.bundle = bundle) (htarget : c.declares ext = some target) :
      Confers ext c bundle target Canon.owns
  | granted (capability : Symbol) (request : GrantCapabilityRequest)
      (hop : c.op = .grantCapability request) (hgrantee : request.grantee = bundle)
      (htarget : request.target = target)
      (hname : request.capability = Canon.symbolToString capability) :
      Confers ext c bundle target capability
  | linked (capability : Symbol) (request : GraphLinkRequest) (hop : c.op = .linkEdge request)
      (hfrom : request.from_ = bundle) (hto : request.to_ = target)
      (hname : request.pred = Canon.symbolToString capability) :
      Confers ext c bundle target capability

namespace GraphState

/-- Below the bound, an added edge comes from an accepted call that confers its capability. -/
lemma confers_of_added {g : GraphState} {capability : Symbol}
    (hcap : capability ∈ Canon.authoritySymbols) (hc : ¬ c.restores) (hord : g.store.Ordered)
    (hbound : (step ext g c).store.issued < u64Size) (hadded : Added ext g.store c e)
    (hpred : e.pred = Canon.symbolToString capability) :
    (perform ext g c).2.accepted = true ∧ Confers ext c e.src e.dst capability := by
  cases hadded with
  | owns request revision hop =>
    obtain rfl : Canon.owns = capability :=
      Canon.symbolToString_inj_of_authority (by decide) hcap hpred
    refine ⟨?_, .declared rfl (by simp [Call.declares, hop, ownershipEdge])⟩
    unfold perform
    cases heq : c.op with
    | fiat | fiatNode => rfl
    | _ =>
      rw [heq] at hop
      cases hop
  | link request revision hop hlink hnew =>
    have hspec := linkEdge_of_new ext c.now g c.bundle hlink hnew
    refine ⟨?_, .linked capability request hop rfl rfl hpred⟩
    have hissued : g.store.issued + 1 < u64Size := by
      simpa [step, perform_of_linkEdge ext g hop, issued_eq_of_graph hspec.1] using hbound
    simp [perform_of_linkEdge ext g hop, Response.accepted, hspec.2, hord.nextRevision_eq hissued]
  | grant request revision hop hgcap hgrant =>
    refine ⟨?_, .granted capability request hop rfl rfl hpred⟩
    simp [perform_of_grant ext g hop, Response.accepted,
      (grantCapability_of_granted ext c.now g c.bundle hgcap hgrant).2]
  | restored snapshot edge hop hedge => exact absurd ⟨snapshot, hop⟩ hc

section Prefixes

variable {pre post : List Call} (hcalls : NoRestore (pre ++ c :: post))
  (hbound : (reach ext (pre ++ c :: post)).store.issued < u64Size)
include hcalls hbound

lemma step_bound : (step ext (reach ext pre) c).store.issued < u64Size := by
  rw [← reach_concat]
  rw [append_cons] at hbound
  exact (issued_le_reach ext fun d hd => hcalls d (by simp [hd])).trans_lt hbound

lemma reach_ordered_of_append : (reach ext pre).store.Ordered := by
  refine reach_ordered ext (fun d hd => hcalls d (by simp [hd])) ?_
  exact (issued_le_step ext _ (hcalls c (by simp))).trans_lt (step_bound hcalls hbound)

end Prefixes

/-- Below the bound, an accepted call that confers a capability leaves its edge in the store. -/
lemma exists_edge_of_confers {g : GraphState} {bundle : BundleId} {target : Uuid}
    {capability : Symbol} (hwf : g.store.WellFormed) (hord : g.store.Ordered)
    (hbound : (step ext g c).store.issued < u64Size)
    (haccepted : (perform ext g c).2.accepted = true)
    (hconfers : Confers ext c bundle target capability) :
    ∃ e ∈ (step ext g c).store.edges, e.src = bundle
      ∧ e.pred = Canon.symbolToString capability ∧ e.dst = target := by
  cases hconfers with
  | declared hbundle htarget =>
    obtain ⟨request, hop, hid⟩ := Option.map_eq_some_iff.mp htarget
    have hgraph := step_graph_of_nodeRequest ext g hop
    rw [issued_eq_of_graph hgraph, commitOwned_issued] at hbound
    have hens := hord.ensureBundleNode c.bundle (Nat.lt_of_succ_lt hbound)
    rw [edges_eq_of_graph hgraph, hens.edges_commitOwned hbound]
    exact ⟨_, mem_append_right _ (mem_singleton_self _), hbundle, rfl, hid⟩
  | granted _ request hop hgrantee htarget hname =>
    have hok : (grantCapability ext c.now g c.bundle request).2 = true := by
      simpa [perform_of_grant ext g hop, Response.accepted] using haccepted
    obtain ⟨hcap, hgrant⟩ := (grantCapability_cases ext c.now g c.bundle request).resolve_left
      fun h => by simp [h] at hok
    have hgraph := (grantCapability_of_granted ext c.now g c.bundle hcap hgrant).1
    simp only [step, perform_of_grant ext g hop] at hbound ⊢
    rw [issued_eq_of_graph hgraph, commitEdge_issued] at hbound
    have hens := hord.ensureBundleNode request.grantee (Nat.lt_of_succ_lt hbound)
    rw [edges_eq_of_graph hgraph, hens.edges_commitEdge hbound _ fun _ => rfl]
    exact ⟨_, mem_append_right _ (mem_singleton_self _), hgrantee, hname, htarget⟩
  | linked _ request hop hfrom hto hname =>
    have hok : (linkEdge ext c.now g c.bundle request).2 ≠ 0 := by
      simpa [perform_of_linkEdge ext g hop, Response.accepted] using haccepted
    simp only [step, perform_of_linkEdge ext g hop] at hbound ⊢
    rcases linkEdge_cases ext c.now g c.bundle request with h | ⟨existing, hedge, h⟩ | ⟨hlink, hnew⟩
    · simp [h] at hok
    · -- the link found its edge in the store and returned the revision of that
      obtain ⟨hmem, hsrc, hpred, hdst⟩ := hwf.of_edgeBetween hedge
      rw [h]
      exact ⟨existing, hmem, hsrc.trans hfrom, hpred.trans hname, hdst.trans hto⟩
    · have hgraph := (linkEdge_of_new ext c.now g c.bundle hlink hnew).1
      rw [issued_eq_of_graph hgraph, commitEdge_issued] at hbound
      rw [edges_eq_of_graph hgraph, hord.edges_commitEdge hbound _ fun _ => rfl]
      exact ⟨_, mem_append_right _ (mem_singleton_self _), hfrom, hname, hto⟩

/-- Below `2 ^ 64` revisions a bundle has a capability exactly if an accepted call conferred it, and
what it has at some point of the run it has at every later one. -/
theorem authority_exact (ext : Externs) (calls : List Call) (hcalls : NoRestore calls)
    (hbound : (reach ext calls).store.issued < u64Size) (bundle : BundleId) (target : Uuid)
    (capability : Symbol) (hcap : capability ∈ Canon.authoritySymbols) :
    ((reach ext calls).store.hasCapability bundle target capability = true
      ↔ ∃ pre c post, calls = pre ++ c :: post
        ∧ (perform ext (reach ext pre) c).2.accepted = true
        ∧ Confers ext c bundle target capability)
    ∧ ∀ pre post, calls = pre ++ post →
      (reach ext pre).store.hasCapability bundle target capability = true →
      (reach ext calls).store.hasCapability bundle target capability = true := by
  refine ⟨⟨fun h => ?_, ?_⟩, ?_⟩
  · -- a capability is an edge, and the call that added the edge conferred it
    obtain ⟨e, he, rfl, hpred, rfl⟩ :=
      ((reach_wellFormed ext calls).hasCapability_iff _ _ _).mp h
    obtain ⟨pre, c, post, rfl, hpre, hc, hadded⟩ := exists_added ext he
    have hnc : ¬ c.restores := hcalls c (by simp)
    have hstep := step_bound hcalls hbound
    exact ⟨pre, c, post, rfl,
      confers_of_added hcap hnc (reach_ordered_of_append hcalls hbound) hstep hadded hpred⟩
  · -- the edge of a conferring call is there after it, and edges stay
    rintro ⟨pre, c, post, rfl, haccepted, hconfers⟩
    obtain ⟨e, he, hsrc, hpred, hdst⟩ := exists_edge_of_confers (reach_wellFormed ext pre)
      (reach_ordered_of_append hcalls hbound) (step_bound hcalls hbound) haccepted hconfers
    refine ((reach_wellFormed ext _).hasCapability_iff _ _ _).mpr ⟨e, ?_, hsrc, hpred, hdst⟩
    rw [← reach_concat] at he
    rw [append_cons]
    exact (edges_grow_reach ext fun d hd => hcalls d (by simp [hd])).subset he
  · rintro pre post rfl h
    obtain ⟨e, he, hedge⟩ := ((reach_wellFormed ext pre).hasCapability_iff _ _ _).mp h
    exact ((reach_wellFormed ext _).hasCapability_iff _ _ _).mpr
      ⟨e, (edges_grow_reach ext fun d hd => hcalls d (by simp [hd])).subset he, hedge⟩

theorem authority_exact_declareOne :
    (reach crates [declareOne]).store.hasCapability kernelBundleId 1#128 Canon.owns = true :=
  ((authority_exact crates [declareOne] (by simp [NoRestore, Call.restores, declareOne])
    (by decide +kernel) kernelBundleId 1#128 Canon.owns (by decide)).1).mpr
    ⟨[], declareOne, [], rfl, by decide +kernel, .declared rfl (by decide +kernel)⟩

end GraphState

end ThingOS
