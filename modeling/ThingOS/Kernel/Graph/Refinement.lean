import ThingOS.Kernel.Graph.Authority

/-!
# The store refines a map

What the store is for, without versions, revision checks and indices: a partial function from ids to
the contents of Things. A declaration replaces the contents, an update overlays fields, and a bundle
that has no Thing gets a node of its own when it declares something or is granted something.

`Catalog.apply` is that behaviour. As long as fewer than `2 ^ 64` revisions were issued, the current
versions in the store are what folding `Catalog.apply` over the accepted calls gives; a call that
the store does not accept changes nothing.
-/

namespace ThingOS

open GraphState Store Std.ExtTreeMap

/-! ## The abstract catalogue -/

/-- The contents of a Thing: its labels as a set and its fields as a partial function. -/
@[ext] structure Content where
  id : Uuid
  kind : Symbol
  labels : Set Symbol
  fields : Symbol → Option Value
  owner : BundleId
  revision : ℕ

/-- The Things that are there, by id. -/
abbrev Catalog := Uuid → Option Content

namespace Catalog

/-- The node of a bundle: it has the bundle's id and says so. -/
def bundleContent (bundle : BundleId) (revision : ℕ) : Content where
  id := bundle
  kind := Canon.bundle
  labels := {Canon.bundle}
  fields k := if k = Canon.id then some (.uuid bundle) else none
  owner := bundle
  revision := revision

/-- Give a bundle that has no Thing its node. -/
def withBundle (m : Catalog) (bundle : BundleId) (revision : ℕ) : Catalog :=
  if m bundle = none then Function.update m bundle (some (bundleContent bundle revision)) else m

/-- The contents a declaration asks for. `OWNER` is filled in when the request leaves it out. -/
def declared (id : Uuid) (kind : Symbol) (labels : Set Symbol) (props : Map) (owner : BundleId)
    (revision : ℕ) : Content where
  id := id
  kind := kind
  labels := labels
  fields k := props[k]?.or (if k = Canon.owner then some (.uuid owner) else none)
  owner := owner
  revision := revision

/-- Replace the contents of a Thing. The declaring bundle's node, when it has to be made, takes the
first revision. -/
def declare (m : Catalog) (bundle : BundleId) (revision : ℕ) (content : ℕ → Content) : Catalog :=
  let revision' := if m bundle = none then revision + 1 else revision
  Function.update (m.withBundle bundle revision) (content revision').id (some (content revision'))

/-- Put the new fields over the old ones. -/
def update (m : Catalog) (node : Uuid) (props : Map) (revision : ℕ) : Catalog :=
  match m node with
  | none => m
  | some content =>
    Function.update m node
      (some { content with fields := fun k => props[k]?.or (content.fields k), revision })

def requestLabels (request : GraphNodeRequest) : Set Symbol :=
  if request.labels = [] then {Canon.thingCreated} else {l | l ∈ request.labels}

/-- What an accepted call does to the catalogue. It is given the first revision the call can use. -/
def apply (ext : Externs) (m : Catalog) (entry : ℕ × Call) : Catalog :=
  let bundle := entry.2.bundle
  match entry.2.op with
  | .fiat request =>
    m.declare bundle entry.1
      (declared (nodeId ext bundle (fiatNodeRequest request)) request.kind {request.kind}
        request.fields bundle)
  | .fiatNode request =>
    m.declare bundle entry.1
      (declared (nodeId ext bundle request) (nodeKind request) (requestLabels request)
        request.props bundle)
  | .setProps request => m.update request.node request.props entry.1
  | .grantCapability request => m.withBundle request.grantee entry.1
  | _ => m

end Catalog

/-! ## The abstraction function -/

def GraphThing.content (t : GraphThing) : Content where
  id := t.id
  kind := t.kind
  labels := {l | l ∈ t.labels}
  fields k := t.fields[k]?
  owner := t.owner
  revision := t.revision

/-- The contents of the current versions. -/
def Store.catalog (s : Store) : Catalog := fun id => (s.latest id).map GraphThing.content

variable {ext : Externs} {s t : Store} {c : Call}

namespace Store

lemma catalog_eq_of_graph (h : s.graph = t.graph) : s.catalog = t.catalog := by
  funext id
  simp only [catalog, latest_eq_of_graph h]

@[simp] lemma catalog_eq_none_iff (id : Uuid) : s.catalog id = none ↔ s.latest id = none := by
  simp [catalog]

/-- Overlaying one property after the other is overlaying all at once. -/
lemma getElem?_overlay (fields props : Map) (k : Symbol) :
    (overlay fields props)[k]? = props[k]?.or fields[k]? := by
  have hmany : ∀ (l : List (Symbol × Value)) (m : Map),
      l.foldl (fun m p => m.insert p.1 p.2) m = m.insertMany l := by
    intro l
    induction l with
    | nil => simp
    | cons p l ih => exact fun m => by rw [List.foldl_cons, ih, insertMany_cons]
  have hoverlay : overlay fields props = fields.insertMany props.toList := hmany _ _
  rw [hoverlay]
  cases hk : props[k]? with
  | some v =>
    exact getElem?_insertMany_list_of_mem Std.ReflCmp.compare_self
      distinct_keys_toList (mem_toList_iff_getElem?_eq_some.mpr hk)
  | none =>
    rw [getElem?_insertMany_list_of_contains_eq_false, Option.none_or]
    simp [mem_iff_isSome_getElem?, hk]

lemma propsThing_content (current : GraphThing) (request : GraphPropsRequest) (revision : ℕ) :
    (propsThing current request revision).content
      = { current.content with
          fields := fun k => request.props[k]?.or (current.content.fields k), revision } := by
  ext1 <;> try rfl
  funext k
  exact getElem?_overlay _ _ _

lemma bundleNode_content (bundle : BundleId) (revision : ℕ) :
    (bundleNode bundle revision).content = Catalog.bundleContent bundle revision := by
  ext1 <;> try rfl
  · ext l
    simp only [GraphThing.content, bundleNode, Catalog.bundleContent, Set.mem_ofPred_eq,
      Set.mem_singleton_iff, Std.ExtTreeSet.mem_insert, Std.LawfulEqCmp.compare_eq_iff_eq,
      Std.ExtTreeSet.not_mem_empty, or_false]
    exact eq_comm
  · funext k
    simp only [GraphThing.content, bundleNode, Catalog.bundleContent,
      getElem?_insert, Std.LawfulEqCmp.compare_eq_iff_eq,
      getElem?_empty, bundleNodeId, eq_comm (a := Canon.id)]

end Store

namespace GraphState

lemma getElem?_nodeFields (owner : BundleId) (request : GraphNodeRequest) (k : Symbol) :
    (nodeFields owner request)[k]?
      = request.props[k]?.or (if k = Canon.owner then some (.uuid owner) else none) := by
  rw [nodeFields, getElem?_insertIfNew]
  by_cases hk : k = Canon.owner
  · subst hk
    cases h : request.props[Canon.owner]? <;>
      simp [mem_iff_isSome_getElem?, h]
  · simp [hk, Ne.symm hk]

lemma mem_nodeLabels (request : GraphNodeRequest) (l : Symbol) :
    l ∈ nodeLabels request ↔ l ∈ Catalog.requestLabels request := by
  unfold nodeLabels Catalog.requestLabels
  by_cases h : request.labels = []
  · grind
  · simp [h]

lemma nodeThing_content (ext : Externs) (owner : BundleId) (request : GraphNodeRequest)
    (revision : ℕ) :
    (nodeThing ext owner request revision).content
      = Catalog.declared (nodeId ext owner request) (nodeKind request)
          (Catalog.requestLabels request) request.props owner revision := by
  ext1 <;> try rfl
  · ext l
    exact mem_nodeLabels request l
  · funext k
    exact getElem?_nodeFields owner request k

lemma nodeKind_fiat (request : GraphFiatRequest) :
    nodeKind (fiatNodeRequest request) = request.kind := rfl

lemma requestLabels_fiat (request : GraphFiatRequest) :
    Catalog.requestLabels (fiatNodeRequest request) = {request.kind} := by
  have hlabels : (fiatNodeRequest request).labels = [request.kind] := rfl
  simp [Catalog.requestLabels, hlabels]

end GraphState

/-! ## One call -/

namespace Store

section Commits

variable (hord : s.Ordered) (hbound : s.issued + 1 < u64Size)
include hord hbound

lemma Ordered.latest_commitThing (thing : ℕ → GraphThing) (hrev : ∀ r, (thing r).revision = r)
    (id : Uuid) :
    (s.commitThing thing).latest id
      = if (thing s.nextRevision).id = id then some (thing s.nextRevision) else s.latest id := by
  have hkeep : s.takeNextRevision.2.KeepsThing (thing s.nextRevision) := by
    intro v hv
    have := (hord.versions_issued _ v (List.mem_of_getLast? hv)).2
    rw [hrev, hord.nextRevision_eq hbound]
    omega
  rw [latest_eq_getLast?, latest_eq_getLast?, Store.commitThing,
    versions_insertThing_of_keeps hkeep]
  split
  · exact List.getLast?_concat
  · rfl

lemma Ordered.catalog_commitThing (thing : ℕ → GraphThing) (hrev : ∀ r, (thing r).revision = r) :
    (s.commitThing thing).catalog
      = Function.update s.catalog (thing s.nextRevision).id
          (some (thing s.nextRevision).content) := by
  funext id
  rw [catalog, hord.latest_commitThing hbound thing hrev, Function.update_apply]
  by_cases hid : (thing s.nextRevision).id = id
  · simp [hid]
  · rw [if_neg hid, if_neg (Ne.symm hid)]
    rfl

end Commits

lemma catalog_commitEdge (s : Store) (edge : ℕ → GraphEdge) :
    (s.commitEdge edge).catalog = s.catalog := by
  funext id
  simp only [catalog, latest_eq_getLast?, versions_commitEdge]

lemma catalog_commitOwned (ext : Externs) (s : Store) (owner : BundleId)
    (thing : ℕ → GraphThing) :
    (commitOwned ext s owner thing).catalog = (s.commitThing thing).catalog := by
  funext id
  simp only [catalog, latest_eq_getLast?, versions_commitOwned]

section

variable (hord : s.Ordered) (hwf : s.WellFormed)
include hord hwf

/-- Making sure of a bundle's node, and the revision that is next afterwards. -/
lemma Ordered.catalog_ensureBundleNode
    (bundle : BundleId) (hbound : (s.ensureBundleNode bundle).issued < u64Size) :
    (s.ensureBundleNode bundle).catalog = s.catalog.withBundle bundle s.nextRevision := by
  cases hnone : s.things[bundle]? with
  | some vs =>
    have hthere : s.catalog bundle ≠ none := by
      rw [Ne, catalog_eq_none_iff, hwf.latest_eq_none_iff, hnone]
      simp
    rw [ensureBundleNode_of_isSome (by simp [hnone]), Catalog.withBundle, if_neg hthere]
  | none =>
    have hmissing : s.catalog bundle = none := by
      rw [catalog_eq_none_iff, hwf.latest_eq_none_iff, hnone]
    rw [ensureBundleNode_of_none hnone] at hbound ⊢
    rw [commitThing_issued] at hbound
    rw [hord.catalog_commitThing hbound _ fun _ => rfl, bundleNode_content, Catalog.withBundle,
      if_pos hmissing]
    rfl

lemma Ordered.nextRevision_ensureBundleNode
    (bundle : BundleId) (hbound : (s.ensureBundleNode bundle).issued + 1 < u64Size) :
    (s.ensureBundleNode bundle).nextRevision
      = if s.catalog bundle = none then s.nextRevision + 1 else s.nextRevision := by
  have hnone : s.catalog bundle = none ↔ s.things[bundle]? = none := by
    rw [catalog_eq_none_iff, hwf.latest_eq_none_iff]
  rcases ensureBundleNode_cases s bundle with heq | ⟨hthings, heq⟩
  · rw [heq]
    split
    · rename_i h
      rw [ensureBundleNode_of_none (hnone.mp h)] at heq
      have := congrArg issued heq
      simp at this
    · rfl
  · rw [if_pos (hnone.mpr hthings), heq, Store.commitThing, insertThing_nextRevision,
      takeNextRevision_nextRevision]
    rw [heq, commitThing_issued] at hbound
    rw [hord.nextRevision_eq (by omega)]
    exact Nat.mod_eq_of_lt hbound

/-- A declaration below the bound is a declaration in the catalogue. -/
lemma Ordered.catalog_declare (owner : BundleId)
    (request : GraphNodeRequest) (hbound : (s.ensureBundleNode owner).issued + 1 < u64Size) :
    (Store.commitOwned ext (s.ensureBundleNode owner) owner (nodeThing ext owner request)).catalog
      = s.catalog.declare owner s.nextRevision
          (Catalog.declared (nodeId ext owner request) (nodeKind request)
            (Catalog.requestLabels request) request.props owner) := by
  have hens := hord.ensureBundleNode owner (Nat.lt_of_succ_lt hbound)
  rw [catalog_commitOwned, hens.catalog_commitThing hbound _ fun _ => rfl, nodeThing_content,
    hord.catalog_ensureBundleNode hwf owner (Nat.lt_of_succ_lt hbound),
    hord.nextRevision_ensureBundleNode hwf owner hbound]
  rfl

lemma Ordered.catalog_props
    (hbound : s.issued + 1 < u64Size) {request : GraphPropsRequest} {current : GraphThing}
    (hcurrent : s.latest request.node = some current) :
    (s.commitThing (propsThing current request)).catalog
      = s.catalog.update request.node request.props s.nextRevision := by
  have hcontent : s.catalog request.node = some current.content := by
    simp [catalog, hcurrent]
  rw [hord.catalog_commitThing hbound _ fun _ => rfl, propsThing_content, Catalog.update, hcontent]
  have hid : (propsThing current request s.nextRevision).id = current.id := rfl
  rw [hid, hwf.latest_id hcurrent]

end

end Store

namespace GraphState

section Call

variable {g : GraphState} (hwf : g.store.WellFormed) (hord : g.store.Ordered)
  (hbound : (step ext g c).store.issued < u64Size)
include hord hbound

/-- Below the bound, a call that is not accepted changes neither statics. -/
lemma step_eq_of_rejected (hrejected : (perform ext g c).2.accepted = false) :
    step ext g c = g := by
  cases hop : c.op with
  | setProps request =>
    rw [perform_of_setProps ext g hop] at hrejected
    rw [step, perform_of_setProps ext g hop]
    rcases setProps_cases c.bundle g.store request with h | ⟨current, hcurrent, hwrite⟩
    · rw [h]
    · rw [(setProps_of_written c.bundle hcurrent hwrite).2] at hrejected
      cases hrejected
  | linkEdge request =>
    rw [step, perform_of_linkEdge ext g hop] at hbound ⊢
    rw [perform_of_linkEdge ext g hop] at hrejected
    rcases linkEdge_cases ext c.now g c.bundle request with h | ⟨_, _, h⟩ | ⟨hlink, hnew⟩
    · rw [h]
    · rw [h]
    · -- a fresh revision is not zero before the counter wraps
      obtain ⟨hgraph, hrevision⟩ := linkEdge_of_new ext c.now g c.bundle hlink hnew
      rw [issued_eq_of_graph hgraph, commitEdge_issued] at hbound
      rw [hrevision, hord.nextRevision_eq hbound] at hrejected
      cases hrejected
  | grantCapability request =>
    rw [perform_of_grant ext g hop] at hrejected
    rw [step, perform_of_grant ext g hop]
    rcases grantCapability_cases ext c.now g c.bundle request with h | ⟨hcap, hgrant⟩
    · rw [h]
    · rw [(grantCapability_of_granted ext c.now g c.bundle hcap hgrant).2] at hrejected
      cases hrejected
  | _ => simp [perform, hop, Response.accepted] at hrejected

include hwf

/-- Below the bound, an accepted call does to the catalogue what it is meant to do. -/
lemma catalog_step_of_accepted (hc : ¬ c.restores)
    (haccepted : (perform ext g c).2.accepted = true) :
    (step ext g c).store.catalog = Catalog.apply ext g.store.catalog (g.store.nextRevision, c) := by
  cases hop : c.op with
  | fiat request =>
    have hrequest : c.op.nodeRequest = some (fiatNodeRequest request) := by rw [hop]; rfl
    have hgraph := step_graph_of_nodeRequest ext g hrequest
    rw [issued_eq_of_graph hgraph, commitOwned_issued] at hbound
    rw [Store.catalog_eq_of_graph hgraph, hord.catalog_declare hwf c.bundle _ hbound,
      nodeKind_fiat, requestLabels_fiat]
    simp only [Catalog.apply, hop]
    rfl
  | fiatNode request =>
    have hrequest : c.op.nodeRequest = some request := by rw [hop]; rfl
    have hgraph := step_graph_of_nodeRequest ext g hrequest
    rw [issued_eq_of_graph hgraph, commitOwned_issued] at hbound
    rw [Store.catalog_eq_of_graph hgraph, hord.catalog_declare hwf c.bundle _ hbound]
    simp only [Catalog.apply, hop]
  | setProps request =>
    rw [step, perform_of_setProps ext g hop] at hbound ⊢
    rw [perform_of_setProps ext g hop] at haccepted
    rcases setProps_cases c.bundle g.store request with h | ⟨current, hcurrent, hwrite⟩
    · rw [h] at haccepted
      cases haccepted
    · have hgraph := (setProps_of_written c.bundle hcurrent hwrite).1
      rw [issued_eq_of_graph hgraph, Store.commitThing_issued] at hbound
      rw [Store.catalog_eq_of_graph hgraph, hord.catalog_props hwf hbound hcurrent]
      simp only [Catalog.apply, hop]
  | linkEdge request =>
    simp only [Catalog.apply, hop]
    rw [step, perform_of_linkEdge ext g hop]
    rcases linkEdge_cases ext c.now g c.bundle request with h | ⟨_, _, h⟩ | ⟨hlink, hnew⟩
    · rw [h]
    · rw [h]
    · rw [Store.catalog_eq_of_graph (linkEdge_of_new ext c.now g c.bundle hlink hnew).1,
        catalog_commitEdge]
  | grantCapability request =>
    rw [step, perform_of_grant ext g hop] at hbound ⊢
    rw [perform_of_grant ext g hop] at haccepted
    rcases grantCapability_cases ext c.now g c.bundle request with h | ⟨hcap, hgrant⟩
    · rw [h] at haccepted
      cases haccepted
    · have hgraph := (grantCapability_of_granted ext c.now g c.bundle hcap hgrant).1
      rw [issued_eq_of_graph hgraph, commitEdge_issued] at hbound
      rw [Store.catalog_eq_of_graph hgraph, catalog_commitEdge,
        hord.catalog_ensureBundleNode hwf request.grantee (Nat.lt_of_succ_lt hbound)]
      simp only [Catalog.apply, hop]
  | registerWatch | registerWatchPattern => simp [step, perform, Catalog.apply, hop]; rfl
  | pollWatch id =>
    simp only [step, perform, Catalog.apply, hop]
    exact Store.catalog_eq_of_graph (pollWatch_graph _ _)
  | applySnapshot snapshot => exact absurd ⟨snapshot, hop⟩ hc

end Call

lemma versions_grow_step (ext : Externs) (g : GraphState) (hc : ¬ c.restores) (id : Uuid) :
    g.store.versions id <+: (step ext g c).store.versions id := by
  obtain ⟨t, hw, hgraph⟩ := step_wrote ext g c
  rw [versions_eq_of_graph hgraph]
  cases hw with
  | nothing => exact List.prefix_rfl
  | node request hop =>
    rw [versions_commitOwned]
    exact (versions_grow_ensureBundleNode _ _ id).trans
      (versions_grow_commitThing _ _ id)
  | props request current hop hcurrent hwrite => exact versions_grow_commitThing _ _ id
  | link request hop hlink hnew => simp
  | grant request hop hcap hgrant =>
    rw [versions_commitEdge]
    exact versions_grow_ensureBundleNode _ _ id
  | snapshot snap hop => exact absurd ⟨snap, hop⟩ hc

/-! ## Whole runs -/

/-- Versions stay, as long as no snapshot is restored. -/
lemma versions_grow_reach (ext : Externs) {pre post : List Call} (hpost : NoRestore post)
    (id : Uuid) :
    (reach ext pre).store.versions id <+: (reach ext (pre ++ post)).store.versions id := by
  rw [reach, reach, run_append]
  exact run_grows (P := fun c : Call => ¬ c.restores)
    (R := fun g g' : GraphState => g.store.versions id <+: g'.store.versions id)
    (fun _ => List.prefix_rfl) (fun _ _ _ => List.IsPrefix.trans)
    (fun g c hc => versions_grow_step ext g hc id) _ hpost

/-- A call with the revision that is next when it is made, if it is accepted. -/
def entry (ext : Externs) (g : GraphState) (c : Call) : List (ℕ × Call) :=
  if (perform ext g c).2.accepted then [(g.store.nextRevision, c)] else []

def accepted (ext : Externs) (g : GraphState) : List Call → List (ℕ × Call)
  | [] => []
  | c :: calls => entry ext g c ++ accepted ext (step ext g c) calls

lemma accepted_concat (ext : Externs) (g : GraphState) (calls : List Call) (c : Call) :
    accepted ext g (calls ++ [c])
      = accepted ext g calls ++ entry ext (run (step ext) g calls) c := by
  induction calls generalizing g with
  | nil => simp [accepted]
  | cons d calls ih => simp [accepted, ih]

/-- Below the bound the catalogue of a run is the fold over its accepted calls. -/
lemma catalog_reach (ext : Externs) {calls : List Call} (hcalls : NoRestore calls)
    (hbound : (reach ext calls).store.issued < u64Size) :
    (reach ext calls).store.catalog
      = (accepted ext new calls).foldl (Catalog.apply ext) fun _ => none := by
  induction calls using List.reverseRecOn with
  | nil =>
    funext id
    simp [Store.catalog, new, Store.new, Store.latest, accepted]
  | append_singleton calls c ih =>
    have hc : ¬ c.restores := hcalls c (by simp)
    have hstep := step_bound hcalls hbound
    have hord := reach_ordered_of_append hcalls hbound
    have ih := ih (fun d hd => hcalls d (by simp [hd]))
      ((issued_le_step ext _ hc).trans_lt hstep)
    rw [reach_concat, accepted_concat, List.foldl_append, ← ih]
    cases haccepted : (perform ext (reach ext calls) c).2.accepted with
    | true =>
      have hentry : entry ext (run (step ext) new calls) c
          = [((reach ext calls).store.nextRevision, c)] := if_pos haccepted
      rw [hentry]
      exact catalog_step_of_accepted (reach_wellFormed ext calls) hord hstep hc haccepted
    | false =>
      have hentry : entry ext (run (step ext) new calls) c = [] :=
        if_neg (ne_true_of_eq_false haccepted)
      rw [hentry, step_eq_of_rejected hord hstep haccepted]
      rfl

/-- The store refines the catalogue, only ever appends to version lists and to the edge list, and
does not move on a call that it answers with `false` or zero. -/
theorem append_only_refinement (ext : Externs) (calls : List Call) (hcalls : NoRestore calls)
    (hbound : (reach ext calls).store.issued < u64Size) :
    (∀ id, ((reach ext calls).store.latest id).map GraphThing.content
      = (accepted ext new calls).foldl (Catalog.apply ext) (fun _ => none) id)
    ∧ ∀ pre c post, calls = pre ++ c :: post →
      (∀ id, (reach ext pre).store.versions id
        <+: (step ext (reach ext pre) c).store.versions id)
      ∧ (reach ext pre).store.edges <+: (step ext (reach ext pre) c).store.edges
      ∧ ((perform ext (reach ext pre) c).2.accepted = false →
        step ext (reach ext pre) c = reach ext pre) := by
  refine ⟨fun id => congrFun (catalog_reach ext hcalls hbound) id, ?_⟩
  rintro pre c post rfl
  have hc : ¬ c.restores := hcalls c (by simp)
  exact ⟨versions_grow_step ext _ hc, edges_grow_step ext _ hc,
    step_eq_of_rejected (reach_ordered_of_append hcalls hbound) (step_bound hcalls hbound)⟩

theorem append_only_refinement_declareOne :
    ((reach crates [declareOne, updateOne]).store.latest 1#128).map GraphThing.content
      = (accepted crates new [declareOne, updateOne]).foldl (Catalog.apply crates)
        (fun _ => none) 1#128 :=
  (append_only_refinement crates [declareOne, updateOne]
    (by simp [NoRestore, Call.restores, declareOne, updateOne]) (by decide +kernel)).1 1#128

end GraphState

end ThingOS
