import ThingOS.Kernel.Graph.Commit

/-!
# Operations and runs of the kernel graph

A `Call` is one operation issued by one bundle; `perform` answers it, `step` keeps the state. A run
is a list of calls, in the order in which the store's lock lets them in, so lists of calls are the
interleavings of any set of bundles.

`Wrote` is the inversion of `step`: everything a call can write to the graph, with the guards that
were passed. Invariants are proved against it and never unfold an operation again.
-/

namespace ThingOS

open Store

/-- An operation of the store. `fiat` and `fiat_node`, `register_watch` and `register_watch_pattern`
are separate entry points; `that` is `link_edge` without an id. -/
inductive Op where
  | fiat (request : GraphFiatRequest)
  | fiatNode (request : GraphNodeRequest)
  | setProps (request : GraphPropsRequest)
  | linkEdge (request : GraphLinkRequest)
  | grantCapability (request : GrantCapabilityRequest)
  | registerWatch (query : WatchQuery)
  | registerWatchPattern (pattern : NodePattern)
  | pollWatch (id : WatchId)
  | applySnapshot (snapshot : GraphSnapshot)

/-- An operation, the bundle that issues it and the clock it is stamped with. -/
structure Call where
  bundle : BundleId
  now : ℕ
  op : Op

/-- What an operation returns. -/
inductive Response where
  | thing (t : GraphThing)
  | revision (r : ℕ)
  | done (ok : Bool)
  | watch (id : WatchId)
  | batch (events : Option GraphWatchBatch)
  | none
deriving DecidableEq

/-- Neither `false` nor revision zero. -/
def Response.accepted : Response → Bool
  | .revision r => r != 0
  | .done ok => ok
  | _ => true

namespace GraphState

def perform (ext : Externs) (g : GraphState) (c : Call) : GraphState × Response :=
  match c.op with
  | .fiat request =>
    let r := fiat ext c.now g c.bundle request
    (r.1, .thing r.2)
  | .fiatNode request =>
    let r := fiatNode ext c.now g c.bundle request
    (r.1, .thing r.2)
  | .setProps request =>
    let r := g.store.setProps c.bundle request
    ({ g with store := r.1 }, .done r.2)
  | .linkEdge request =>
    let r := linkEdge ext c.now g c.bundle request
    (r.1, .revision r.2)
  | .grantCapability request =>
    let r := grantCapability ext c.now g c.bundle request
    (r.1, .done r.2)
  | .registerWatch query =>
    let r := g.store.registerWatch c.bundle query
    ({ g with store := r.1 }, .watch r.2)
  | .registerWatchPattern pattern =>
    let r := g.store.registerWatchPattern c.bundle pattern
    ({ g with store := r.1 }, .watch r.2)
  | .pollWatch id =>
    let r := g.store.pollWatch id
    ({ g with store := r.1 }, .batch r.2)
  | .applySnapshot snapshot => ({ g with store := g.store.applySnapshot snapshot }, .none)

def step (ext : Externs) (g : GraphState) (c : Call) : GraphState := (perform ext g c).1

def reach (ext : Externs) (calls : List Call) : GraphState := run (step ext) new calls

@[simp] lemma reach_nil (ext : Externs) : reach ext [] = new := rfl

lemma reach_concat (ext : Externs) (calls : List Call) (c : Call) :
    reach ext (calls ++ [c]) = step ext (reach ext calls) c :=
  run_concat _ _ _ _

end GraphState

open GraphState

def Op.nodeRequest : Op → Option GraphNodeRequest
  | .fiat request => some (fiatNodeRequest request)
  | .fiatNode request => some request
  | _ => none

/-- The Thing a call declares, when it is a `fiat` or `fiat_node`. -/
def Call.declares (ext : Externs) (c : Call) : Option Uuid :=
  c.op.nodeRequest.map (nodeId ext c.bundle)

def Call.restores (c : Call) : Prop := ∃ snapshot, c.op = .applySnapshot snapshot

def NoRestore (calls : List Call) : Prop := ∀ c ∈ calls, ¬ c.restores

/-- The store with its watches forgotten. -/
def Store.graph (s : Store) : Store := { s with watches := ∅, nextWatchId := 1 }

/-- The version an accepted `set_props` commits. -/
def Store.propsThing (current : GraphThing) (request : GraphPropsRequest) (revision : ℕ) :
    GraphThing :=
  { current with fields := overlay current.fields request.props, revision }

/-- Everything a call can write to the graph: nothing, one of the three commits with the guards that
were passed, or a snapshot. -/
inductive Wrote (ext : Externs) (s : Store) (c : Call) : Store → Prop
  | nothing : Wrote ext s c s
  | node (request : GraphNodeRequest) (hop : c.op.nodeRequest = some request) :
      Wrote ext s c (commitOwned ext (s.ensureBundleNode c.bundle) c.bundle
        (nodeThing ext c.bundle request))
  | props (request : GraphPropsRequest) (current : GraphThing) (hop : c.op = .setProps request)
      (hcurrent : s.latest request.node = some current)
      (hwrite : s.canWrite c.bundle current.id = true) :
      Wrote ext s c (s.commitThing (propsThing current request))
  | link (request : GraphLinkRequest) (hop : c.op = .linkEdge request)
      (hlink : s.canLink c.bundle request.from_ request.to_ request.pred = true)
      (hnew : s.edgeBetween request.from_ request.pred request.to_ = none) :
      Wrote ext s c (s.commitEdge (linkRequestEdge ext c.bundle request))
  | grant (request : GrantCapabilityRequest) (hop : c.op = .grantCapability request)
      (hcap : isDataCapability request.capability = true
        ∨ isHardwareCapability request.capability = true)
      (hgrant : canGrant s c.bundle request = true) :
      Wrote ext s c ((s.ensureBundleNode request.grantee).commitEdge
        (grantEdge ext c.bundle request))
  | snapshot (snap : GraphSnapshot) (hop : c.op = .applySnapshot snap) :
      Wrote ext s c (s.applySnapshot snap)

namespace GraphState

/-- Forgetting watches also forgets that they were notified. -/
lemma notifyWatches_graph (s : Store) (change : GraphChange) :
    (s.notifyWatches change).graph = s.graph := by
  obtain ⟨watches, h⟩ := notifyWatches_eq s change
  rw [h]
  rfl

lemma fiatNode_graph (ext : Externs) (now : ℕ) (g : GraphState) (owner : BundleId)
    (request : GraphNodeRequest) :
    (fiatNode ext now g owner request).1.store.graph
      = (commitOwned ext (g.store.ensureBundleNode owner) owner
          (nodeThing ext owner request)).graph :=
  notifyWatches_graph _ _

/-! ## What each operation answers and writes -/

section Specs

variable (ext : Externs) (now : ℕ) (g : GraphState) (bundle : BundleId)

/-- `set_props` is refused, or the Thing is there and may be written. -/
lemma setProps_cases (s : Store) (request : GraphPropsRequest) :
    s.setProps bundle request = (s, false)
      ∨ ∃ current, s.latest request.node = some current ∧ s.canWrite bundle current.id = true := by
  cases hcurrent : s.latest request.node with
  | none => exact .inl (by simp [setProps, hcurrent])
  | some current =>
    cases hwrite : s.canWrite bundle current.id with
    | false => exact .inl (by simp [setProps, hcurrent, hwrite])
    | true => exact .inr ⟨current, rfl, hwrite⟩

lemma setProps_of_written {s : Store} {request : GraphPropsRequest} {current : GraphThing}
    (h : s.latest request.node = some current) (hwrite : s.canWrite bundle current.id = true) :
    (s.setProps bundle request).1.graph = (s.commitThing (propsThing current request)).graph
      ∧ (s.setProps bundle request).2 = true := by
  simp only [setProps, h, hwrite]
  exact ⟨notifyWatches_graph _ _, rfl⟩

/-- `link_edge` is refused, or the edge is there already and answers for the request, or it may be
added. -/
lemma linkEdge_cases (request : GraphLinkRequest) :
    linkEdge ext now g bundle request = (g, 0)
      ∨ (∃ edge, g.store.edgeBetween request.from_ request.pred request.to_ = some edge
        ∧ linkEdge ext now g bundle request = (g, edge.revision))
      ∨ g.store.canLink bundle request.from_ request.to_ request.pred = true
        ∧ g.store.edgeBetween request.from_ request.pred request.to_ = none := by
  cases hlink : g.store.canLink bundle request.from_ request.to_ request.pred with
  | false => exact .inl (by simp [linkEdge, hlink])
  | true =>
    cases hedge : g.store.edgeBetween request.from_ request.pred request.to_ with
    | some edge => exact .inr (.inl ⟨edge, rfl, by simp [linkEdge, hlink, hedge]⟩)
    | none => exact .inr (.inr ⟨rfl, rfl⟩)

lemma linkEdge_of_new {request : GraphLinkRequest}
    (h : g.store.canLink bundle request.from_ request.to_ request.pred = true)
    (hnew : g.store.edgeBetween request.from_ request.pred request.to_ = none) :
    (linkEdge ext now g bundle request).1.store.graph
        = (g.store.commitEdge (linkRequestEdge ext bundle request)).graph
      ∧ (linkEdge ext now g bundle request).2 = g.store.nextRevision := by
  simp only [linkEdge, h, hnew]
  exact ⟨notifyWatches_graph _ _, rfl⟩

/-- `grant_capability` is refused, or names a capability that the policy lets the bundle grant. -/
lemma grantCapability_cases (grant : GrantCapabilityRequest) :
    grantCapability ext now g bundle grant = (g, false)
      ∨ (isDataCapability grant.capability = true
          ∨ isHardwareCapability grant.capability = true)
        ∧ canGrant g.store bundle grant = true := by
  cases hgrant : canGrant g.store bundle grant with
  | false => exact .inl (by simp [grantCapability, hgrant])
  | true =>
    by_cases hcap : isDataCapability grant.capability = true
        ∨ isHardwareCapability grant.capability = true
    · exact .inr ⟨hcap, rfl⟩
    · -- neither kind of name: turned away before the policy is asked
      simp only [not_or, Bool.not_eq_true] at hcap
      exact .inl (by simp [grantCapability, hcap])

lemma grantCapability_of_granted {grant : GrantCapabilityRequest}
    (hcap : isDataCapability grant.capability = true
      ∨ isHardwareCapability grant.capability = true)
    (h : canGrant g.store bundle grant = true) :
    (grantCapability ext now g bundle grant).1.store.graph
        = ((g.store.ensureBundleNode grant.grantee).commitEdge (grantEdge ext bundle grant)).graph
      ∧ (grantCapability ext now g bundle grant).2 = true := by
  have hvalid : (!isDataCapability grant.capability
      && !isHardwareCapability grant.capability) = false := by
    rcases hcap with h | h <;> simp [h]
  simp only [grantCapability, hvalid, h]
  exact ⟨notifyWatches_graph _ _, rfl⟩

lemma pollWatch_graph (s : Store) (id : WatchId) : (s.pollWatch id).1.graph = s.graph := by
  unfold pollWatch
  repeat' split
  all_goals rfl

end Specs

section

variable (ext : Externs) (g : GraphState)

lemma perform_of_setProps {c : Call}
    {request : GraphPropsRequest} (hop : c.op = .setProps request) :
    perform ext g c = ({ g with store := (g.store.setProps c.bundle request).1 },
      .done (g.store.setProps c.bundle request).2) := by
  simp only [perform, hop]

lemma perform_of_linkEdge {c : Call}
    {request : GraphLinkRequest} (hop : c.op = .linkEdge request) :
    perform ext g c = ((linkEdge ext c.now g c.bundle request).1,
      .revision (linkEdge ext c.now g c.bundle request).2) := by
  simp only [perform, hop]

lemma perform_of_grant {c : Call}
    {request : GrantCapabilityRequest} (hop : c.op = .grantCapability request) :
    perform ext g c = ((grantCapability ext c.now g c.bundle request).1,
      .done (grantCapability ext c.now g c.bundle request).2) := by
  simp only [perform, hop]

/-- A declaration is carried out whatever the state. -/
lemma step_graph_of_nodeRequest {c : Call}
    {request : GraphNodeRequest} (hop : c.op.nodeRequest = some request) :
    (step ext g c).store.graph
      = (commitOwned ext (g.store.ensureBundleNode c.bundle) c.bundle
          (nodeThing ext c.bundle request)).graph := by
  unfold step perform
  cases heq : c.op with
  | fiat | fiatNode =>
    rw [heq] at hop
    cases hop
    exact fiatNode_graph ext c.now g c.bundle _
  | _ =>
    rw [heq] at hop
    cases hop

lemma step_wrote (c : Call) :
    ∃ t, Wrote ext g.store c t ∧ (step ext g c).store.graph = t.graph := by
  unfold step perform
  cases hop : c.op with
  | fiat | fiatNode =>
    exact ⟨_, .node _ (by rw [hop]; rfl), fiatNode_graph ext c.now g c.bundle _⟩
  | setProps request =>
    rcases setProps_cases c.bundle g.store request with h | ⟨current, hcurrent, hwrite⟩
    · exact ⟨_, .nothing, by simp only [h]⟩
    · exact ⟨_, .props request current hop hcurrent hwrite,
        (setProps_of_written c.bundle hcurrent hwrite).1⟩
  | linkEdge request =>
    rcases linkEdge_cases ext c.now g c.bundle request with h | ⟨_, _, h⟩ | ⟨hlink, hnew⟩
    · exact ⟨_, .nothing, by simp only [h]⟩
    · exact ⟨_, .nothing, by simp only [h]⟩
    · exact ⟨_, .link request hop hlink hnew,
        (linkEdge_of_new ext c.now g c.bundle hlink hnew).1⟩
  | grantCapability request =>
    rcases grantCapability_cases ext c.now g c.bundle request with h | ⟨hcap, hgrant⟩
    · exact ⟨_, .nothing, by simp only [h]⟩
    · exact ⟨_, .grant request hop hcap hgrant,
        (grantCapability_of_granted ext c.now g c.bundle hcap hgrant).1⟩
  | registerWatch | registerWatchPattern => exact ⟨_, .nothing, rfl⟩
  | pollWatch id => exact ⟨_, .nothing, pollWatch_graph _ _⟩
  | applySnapshot snapshot => exact ⟨_, .snapshot snapshot hop, rfl⟩

end

end GraphState

end ThingOS
