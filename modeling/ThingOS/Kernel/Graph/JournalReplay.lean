import ThingOS.Kernel.Graph.Refinement
import ThingOS.Kernel.Graph.Watches

/-!
# What the journal remembers

The README calls the graph something "derived by replaying the journal". `replay` is that
derivation: it reads the payloads of `THING_CREATED` and `EDGE_ADDED` events back into Things and
edges. But a declaration records its Thing without the ownership edge that goes in with it, and a
property update and the node made for a bundle record nothing.

So the journal of a run describes its store exactly if the run declares nothing, updates nothing and
makes no bundle node.
-/

namespace ThingOS

open Journal Store Std.ExtTreeMap

/-! ## Replay -/

/-- The part of a version that an event records. -/
structure ThingRecord where
  kind : Symbol
  fields : Map
  owner : BundleId
  revision : ℕ

structure EdgeRecord where
  src : Uuid
  pred : String
  dst : Uuid
  props : Map
  owner : BundleId

def GraphThing.record (t : GraphThing) : ThingRecord := ⟨t.kind, t.fields, t.owner, t.revision⟩

def GraphEdge.record (e : GraphEdge) : EdgeRecord := ⟨e.src, e.pred, e.dst, e.props, e.owner⟩

/-- A graph rebuilt from events: the latest record of every Thing, and the edges. -/
structure Replica where
  things : Std.ExtTreeMap Uuid ThingRecord compare
  edges : List EdgeRecord

namespace Journal

def toMap (entries : List (Symbol × Value)) : Map := Std.ExtTreeMap.ofList entries compare

def readThing (payload : Map) : Option (Uuid × ThingRecord) :=
  match payload[Canon.id]?, payload[Canon.kind]?, payload[Canon.fields]?, payload[Canon.owner]?,
    payload[Canon.revision]? with
  | some (.uuid id), some (.symbol kind), some (.map fields), some (.uuid owner),
    some (.u64 revision) => some (id, ⟨kind, toMap fields, owner, revision⟩)
  | _, _, _, _, _ => none

/-- The properties of a recorded edge; none when `FIELDS` is absent. -/
def readProps (payload : Map) : Option Map :=
  match payload[Canon.fields]? with
  | none => some ∅
  | some (.map fields) => some (toMap fields)
  | some _ => none

def readEdge (payload : Map) : Option EdgeRecord :=
  match payload[Canon.src]?, payload[Canon.predicate]?, payload[Canon.dst]?, readProps payload,
    payload[Canon.owner]? with
  | some (.uuid src), some (.text pred), some (.uuid dst), some props, some (.uuid owner) =>
    some ⟨src, pred, dst, props, owner⟩
  | _, _, _, _, _ => none

/-- Add what an event records. Other events, and payloads that cannot be read, say nothing. -/
def replayEvent (r : Replica) (e : Event) : Replica :=
  match e.data with
  | .map entries =>
    if e.kind = Canon.thingCreated then
      match readThing (toMap entries) with
      | some (id, record) => { r with things := r.things.insert id record }
      | none => r
    else if e.kind = Canon.edgeAdded then
      match readEdge (toMap entries) with
      | some record => { r with edges := r.edges ++ [record] }
      | none => r
    else r
  | _ => r

def replay (events : List Event) : Replica := run replayEvent ⟨∅, []⟩ events

def thingEvent (now : ℕ) (thing : GraphThing) : Event :=
  ⟨now, Canon.thingCreated, .map (thingPayload thing).toList⟩

def edgeEvent (now : ℕ) (edge : GraphEdge) : Event :=
  ⟨now, Canon.edgeAdded, .map (edgePayload edge).toList⟩

@[simp] lemma toMap_toList (m : Map) : toMap m.toList = m := ofList_toList m

lemma readThing_thingPayload (thing : GraphThing) :
    readThing (thingPayload thing) = some (thing.id, thing.record) := by
  simp +decide only [readThing, thingPayload, getElem?_insert, if_true, if_false,
    toMap_toList]
  rfl

lemma readEdge_edgePayload (edge : GraphEdge) :
    readEdge (edgePayload edge) = some edge.record := by
  unfold readEdge readProps edgePayload
  cases hprops : edge.props.isEmpty with
  | true =>
    simp +decide only [getElem?_insert, if_true, if_false,
      getElem?_empty]
    rw [GraphEdge.record, isEmpty_iff.mp hprops]
  | false =>
    simp +decide only [getElem?_insert, if_true, if_false, toMap_toList]
    rfl

@[simp] lemma replayEvent_thingEvent (r : Replica) (now : ℕ) (thing : GraphThing) :
    replayEvent r (thingEvent now thing)
      = { r with things := r.things.insert thing.id thing.record } := by
  simp [replayEvent, thingEvent, readThing_thingPayload]

@[simp] lemma replayEvent_edgeEvent (r : Replica) (now : ℕ) (edge : GraphEdge) :
    replayEvent r (edgeEvent now edge) = { r with edges := r.edges ++ [edge.record] } := by
  simp +decide [replayEvent, edgeEvent, readEdge_edgePayload]

end Journal

/-! ## What a call records -/

def GraphChange.event (now : ℕ) : GraphChange → Event
  | .thing t => thingEvent now t
  | .edge e => edgeEvent now e

namespace GraphState

/-- The events a call emits: one for a committed change, but none for a property update. -/
def events (ext : Externs) (g : GraphState) (c : Call) : List Event :=
  match c.op with
  | .setProps _ => []
  | _ => ((g.store.notified ext c).map fun change => change.2.event c.now).toList

def emitted (ext : Externs) (calls : List Call) : List Event :=
  outputs (step ext) (events ext) new calls

lemma step_journal (ext : Externs) (g : GraphState) (c : Call) :
    (step ext g c).journal = run emit g.journal (events ext g c) := by
  unfold step perform events
  cases hop : c.op with
  | setProps request => rfl
  | linkEdge request =>
    simp only [notified, hop, linkEdge]
    cases g.store.canLink c.bundle request.from_ request.to_ request.pred with
    | false => rfl
    | true => cases g.store.edgeBetween request.from_ request.pred request.to_ <;> rfl
  | grantCapability request =>
    simp only [notified, hop, grantCapability, ← Bool.not_or]
    cases isDataCapability request.capability
        || isHardwareCapability request.capability with
    | false => rfl
    | true => cases canGrant g.store c.bundle request <;> rfl
  | _ => simp only [notified, hop]; rfl

/-- As long as no more than `JOURNAL_CAPACITY` events were emitted, the journal holds them all. -/
lemma reach_journal (ext : Externs) {calls : List Call}
    (h : (emitted ext calls).length ≤ journalCapacity) :
    (reach ext calls).journal = ⟨emitted ext calls, journalCapacity⟩ := by
  have hrecent (calls : List Call) : (reach ext calls).journal
      = ⟨(emitted ext calls).rtake journalCapacity, journalCapacity⟩ := by
    induction calls using List.reverseRecOn with
    | nil => simp [emitted, outputs, reach, new, Journal.new]
    | append_singleton calls c ih =>
      rw [reach_concat, step_journal, ih, run_emit_rtake _ _ (by decide), emitted, emitted,
        outputs_concat]
      rfl
  rw [hrecent, List.rtake, Nat.sub_eq_zero_of_le h, List.drop_zero]

/-- Everything a call that restores no snapshot can commit, with the events it emits. -/
inductive Recording (ext : Externs) (g : GraphState) (c : Call) : List Event → Store → Prop
  | nothing (hop : c.op.nodeRequest = none) : Recording ext g c [] g.store
  | declared (request : GraphNodeRequest) (hop : c.op.nodeRequest = some request) :
      Recording ext g c
        [thingEvent c.now (nodeThing ext c.bundle request
          (g.store.ensureBundleNode c.bundle).nextRevision)]
        (commitOwned ext (g.store.ensureBundleNode c.bundle) c.bundle
          (nodeThing ext c.bundle request))
  | updated (request : GraphPropsRequest) (current : GraphThing) (hop : c.op = .setProps request)
      (hcurrent : g.store.latest request.node = some current)
      (hwrite : g.store.canWrite c.bundle current.id = true) :
      Recording ext g c [] (g.store.commitThing (propsThing current request))
  | linked (request : GraphLinkRequest) (hop : c.op = .linkEdge request) :
      Recording ext g c
        [edgeEvent c.now (linkRequestEdge ext c.bundle request g.store.nextRevision)]
        (g.store.commitEdge (linkRequestEdge ext c.bundle request))
  | granted (request : GrantCapabilityRequest) (hop : c.op = .grantCapability request)
      (hgranted : ((isDataCapability request.capability
        || isHardwareCapability request.capability)
          && canGrant g.store c.bundle request) = true) :
      Recording ext g c
        [edgeEvent c.now (grantEdge ext c.bundle request
          (g.store.ensureBundleNode request.grantee).nextRevision)]
        ((g.store.ensureBundleNode request.grantee).commitEdge (grantEdge ext c.bundle request))

lemma step_recording (ext : Externs) (g : GraphState) {c : Call} (hc : ¬ c.restores) :
    ∃ t, Recording ext g c (events ext g c) t ∧ (step ext g c).store.graph = t.graph := by
  have hw := perform_watched ext g c
  cases hchange : g.store.notified ext c with
  | none =>
    have hevents : events ext g c = [] := by
      unfold events
      split
      · rfl
      · rw [hchange]
        rfl
    have hop : c.op.nodeRequest = none := by
      unfold notified at hchange
      unfold Op.nodeRequest
      cases hop : c.op <;> simp_all
    rw [hevents]
    exact ⟨_, .nothing hop, graph_of_not_notified hw hc hchange⟩
  | some committed =>
    obtain ⟨t, change⟩ := committed
    have hgraph := step_graph_of_notified hchange
    refine ⟨t, ?_, hgraph⟩
    unfold events
    rw [hchange]
    unfold notified at hchange
    cases hop : c.op with
    | fiat | fiatNode =>
      simp only [hop] at hchange
      cases hchange
      exact .declared _ (by rw [hop]; rfl)
    | setProps request =>
      simp only [hop] at hchange
      split at hchange
      · cases hchange
      · rename_i current hcurrent
        split at hchange
        · rename_i hwrite
          cases hchange
          exact .updated request current hop hcurrent hwrite
        · cases hchange
    | linkEdge request =>
      simp only [hop] at hchange
      split at hchange
      · split at hchange
        · cases hchange
        · cases hchange
          exact .linked request hop
      · cases hchange
    | grantCapability request =>
      simp only [hop] at hchange
      split at hchange
      · rename_i hgranted
        cases hchange
        exact .granted request hop hgranted
      · cases hchange
    | _ => simp [hop] at hchange

/-! ## What is missing -/

/-- Replaying the journal gives the latest version of every Thing, and every edge. -/
def JournalComplete (g : GraphState) : Prop :=
  (∀ id, (replay g.journal.entries).things[id]?
      = (g.store.latest id).map GraphThing.record)
    ∧ (replay g.journal.entries).edges = g.store.edges.map GraphEdge.record

/-- The call commits only what it records: it declares no Thing, updates none, and grants nothing to
a bundle without a node. -/
structure RecordsAll (g : GraphState) (c : Call) : Prop where
  declares : c.op.nodeRequest = none
  updates : ∀ request current, c.op = .setProps request →
    g.store.latest request.node = some current → g.store.canWrite c.bundle current.id = false
  grants : ∀ request, c.op = .grantCapability request →
    ((isDataCapability request.capability
      || isHardwareCapability request.capability)
        && canGrant g.store c.bundle request) = true → g.store.things[request.grantee]? ≠ none

section Step

variable {ext : Externs} {g : GraphState} {c : Call}

/-- A call that commits only what it records adds at most one edge, and records it. -/
lemma step_of_recordsAll (h : RecordsAll g c) (hord : g.store.Ordered) (hc : ¬ c.restores)
    (hbound : (step ext g c).store.issued < u64Size) (r : Replica) :
    (step ext g c).store.things = g.store.things
      ∧ ∃ new, (step ext g c).store.edges = g.store.edges ++ new
        ∧ run replayEvent r (events ext g c)
          = { r with edges := r.edges ++ new.map GraphEdge.record } := by
  obtain ⟨t, hrec, hgraph⟩ := step_recording ext g hc
  rw [issued_eq_of_graph hgraph] at hbound
  rw [things_eq_of_graph hgraph, edges_eq_of_graph hgraph]
  generalize events ext g c = emitted at hrec
  cases hrec with
  | nothing hop => exact ⟨rfl, [], by simp, by simp⟩
  | declared request hop => cases h.declares.symm.trans hop
  | updated request current hop hcurrent hwrite =>
    cases (h.updates request current hop hcurrent).symm.trans hwrite
  | linked request hop =>
    rw [commitEdge_issued] at hbound
    refine ⟨by simp [commitEdge], [_], hord.edges_commitEdge hbound _ fun _ => rfl, ?_⟩
    simp
  | granted request hop hgranted =>
    have hnode := ensureBundleNode_of_isSome
      (Option.isSome_iff_ne_none.mpr (h.grants request hop hgranted))
    rw [hnode, commitEdge_issued] at hbound
    rw [hnode]
    refine ⟨by simp [commitEdge], [_], hord.edges_commitEdge hbound _ fun _ => rfl, ?_⟩
    simp

/-- The store gains an edge more than the journal when a Thing is declared, and the same number
otherwise. -/
lemma edge_count_step (hord : g.store.Ordered) (hc : ¬ c.restores)
    (hbound : (step ext g c).store.issued < u64Size) (r : Replica) :
    (run replayEvent r (events ext g c)).edges.length + g.store.edges.length
        + (if c.op.nodeRequest.isSome then 1 else 0)
      = r.edges.length + (step ext g c).store.edges.length := by
  obtain ⟨t, hrec, hgraph⟩ := step_recording ext g hc
  rw [issued_eq_of_graph hgraph] at hbound
  rw [edges_eq_of_graph hgraph]
  generalize events ext g c = emitted at hrec
  cases hrec with
  | nothing hop => simp [hop]
  | declared request hop =>
    rw [commitOwned_issued] at hbound
    rw [(hord.ensureBundleNode c.bundle (by omega)).edges_commitOwned hbound ext c.bundle]
    simp [hop, add_assoc]
  | updated request current hop hcurrent hwrite => simp [hop, Op.nodeRequest]
  | linked request hop =>
    rw [commitEdge_issued] at hbound
    rw [hord.edges_commitEdge hbound _ fun _ => rfl]
    simp [hop, Op.nodeRequest]
    omega
  | granted request hop hgranted =>
    rw [commitEdge_issued] at hbound
    rw [(hord.ensureBundleNode request.grantee (by omega)).edges_commitEdge hbound _ fun _ => rfl]
    simp [hop, Op.nodeRequest]
    omega

/-- A grant that is accepted leaves the bundle with a node. -/
lemma versions_of_granted {request : GrantCapabilityRequest}
    (hop : c.op = .grantCapability request)
    (hgranted : ((isDataCapability request.capability
      || isHardwareCapability request.capability)
        && canGrant g.store c.bundle request) = true)
    (hnode : g.store.things[request.grantee]? = none) :
    (step ext g c).store.versions request.grantee ≠ [] := by
  have hnotified : g.store.notified ext c
      = some (
        (g.store.ensureBundleNode request.grantee).commitEdge (grantEdge ext c.bundle request),
        .edge (grantEdge ext c.bundle request
          (g.store.ensureBundleNode request.grantee).nextRevision)) := by
    simp only [notified, hop, hgranted, if_true]
  have hgraph := step_graph_of_notified hnotified
  have hnone : g.store.versions request.grantee = [] := by rw [versions, hnode]; rfl
  have hkeep : g.store.takeNextRevision.2.KeepsThing
      (bundleNode request.grantee g.store.nextRevision) := by
    intro prev hprev
    rw [show (bundleNode request.grantee g.store.nextRevision).id = request.grantee from rfl,
      versions_takeNextRevision, hnone] at hprev
    cases hprev
  rw [versions_eq_of_graph hgraph, versions_commitEdge,
    ensureBundleNode_of_none hnode, commitThing,
    versions_insertThing_of_keeps hkeep]
  simp [bundleNode, bundleNodeId]

/-- Only a declaration records a Thing. -/
lemma replay_things_step (hc : ¬ c.restores) (hop : c.op.nodeRequest = none) (r : Replica) :
    (run replayEvent r (events ext g c)).things = r.things := by
  obtain ⟨t, hrec, -⟩ := step_recording ext g hc
  generalize events ext g c = emitted at hrec
  cases hrec with
  | nothing hop => rfl
  | declared request hop' => cases hop.symm.trans hop'
  | updated request current hop hcurrent hwrite => rfl
  | linked request hop => simp
  | granted request hop hgranted => simp

end Step

lemma replay_emitted_concat (ext : Externs) (calls : List Call) (c : Call) :
    replay (emitted ext (calls ++ [c]))
      = run replayEvent (replay (emitted ext calls))
        (events ext (reach ext calls) c) := by
  rw [emitted, outputs_concat, replay, run_append]
  rfl

variable {ext : Externs} {calls : List Call}

/-- In a run, the store has an edge more than its events for every declaration. -/
lemma edge_count (hcalls : NoRestore calls)
    (hbound : (reach ext calls).store.issued < u64Size) :
    (replay (emitted ext calls)).edges.length
        + calls.countP (fun c => c.op.nodeRequest.isSome)
      = (reach ext calls).store.edges.length := by
  induction calls using List.reverseRecOn with
  | nil => rfl
  | append_singleton calls c ih =>
    have hc : ¬ c.restores := hcalls c (by simp)
    have hstep := step_bound hcalls hbound
    have hord := reach_ordered_of_append hcalls hbound
    have ih := ih (fun d hd => hcalls d (by simp [hd])) ((issued_le_step ext _ hc).trans_lt hstep)
    have hcount := edge_count_step hord hc hstep (replay (emitted ext calls))
    rw [replay_emitted_concat, reach_concat, List.countP_append, List.countP_singleton]
    omega

/-- Without declarations the events describe no Thing. -/
lemma replay_things_eq_empty (hcalls : NoRestore calls)
    (hdeclares : ∀ c ∈ calls, c.op.nodeRequest = none) :
    (replay (emitted ext calls)).things = ∅ := by
  induction calls using List.reverseRecOn with
  | nil => rfl
  | append_singleton calls c ih =>
    rw [replay_emitted_concat,
      replay_things_step (hcalls c (by simp)) (hdeclares c (by simp))]
    exact ih (fun d hd => hcalls d (by simp [hd])) fun d hd => hdeclares d (by simp [hd])

/-- Events of calls that commit only what they record describe the store. -/
lemma replay_of_recordsAll (hcalls : NoRestore calls)
    (hbound : (reach ext calls).store.issued < u64Size)
    (hsteps : EachStep (step ext) RecordsAll new calls) :
    (∀ id, (replay (emitted ext calls)).things[id]?
        = ((reach ext calls).store.latest id).map GraphThing.record)
      ∧ (replay (emitted ext calls)).edges
        = (reach ext calls).store.edges.map GraphEdge.record := by
  induction calls using List.reverseRecOn with
  | nil =>
    refine ⟨fun id => ?_, rfl⟩
    simp [emitted, outputs, replay, new, Store.new, Store.latest]
  | append_singleton calls c ih =>
    have hc : ¬ c.restores := hcalls c (by simp)
    have hstep := step_bound hcalls hbound
    obtain ⟨hthings, hedges⟩ := ih (fun d hd => hcalls d (by simp [hd]))
      ((issued_le_step ext _ hc).trans_lt hstep) hsteps.of_append
    have hlast : RecordsAll (reach ext calls) c := hsteps.last
    obtain ⟨hsame, new, hnew, hreplay⟩ := step_of_recordsAll hlast
      (reach_ordered_of_append hcalls hbound) hc hstep (replay (emitted ext calls))
    rw [replay_emitted_concat, hreplay, reach_concat]
    constructor
    · intro id
      rw [Store.latest, hsame]
      exact hthings id
    · rw [hnew, List.map_append, hedges]

/-- If the events describe the store, no call of the run declared a Thing, and there is none. -/
lemma no_things_of_complete (hcalls : NoRestore calls)
    (hbound : (reach ext calls).store.issued < u64Size)
    (hthings : ∀ id, (replay (emitted ext calls)).things[id]?
      = ((reach ext calls).store.latest id).map GraphThing.record)
    (hedges : (replay (emitted ext calls)).edges
      = (reach ext calls).store.edges.map GraphEdge.record) :
    (∀ c ∈ calls, c.op.nodeRequest = none) ∧ ∀ id, (reach ext calls).store.versions id = [] := by
  have hcount := edge_count hcalls hbound
  rw [hedges, List.length_map, Nat.add_eq_left, List.countP_eq_zero] at hcount
  have hdeclares : ∀ c ∈ calls, c.op.nodeRequest = none := by simpa using hcount
  refine ⟨hdeclares, fun id => ?_⟩
  have hid := hthings id
  rw [replay_things_eq_empty hcalls hdeclares, getElem?_empty, eq_comm,
    Option.map_eq_none_iff, latest_eq_getLast?, List.getLast?_eq_none_iff] at hid
  exact hid

/-- The journal of a run with at most `JOURNAL_CAPACITY` events describes the store exactly if every
call commits only what it records. -/
theorem journal_completeness (ext : Externs) (calls : List Call) (hcalls : NoRestore calls)
    (hbound : (reach ext calls).store.issued < u64Size)
    (hevents : (emitted ext calls).length ≤ journalCapacity) :
    JournalComplete (reach ext calls) ↔ EachStep (step ext) RecordsAll new calls := by
  unfold JournalComplete
  rw [reach_journal ext hevents]
  constructor
  · rintro ⟨hthings, hedges⟩ pre c post rfl
    obtain ⟨hdeclares, hnone⟩ := no_things_of_complete hcalls hbound hthings hedges
    -- what is not there at the end was not there before either
    have hempty : ∀ mid post', pre ++ c :: post = mid ++ post' →
        ∀ id, (reach ext mid).store.versions id = [] := by
      intro mid post' hmid id
      have hpost : NoRestore post' := fun d hd =>
        hcalls d (by rw [hmid]; exact List.mem_append_right _ hd)
      have hgrow := @versions_grow_reach ext mid post' hpost id
      rw [← hmid, hnone] at hgrow
      exact List.prefix_nil.mp hgrow
    refine ⟨hdeclares c (by simp), ?_, ?_⟩
    · intro request current hop hcurrent
      have hversions := hempty pre (c :: post) rfl request.node
      rw [show run (step ext) new pre = reach ext pre from rfl, latest_eq_getLast?,
        hversions] at hcurrent
      cases hcurrent
    · intro request hop hgranted hnode
      have hafter := hempty (pre ++ [c]) post (by simp) request.grantee
      rw [reach_concat] at hafter
      exact versions_of_granted hop hgranted hnode hafter
  · exact fun hsteps => replay_of_recordsAll hcalls hbound hsteps

/-- The kernel links two nodes; the link is recorded and read back. -/
def linkTwo : Call := ⟨kernelBundleId, 0, .linkEdge ⟨none, "NEXT", 1#128, 2#128, ∅⟩⟩

theorem journal_completeness_linkTwo : JournalComplete (reach crates [linkTwo]) := by
  refine (journal_completeness crates [linkTwo] (by simp [NoRestore, Call.restores, linkTwo])
    (by decide +kernel) (by decide +kernel)).mpr ?_
  rw [eachStep_cons]
  refine ⟨⟨rfl, ?_, ?_⟩, eachStep_nil _⟩
  · rintro request current ⟨⟩
  · rintro request ⟨⟩

/-- One declaration, and the journal knows nothing of the ownership edge. -/
theorem ownership_not_journaled :
    (emitted crates [declareOne]).length ≤ journalCapacity
      ∧ ¬ JournalComplete (reach crates [declareOne]) := by
  refine ⟨by decide +kernel, fun h => ?_⟩
  have hedges := congrArg List.length h.2
  rw [List.length_map] at hedges
  exact absurd hedges (by decide +kernel)

end GraphState

end ThingOS
