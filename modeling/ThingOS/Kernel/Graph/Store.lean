import ThingOS.Common.Checked
import ThingOS.Kernel.Graph.Journal

/-!
# The kernel graph store

A translation of `kernel/src/graph/store.rs`. The store keeps every version of every Thing, the
edges in commit order, two redundant indices over them and the registered watches. A bundle owns a
Thing, or holds a capability on it, when an edge from its node to the Thing is filed under the
predicate's printed name.

Two things differ from the Rust text:

* `Externs` stands for the functions of the `uuid` and `postcard` crates that the store calls. No
  result about the store depends on what they return; concrete runs use `crates`.
* `Store.issued` and `Store.discarded` are ghost fields that no function reads. They record how
  often `next_revision` was called and which arguments `insert_thing` and `insert_edge` dropped.

The journal is a second static of the kernel, so the three operations that write to it act on a
`GraphState`, the pair of the two. Output is left out.
-/

namespace ThingOS

/-- The third-party functions the store calls: `Uuid::new_v5` and, on a map of fields,
`postcard::to_allocvec`. -/
structure Externs where
  newV5 : Uuid → List UInt8 → Uuid
  toAllocvec : Map → Option (List UInt8)

def crates : Externs := ⟨Sha1.newV5, fun fields => some (encodeMap fields)⟩

def namespaceOid : Uuid := 0x6ba7b8129dad11d180b400c04fd430c8#128

def deriveUuid (ext : Externs) (kindBytes : List UInt8) (fields : Map) : Uuid :=
  ext.newV5 namespaceOid (kindBytes ++ (ext.toAllocvec fields).getD [])

/-- The most changes a watch queues before it drops the oldest. -/
def maxWatchQueue : ℕ := 1024

/-- A registered watch with the changes waiting to be polled. -/
structure Watch where
  id : WatchId
  owner : BundleId
  pattern : NodePattern
  queue : List GraphChange

/-- Queue a change, dropping the oldest one when the queue has grown too long. -/
def Watch.push (watch : Watch) (change : GraphChange) : Watch :=
  let queue := watch.queue ++ [change]
  { watch with queue := if maxWatchQueue < queue.length then queue.drop 1 else queue }

/-- The key of the edge index: a source and a predicate. -/
abbrev EdgeKey := Uuid × String

instance : Ord EdgeKey := lexOrd

instance EdgeKey.instTransOrd : Std.TransOrd EdgeKey := inferInstance

structure Store where
  nextRevision : ℕ
  things : Std.ExtTreeMap Uuid (List GraphThing) compare
  edges : List GraphEdge
  kindIndex : Std.ExtTreeMap Symbol (Std.ExtTreeSet Uuid compare) compare
  edgesBySrcPred : Std.ExtTreeMap EdgeKey (List GraphEdge) compare
  watches : Std.ExtTreeMap WatchId Watch compare
  nextWatchId : WatchId
  /-- Ghost: how often `next_revision` was called. -/
  issued : ℕ
  /-- Ghost: the arguments `insert_thing` and `insert_edge` dropped. -/
  discarded : List GraphChange

namespace Store

def new : Store where
  nextRevision := 1
  things := ∅
  edges := []
  kindIndex := ∅
  edgesBySrcPred := ∅
  watches := ∅
  nextWatchId := 1
  issued := 0
  discarded := []

/-! ## Reading Things and edges -/

variable (s : Store)

/-- Every version of a Thing, oldest first; empty when there is none. -/
def versions (id : Uuid) : List GraphThing := s.things[id]?.getD []

def latest (id : Uuid) : Option GraphThing := s.things[id]?.bind List.getLast?

/-- The ids filed under a kind; empty when the kind has no entry. -/
def kindIds (kind : Symbol) : Std.ExtTreeSet Uuid compare := s.kindIndex[kind]?.getD ∅

def latestOfKind (kind : Symbol) : List GraphThing :=
  match s.kindIndex[kind]? with
  | none => []
  | some ids => ids.toList.filterMap s.latest

def edgesOf (src : Uuid) (pred : String) : List GraphEdge := s.edgesBySrcPred[(src, pred)]?.getD []

/-- The most recent edge between two Things under a predicate. -/
def edgeBetween (src : Uuid) (pred : String) (dst : Uuid) : Option GraphEdge :=
  s.edgesBySrcPred[(src, pred)]?.bind fun edges => edges.reverse.find? fun edge => edge.dst == dst

/-! ## Authority -/

/-- `bundle_node_id`: a bundle's node has the bundle's own id. -/
def bundleNodeId (bundle : BundleId) : Uuid := bundle

/-- An edge under the predicate's printed name runs from the bundle's node to the target. -/
def hasCapability (bundle : BundleId) (target : Uuid) (predicate : Symbol) : Bool :=
  match s.edgesBySrcPred[(bundleNodeId bundle, Canon.symbolToString predicate)]? with
  | some edges => edges.any fun e => e.dst == target
  | none => false

/-- `owns` is `has_capability` at `OWNS`; the source spells it out again. -/
def owns (s : Store) (bundle : BundleId) (node : Uuid) : Bool :=
  s.hasCapability bundle node Canon.owns

def canWrite (s : Store) (bundle : BundleId) (node : Uuid) : Bool :=
  bundle == kernelBundleId || s.owns bundle node || s.hasCapability bundle node Canon.canWrite

def canRead (s : Store) (bundle : BundleId) (node : Uuid) : Bool :=
  bundle == kernelBundleId || s.owns bundle node || s.hasCapability bundle node Canon.canRead
    || s.canWrite bundle node

/-- A `CAN_LINK` edge on either end permits the link, for one predicate when its `KIND` property
names one and for every predicate otherwise. -/
def canLink (s : Store) (bundle : BundleId) (src dst : Uuid) (kind : String) : Bool :=
  if bundle == kernelBundleId || s.owns bundle src || s.owns bundle dst then true
  else
    match s.edgesBySrcPred[(bundleNodeId bundle, Canon.symbolToString Canon.canLink)]? with
    | some edges => edges.any fun edge =>
        (edge.dst == src || edge.dst == dst) &&
          match edge.props[Canon.kind]? with
          | some (.symbol capKind) => Canon.symbolToString capKind == kind
          | _ => true
    | none => false

def isDataCapability (capability : String) : Bool :=
  ["CAN_READ", "CAN_WRITE", "CAN_LINK"].contains capability

def isHardwareCapability (capability : String) : Bool :=
  ["CAN_HANDLE_IRQ", "CAN_DMA", "CAN_MMIO", "CAN_PORT_IO"].contains capability

/-! ## Committing Things and edges -/

/-- `next_revision`: the revision handed out, and the store with its counter advanced. -/
def takeNextRevision : ℕ × Store :=
  (s.nextRevision,
    { s with nextRevision := (s.nextRevision + 1) % u64Size, issued := s.issued + 1 })

/-- Append a version and file it under its kind, unless the Thing already has a version of the same
or a later revision. -/
def insertThing (thing : GraphThing) : Store :=
  let versions := s.versions thing.id
  let shouldAdd := match versions.getLast? with
    | some prev => decide (prev.revision < thing.revision)
    | none => true
  if shouldAdd then
    { s with
      things := s.things.insert thing.id (versions ++ [thing])
      kindIndex := s.kindIndex.insert thing.kind ((s.kindIds thing.kind).insert thing.id) }
  else
    { s with discarded := s.discarded ++ [.thing thing] }

/-- Append an edge and index it, unless the last edge has the same or a later revision. -/
def insertEdge (edge : GraphEdge) : Store :=
  let shouldAdd := match s.edges.getLast? with
    | some prev => decide (prev.revision < edge.revision)
    | none => true
  if shouldAdd then
    { s with
      edges := s.edges ++ [edge]
      edgesBySrcPred :=
        s.edgesBySrcPred.insert (edge.src, edge.pred) (s.edgesOf edge.src edge.pred ++ [edge]) }
  else
    { s with discarded := s.discarded ++ [.edge edge] }

/-- The node the store makes for a bundle that has no Thing. -/
def bundleNode (bundle : BundleId) (revision : ℕ) : GraphThing where
  id := bundleNodeId bundle
  kind := Canon.bundle
  labels := (∅ : Std.ExtTreeSet Symbol compare).insert Canon.bundle
  fields := (∅ : Map).insert Canon.id (.uuid bundle)
  owner := bundle
  revision := revision

def ensureBundleNode (bundle : BundleId) : Store :=
  if (s.things[bundleNodeId bundle]?).isSome then s
  else
    let (revision, s) := s.takeNextRevision
    s.insertThing (bundleNode bundle revision)

variable (owner : BundleId)

/-- The properties of an edge the store makes itself. -/
def grantProps (node : Uuid) : Map :=
  ((∅ : Map).insert Canon.owner (.uuid owner)).insert Canon.dst (.uuid node)

/-- The edge that makes `owner` the owner of `node`. -/
def ownershipEdge (ext : Externs) (owner : BundleId) (node : Uuid) (revision : ℕ) : GraphEdge where
  id := deriveUuid ext (Canon.symbolToString Canon.owns).toUTF8.data.toList (grantProps owner node)
  src := bundleNodeId owner
  pred := Canon.symbolToString Canon.owns
  dst := node
  props := grantProps owner node
  owner := owner
  revision := revision

def addOwnershipEdge (ext : Externs) (s : Store) (owner : BundleId) (node : Uuid)
    (revision : ℕ) : Store :=
  s.insertEdge (ownershipEdge ext owner node revision)

/-! ## Watches -/

/-- Whether one entry of a pattern's properties is met. The edge, when there is one, answers for
`SRC`, `DST` and `PREDICATE` where the Thing's own fields do not. -/
def matchesProp (thing : GraphThing) (edge : Option GraphEdge) (k : Symbol) (v : Value) : Bool :=
  if thing.fields[k]? == some v then true
  else
    match edge with
    | none => false
    | some e =>
      if k == Canon.src && v == .uuid e.src then true
      else if k == Canon.dst && v == .uuid e.dst then true
      else if k == Canon.predicate then
        match v.asText with
        | some s => s == e.pred
        | none =>
          match v.asSymbol with
          | some sym => Canon.symbolToString sym == e.pred
          | none => false
      else false

def matchesPattern (pattern : NodePattern) (thing : GraphThing) (edge : Option GraphEdge) : Bool :=
  (pattern.labels.all fun label => thing.labels.contains label)
    && pattern.props.toList.all fun (k, v) => matchesProp thing edge k v

/-- The kinds whose Things every bundle's watches see. -/
def inputKinds : List Symbol :=
  [Canon.keyEvent, Canon.keyPressed, Canon.mouseMove, Canon.mouseButton, Canon.inputEvent]

def changeVisibleTo (bundle : BundleId) : GraphChange → Bool
  | .thing t =>
    t.labels.contains Canon.public_ || inputKinds.contains t.kind || s.canRead bundle t.id
  | .edge e => s.canRead bundle e.src || s.canRead bundle e.dst || e.owner == bundle

/-- One round of the loop in `notify_watches`. -/
def notifyWatch (change : GraphChange) (target : Option GraphThing) (edge : Option GraphEdge)
    (s : Store) (spec : WatchId × BundleId × NodePattern) : Store :=
  if !s.changeVisibleTo spec.2.1 change then s
  else
    match target with
    | none => s
    | some node =>
      if matchesPattern spec.2.2 node edge then
        match s.watches[spec.1]? with
        | some watch => { s with watches := s.watches.insert spec.1 (watch.push change) }
        | none => s
      else s

/-- The Thing a change is matched through: itself, or either end of an edge. -/
def changeTarget : GraphChange → Option GraphThing
  | .thing t => some t
  | .edge e => (s.latest e.src).or (s.latest e.dst)

def changeEdge : GraphChange → Option GraphEdge
  | .thing _ => none
  | .edge e => some e

def notifyWatches (change : GraphChange) : Store :=
  let specs := (mapValues s.watches).map fun w => (w.id, w.owner, w.pattern)
  specs.foldl (notifyWatch change (s.changeTarget change) (changeEdge change)) s

def registerWatchPattern (pattern : NodePattern) : Store × WatchId :=
  let id := s.nextWatchId
  ({ s with
      nextWatchId := (s.nextWatchId + 1) % u64Size
      watches := s.watches.insert id { id, owner, pattern, queue := [] } }, id)

/-- The pattern a query stands for. -/
def queryPattern (query : WatchQuery) : NodePattern where
  labels := query.kind.toList
  props :=
    let props : Map := match query.src with
      | some src => (∅ : Map).insert Canon.src (.uuid src)
      | none => ∅
    match query.dst with
    | some dst => props.insert Canon.dst (.uuid dst)
    | none => props

def registerWatch (query : WatchQuery) : Store × WatchId :=
  s.registerWatchPattern owner (queryPattern query)

/-- Hand out and clear a watch's queue. The caller is not consulted. -/
def pollWatch (id : WatchId) : Store × Option GraphWatchBatch :=
  match s.watches[id]? with
  | none => (s, none)
  | some watch =>
    if watch.queue.isEmpty then (s, none)
    else
      ({ s with watches := s.watches.insert id { watch with queue := [] } },
        some { fromRevision := 0, latestRevision := s.nextRevision, changes := watch.queue })

/-! ## Queries -/

/-- The most Things one call of `find_by_kind` returns. -/
def maxResults : ℕ := 100

/-- The loop of `find_by_kind` over the ids of a kind: `skipped` entries were passed over for the
cursor, `results` holds the `count` Things returned so far. The source counts in `i32`, which an
index of ids in the 32 MiB kernel heap cannot make wrap. -/
def findLoop (s : Store) (owner : BundleId) (cursor : ℕ) :
    List Uuid → (skipped count : ℕ) → List GraphThing → List GraphThing × ℕ
  | [], _, _, results => (results, 0)
  | uuid :: uuids, skipped, count, results =>
    if skipped < cursor then findLoop s owner cursor uuids (skipped + 1) count results
    else if maxResults ≤ count then (results, cursor + count)
    else
      match s.latest uuid with
      | some thing =>
        if !s.canRead owner thing.id then findLoop s owner cursor uuids skipped count results
        else findLoop s owner cursor uuids skipped (count + 1) (results ++ [thing])
      | none => findLoop s owner cursor uuids skipped count results

/-- One page of the Things filed under a kind, and the cursor of the next page, zero for none. -/
def findByKind (kind : String) (cursor : ℕ) : List GraphThing × ℕ :=
  match Canon.fromStr kind with
  | none => ([], 0)
  | some symbol =>
    match s.kindIndex[symbol]? with
    | none => ([], 0)
    | some uuids => findLoop s owner cursor uuids.toList 0 0 []

def getNodes (pattern : NodePattern) : List GraphThing :=
  ((mapValues s.things).filterMap List.getLast?).filter fun thing =>
    s.canRead owner thing.id && matchesPattern pattern thing none

def getProps (request : GraphPropsGetRequest) : Option Map :=
  match s.latest request.node with
  | none => none
  | some thing =>
    if !s.canRead owner thing.id then none
    else if request.keys.isEmpty then some thing.fields
    else
      some <| request.keys.foldl (fun out key =>
        match thing.fields[key]? with
        | some val => out.insert key val
        | none => out) ∅

/-- `changes_since` is a stub in the source. -/
def changesSince (revision : ℕ) : GraphWatchBatch where
  fromRevision := revision
  latestRevision := s.nextRevision - 1
  changes := []

/-! ## Snapshots -/

def snapshot : GraphSnapshot where
  revision := s.nextRevision - 1
  thingCount := ((mapValues s.kindIndex).map fun ids => ids.size).sum
  edgeCount := s.edges.length
  things := (mapValues s.things).flatten
  edges := s.edges

/-- The store with everything cleared that a snapshot fills again, and the watches. -/
def cleared : Store :=
  { s with things := ∅, edges := [], kindIndex := ∅, edgesBySrcPred := ∅, watches := ∅ }

def applySnapshot (snapshot : GraphSnapshot) : Store :=
  let s := snapshot.things.foldl insertThing s.cleared
  let s := snapshot.edges.foldl insertEdge s
  { s with nextRevision := min (snapshot.revision + 1) (u64Size - 1) }

/-! ## Property updates -/

/-- Overlay a request's properties on a Thing's fields, in key order. -/
def overlay (fields props : Map) : Map :=
  props.toList.foldl (fun fields (k, v) => fields.insert k v) fields

def setProps (request : GraphPropsRequest) : Store × Bool :=
  match s.latest request.node with
  | none => (s, false)
  | some current =>
    if !s.canWrite owner current.id then (s, false)
    else
      let (revision, s) := s.takeNextRevision
      let current := { current with fields := overlay current.fields request.props, revision }
      let s := s.insertThing current
      (s.notifyWatches (.thing current), true)

end Store

/-! ## The operations that write to the journal -/

/-- The two statics of `kernel/src/graph`: the store and the journal. -/
structure GraphState where
  store : Store
  journal : Journal

namespace GraphState

def new : GraphState := ⟨Store.new, Journal.new journalCapacity⟩

/-- The label set of a node request, `THING_CREATED` when it names none. -/
def nodeLabels (request : GraphNodeRequest) : Std.ExtTreeSet Symbol compare :=
  let labels := Std.ExtTreeSet.ofList request.labels compare
  if labels.isEmpty then labels.insert Canon.thingCreated else labels

/-- The kind of a node request is its smallest label. -/
def nodeKind (request : GraphNodeRequest) : Symbol :=
  (nodeLabels request).toList.head?.getD Canon.thingCreated

/-- The fields of a node request, with `OWNER` filled in when it is absent. -/
def nodeFields (owner : BundleId) (request : GraphNodeRequest) : Map :=
  request.props.insertIfNew Canon.owner (.uuid owner)

variable (ext : Externs)

/-- The id a node request declares: the one it names, else one derived from kind and fields. -/
def nodeId (owner : BundleId) (request : GraphNodeRequest) : Uuid :=
  request.id.getD (deriveUuid ext (nodeKind request).toBeBytes (nodeFields owner request))

def nodeThing (owner : BundleId) (request : GraphNodeRequest) (revision : ℕ) : GraphThing where
  id := nodeId ext owner request
  kind := nodeKind request
  labels := nodeLabels request
  fields := nodeFields owner request
  owner := owner
  revision := revision

/-- Declare a Thing. Nothing is asked about a Thing that already has the id. -/
def fiatNode (now : ℕ) (g : GraphState) (owner : BundleId) (request : GraphNodeRequest) :
    GraphState × GraphThing :=
  let s := g.store.ensureBundleNode owner
  let (revision, s) := s.takeNextRevision
  let thing := nodeThing ext owner request revision
  let s := s.insertThing thing
  let s := Store.addOwnershipEdge ext s owner thing.id revision
  let s := s.notifyWatches (.thing thing)
  (⟨s, g.journal.emitThingEvent now thing⟩, thing)

/-- The node request of a `fiat`; its own label list is not used. -/
def fiatNodeRequest (request : GraphFiatRequest) : GraphNodeRequest where
  id := request.id
  labels := ((∅ : Std.ExtTreeSet Symbol compare).insert request.kind).toList
  props := request.fields

def fiat (now : ℕ) (g : GraphState) (owner : BundleId) (request : GraphFiatRequest) :
    GraphState × GraphThing :=
  fiatNode ext now g owner (fiatNodeRequest request)

def linkRequestEdge (owner : BundleId) (request : GraphLinkRequest) (revision : ℕ) : GraphEdge where
  id := request.id.getD (deriveUuid ext request.pred.toUTF8.data.toList request.props)
  src := request.from_
  pred := request.pred
  dst := request.to_
  props := request.props
  owner := owner
  revision := revision

def linkEdge (now : ℕ) (g : GraphState) (owner : BundleId) (request : GraphLinkRequest) :
    GraphState × ℕ :=
  if !g.store.canLink owner request.from_ request.to_ request.pred then (g, 0)
  else
    match g.store.edgeBetween request.from_ request.pred request.to_ with
    | some existing => (g, existing.revision)
    | none =>
      let (revision, s) := g.store.takeNextRevision
      let edge := linkRequestEdge ext owner request revision
      let s := s.insertEdge edge
      let s := s.notifyWatches (.edge edge)
      (⟨s, g.journal.emitEdgeEvent now edge⟩, revision)

/-- The link request of a `that`; the revision hint is not used. -/
def thatLinkRequest (request : GraphThatRequest) : GraphLinkRequest where
  id := none
  pred := request.pred
  from_ := request.src
  to_ := request.dst
  props := request.props

def grantEdge (grantor : BundleId) (request : GrantCapabilityRequest) (revision : ℕ) :
    GraphEdge where
  id := deriveUuid ext request.capability.toUTF8.data.toList
    (Store.grantProps grantor request.target)
  src := Store.bundleNodeId request.grantee
  pred := request.capability
  dst := request.target
  props := Store.grantProps grantor request.target
  owner := grantor
  revision := revision

/-- Whether the delegation policy lets the grantor grant: hardware capabilities only the kernel,
data capabilities the kernel and the owner of the target. -/
def canGrant (s : Store) (grantor : BundleId) (request : GrantCapabilityRequest) : Bool :=
  if Store.isHardwareCapability request.capability then grantor == kernelBundleId
  else grantor == kernelBundleId || s.owns grantor request.target

def grantCapability (now : ℕ) (g : GraphState) (grantor : BundleId)
    (request : GrantCapabilityRequest) : GraphState × Bool :=
  if !Store.isDataCapability request.capability
      && !Store.isHardwareCapability request.capability then (g, false)
  else if !canGrant g.store grantor request then (g, false)
  else
    let s := g.store.ensureBundleNode request.grantee
    let (revision, s) := s.takeNextRevision
    let edge := grantEdge ext grantor request revision
    let s := s.insertEdge edge
    let s := s.notifyWatches (.edge edge)
    (⟨s, g.journal.emitEdgeEvent now edge⟩, true)

end GraphState

end ThingOS
