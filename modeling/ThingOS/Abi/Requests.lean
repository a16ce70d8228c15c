import ThingOS.Abi.Decoding

/-!
# Serialised requests and replies

The requests that a client writes for the kernel and the replies it reads. A request that the kernel
reads as the type it was written as arrives as it was sent.
-/

namespace ThingOS

open Postcard

open Postcard (Reader Reads)

variable {α : Type} {r : Reader α} {encode : α → List UInt8}

/-- `postcard::from_bytes`: what follows the value is ignored. -/
def fromBytes (r : Reader α) (bs : List UInt8) : Option α := (r bs).map Prod.fst

/-- What a reader reads is what `from_bytes` returns. -/
lemma fromBytes_of_reads {bs : List UInt8} {a : α} (h : Reads r bs a) :
    fromBytes r bs = some a := by
  rw [fromBytes, h.run]
  rfl

def encodeOption (encode : α → List UInt8) : Option α → List UInt8
  | none => [0]
  | some a => 1 :: encode a

lemma reads_option {o : Option α} (h : ∀ a ∈ o, Reads r (encode a) a) :
    Reads (option r) (encodeOption encode o) o := by
  cases o with
  | none => exact (reads_byte 0).bind (Reads.pure none)
  | some a => exact (reads_byte 1).bind (h a rfl).map

/-- A sequence is written as its length and its items. -/
def encodeSeq (encode : α → List UInt8) (l : List α) : List UInt8 :=
  varint maxU64 l.length ++ l.flatMap encode

def readSeq (r : Reader α) : Reader (List α) := do
  let n ← u64
  many r n

lemma reads_seq {l : List α} (hlen : l.length < 2 ^ 64) (h : ∀ a ∈ l, Reads r (encode a) a) :
    Reads (readSeq r) (encodeSeq encode l) l :=
  (reads_u64 hlen).bind (reads_many h)

/-! ## Requests -/

def encodeFiatRequest (request : GraphFiatRequest) : List UInt8 :=
  encodeOption encodeUuid request.id ++ (encodeSymbol request.kind
    ++ (encodeSeq encodeSymbol request.labels ++ encodeMap request.fields))

def readFiatRequest : Reader GraphFiatRequest := do
  let id ← option readUuid
  let kind ← readSymbol
  let labels ← readSeq readSymbol
  let fields ← readMap
  return { id, kind, labels, fields }

structure GraphFiatRequest.WellFormed (request : GraphFiatRequest) : Prop where
  labels : request.labels.length < 2 ^ 64
  fields : Map.WellFormed request.fields

/-- A declaration is read back. -/
lemma reads_fiatRequest {request : GraphFiatRequest} (h : request.WellFormed) :
    Reads readFiatRequest (encodeFiatRequest request) request :=
  (reads_option fun id _ => reads_uuid id).bind ((reads_symbol request.kind).bind
    ((reads_seq h.labels fun s _ => reads_symbol s).bind (reads_map h.fields).map))

def encodeThatRequest (request : GraphThatRequest) : List UInt8 :=
  encodeUuid request.src ++ (encodeString request.pred ++ (encodeUuid request.dst
    ++ (varint maxU64 request.revisionHint ++ encodeMap request.props)))

def encodeLinkRequest (request : GraphLinkRequest) : List UInt8 :=
  encodeOption encodeUuid request.id ++ (encodeString request.pred ++ (encodeUuid request.from_
    ++ (encodeUuid request.to_ ++ encodeMap request.props)))

def readLinkRequest : Reader GraphLinkRequest := do
  let id ← option readUuid
  let pred ← string
  let from_ ← readUuid
  let to_ ← readUuid
  let props ← readMap
  return { id, pred, from_, to_, props }

def encodePattern (p : NodePattern) : List UInt8 :=
  encodeSeq encodeSymbol p.labels ++ encodeMap p.props

def readPattern : Reader NodePattern := do
  let labels ← readSeq readSymbol
  let props ← readMap
  return { labels, props }

structure NodePattern.WellFormed (p : NodePattern) : Prop where
  labels : p.labels.length < 2 ^ 64
  props : Map.WellFormed p.props

/-- A pattern is read back. -/
lemma reads_pattern {p : NodePattern} (h : p.WellFormed) :
    Reads readPattern (encodePattern p) p :=
  (reads_seq h.labels fun s _ => reads_symbol s).bind (reads_map h.props).map

def encodeGetRequest : GraphGetRequest → List UInt8
  | .thing id => 0 :: encodeUuid id
  | .pattern p => 1 :: encodePattern p

def readGetRequest : Reader GraphGetRequest := do
  match ← u32 with
  | 0 => .thing <$> readUuid
  | 1 => .pattern <$> readPattern
  | _ => fail

lemma reads_getThing (id : Uuid) :
    Reads readGetRequest (encodeGetRequest (.thing id)) (.thing id) :=
  (reads_tag (t := 0) (by decide)).bind (reads_uuid id).map

lemma reads_getPattern {p : NodePattern} (h : p.WellFormed) :
    Reads readGetRequest (encodeGetRequest (.pattern p)) (.pattern p) :=
  (reads_tag (t := 1) (by decide)).bind (reads_pattern h).map

def encodePropsGetRequest (request : GraphPropsGetRequest) : List UInt8 :=
  encodeUuid request.node ++ encodeSeq encodeSymbol request.keys

def readPropsGetRequest : Reader GraphPropsGetRequest := do
  let node ← readUuid
  let keys ← readSeq readSymbol
  return { node, keys }

/-- A request for properties is read back. -/
lemma reads_propsGetRequest {request : GraphPropsGetRequest}
    (h : request.keys.length < 2 ^ 64) :
    Reads readPropsGetRequest (encodePropsGetRequest request) request :=
  (reads_uuid request.node).bind (reads_seq h fun s _ => reads_symbol s).map

/-! ## Replies -/

def readChange : Reader GraphChange := do
  match ← u32 with
  | 0 => .thing <$> readThing
  | 1 => .edge <$> readEdge
  | _ => fail

def GraphChange.WellFormed : GraphChange → Prop
  | .thing t => t.WellFormed
  | .edge e => e.WellFormed

/-- A change is read back. -/
lemma reads_change {change : GraphChange} (h : change.WellFormed) :
    Reads readChange (encodeChange change) change := by
  cases change with
  | thing t =>
    rw [encodeChange, ← List.singleton_append]
    exact (reads_tag (t := 0) (by decide)).bind (reads_thing h).map
  | edge e =>
    rw [encodeChange, ← List.singleton_append]
    exact (reads_tag (t := 1) (by decide)).bind (reads_edge h).map

def readBatch : Reader GraphWatchBatch := do
  let fromRevision ← u64
  let latestRevision ← u64
  let changes ← readSeq readChange
  return { fromRevision, latestRevision, changes }

structure GraphWatchBatch.WellFormed (batch : GraphWatchBatch) : Prop where
  fromRevision : batch.fromRevision < 2 ^ 64
  latestRevision : batch.latestRevision < 2 ^ 64
  length : batch.changes.length < 2 ^ 64
  changes : ∀ change ∈ batch.changes, change.WellFormed

/-- A batch of changes is read back. -/
lemma reads_batch {batch : GraphWatchBatch} (h : batch.WellFormed) :
    Reads readBatch (encodeBatch batch) batch := by
  unfold encodeBatch
  simp only [List.append_assoc]
  exact (reads_u64 h.fromRevision).bind ((reads_u64 h.latestRevision).bind
    (reads_seq h.length fun change hchange => reads_change (h.changes change hchange)).map)

/-- `GraphFindResultHeader`, in front of the Things of a page. -/
structure GraphFindResultHeader where
  nextCursor : ℕ
  count : ℕ

def encodeHeader (header : GraphFindResultHeader) : List UInt8 :=
  varint maxU64 header.nextCursor ++ varint maxU32 header.count

def readHeader : Reader GraphFindResultHeader := do
  let nextCursor ← u64
  let count ← u32
  return { nextCursor, count }

/-- The header of a page is read back. -/
lemma reads_header {header : GraphFindResultHeader} (hnext : header.nextCursor < 2 ^ 64)
    (hcount : header.count < 2 ^ 32) : Reads readHeader (encodeHeader header) header :=
  (reads_u64 hnext).bind (reads_u32 hcount).map

end ThingOS
