import ThingOS.Abi.Graph
import ThingOS.Common.Postcard
import ThingOS.Common.Sha1

/-!
# Serialised values

What `postcard::to_allocvec` writes for a `Value`, for a map of fields and for a batch of changes.
Enumerations are written as the index of their variant, a UUID as a byte string, a sequence as its
length and its items, a map as its length and its entries in key order, a record as its fields.
-/

namespace ThingOS

open Postcard

/-- A `Symbol` is written as its number. -/
def encodeSymbol (s : Symbol) : List UInt8 := varint maxU32 s.toNat

/-- A UUID is written as a byte string. -/
def encodeUuid (id : Uuid) : List UInt8 := bytes (Sha1.toBytes 16 id.toNat)

def encodeString (s : String) : List UInt8 := bytes s.toUTF8.data.toList

mutual

def encodeValue : Value → List UInt8
  | .null => [0]
  | .bool b => [1, if b then 1 else 0]
  | .u64 n => 2 :: varint maxU64 n
  | .i64 n => 3 :: varint maxU64 (zigzag n)
  | .bytes b => 4 :: bytes b
  | .symbol s => 5 :: encodeSymbol s
  | .uuid id => 6 :: encodeUuid id
  | .text s => 7 :: encodeString s
  | .map m => 8 :: varint maxU64 m.length ++ encodeEntries m
  | .list l => 9 :: varint maxU64 l.length ++ encodeList l
  | .blob b => 10 :: bytes b

def encodeEntries : List (Symbol × Value) → List UInt8
  | [] => []
  | (k, v) :: m => encodeSymbol k ++ encodeValue v ++ encodeEntries m

def encodeList : List Value → List UInt8
  | [] => []
  | v :: l => encodeValue v ++ encodeList l

end

def encodeMap (m : Map) : List UInt8 :=
  varint maxU64 m.size ++ encodeEntries m.toList

def encodeThing (t : GraphThing) : List UInt8 :=
  encodeUuid t.id ++ encodeSymbol t.kind
    ++ varint maxU64 t.labels.size ++ t.labels.toList.flatMap encodeSymbol
    ++ encodeMap t.fields ++ encodeUuid t.owner ++ varint maxU64 t.revision

def encodeEdge (e : GraphEdge) : List UInt8 :=
  encodeUuid e.id ++ encodeUuid e.src ++ encodeString e.pred ++ encodeUuid e.dst
    ++ encodeMap e.props ++ encodeUuid e.owner ++ varint maxU64 e.revision

def encodeChange : GraphChange → List UInt8
  | .thing t => 0 :: encodeThing t
  | .edge e => 1 :: encodeEdge e

def encodeBatch (batch : GraphWatchBatch) : List UInt8 :=
  varint maxU64 batch.fromRevision
    ++ varint maxU64 batch.latestRevision
    ++ varint maxU64 batch.changes.length ++ batch.changes.flatMap encodeChange

end ThingOS
