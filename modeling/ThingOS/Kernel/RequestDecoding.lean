import ThingOS.Kernel.GraphCalls
import ThingOS.Kernel.Graph.Watches

/-!
# Requests that can be read in two ways

`watch_register` takes the payload for a `NodePattern` if it can, and only else for a `WatchQuery`;
`graph_get` takes it for a `GraphGetRequest` if it can, and only else for the bytes of an id.
`postcard` ignores what follows a value, and no value says what type it is of.

A query without ends is the pattern it means. One with a destination only is read as a pattern
without properties. One with a source is read as a pattern with one property, whose key is the
length of the source and whose value stands in its bytes, if there is one.
-/

namespace ThingOS

open Store Postcard Option Std.ExtTreeMap

open Postcard (Reader Reads)

/-! ## The system call -/

def encodeWatchQuery (query : WatchQuery) : List UInt8 :=
  encodeOption encodeSymbol query.kind
    ++ (encodeOption encodeUuid query.src ++ encodeOption encodeUuid query.dst)

def readWatchQuery : Reader WatchQuery := do
  let kind ← option readSymbol
  let src ← option readUuid
  let dst ← option readUuid
  return { kind, src, dst }

lemma reads_watchQuery (query : WatchQuery) :
    Reads readWatchQuery (encodeWatchQuery query) query :=
  (reads_option fun s _ => reads_symbol s).bind
    ((reads_option fun id _ => reads_uuid id).bind (reads_option fun id _ => reads_uuid id).map)

def watchRegister (s : Store) (bundle : BundleId) (payload : List UInt8) : Store × ℕ :=
  match fromBytes readPattern payload with
  | some pattern => s.registerWatchPattern bundle pattern
  | none =>
    match fromBytes readWatchQuery payload with
    | none => (s, syscallFailed)
    | some query => s.registerWatch bundle query

/-! ## A query read as a pattern -/

def uuidBytes (id : Uuid) : List UInt8 := Sha1.toBytes 16 id.toNat

/-- The kind of a query is read as the labels of a pattern. -/
lemma reads_kind_as_labels (kind : Option Symbol) :
    Reads (readSeq readSymbol) (encodeOption encodeSymbol kind) kind.toList := by
  have hseq : encodeOption encodeSymbol kind = encodeSeq encodeSymbol kind.toList := by
    cases kind with
    | none => rfl
    | some k => exact (congrArg (1 :: ·) (List.flatMap_singleton encodeSymbol k)).symm
  rw [hseq]
  refine reads_seq ?_ fun s _ => reads_symbol s
  exact (length_toList_le).trans_lt (by decide)

lemma readMap_zero (rest : List UInt8) : readMap (0 :: rest) = some (∅, rest) := by
  have h : Reads readMap (encodeMap ∅) ∅ := reads_map ⟨by decide, by simp⟩
  exact h rest

/-- A source is read as one property, with its length as the key. -/
lemma readMap_some_uuid (id : Uuid) (rest : List UInt8) :
    readMap (encodeOption encodeUuid (some id) ++ rest)
      = (readValue (uuidBytes id ++ rest)).map fun r =>
        (ofList [(16#32, r.1)] compare, r.2) := by
  have hone : Reads u64 [1] 1 := reads_u64 (n := 1) (by decide)
  have hkey : Reads readSymbol [16] 16#32 := reads_symbol 16#32
  have hbytes : encodeOption encodeUuid (some id) ++ rest
      = [1] ++ ([16] ++ (uuidBytes id ++ rest)) := by
    rw [encodeOption, encodeUuid, bytes, length_toBytes]
    rfl
  have hentry : readEntry readValue ([16] ++ (uuidBytes id ++ rest))
      = (readValue (uuidBytes id ++ rest)).map fun r => ((16#32, r.1), r.2) := by
    rw [readEntry, hkey.bind_apply]
    show (readValue (uuidBytes id ++ rest)).bind _ = _
    cases readValue (uuidBytes id ++ rest) <;> rfl
  rw [hbytes, readMap, hone.bind_apply, many]
  simp only [bind, StateT.bind, hentry]
  cases readValue (uuidBytes id ++ rest) <;> rfl

/-- How `watch_register` reads a query as a pattern. -/
lemma fromBytes_readPattern_query (query : WatchQuery) :
    fromBytes readPattern (encodeWatchQuery query)
      = match query.src with
        | none => some ⟨query.kind.toList, ∅⟩
        | some src =>
          (readValue (uuidBytes src ++ encodeOption encodeUuid query.dst)).map fun r =>
            ⟨query.kind.toList, ofList [(16#32, r.1)] compare⟩ := by
  rw [fromBytes, encodeWatchQuery, readPattern, (reads_kind_as_labels query.kind).bind_apply]
  cases hsrc : query.src with
  | none =>
    simp only [bind, StateT.bind, encodeOption, List.singleton_append, readMap_zero]
    rfl
  | some src =>
    simp only [bind, StateT.bind, readMap_some_uuid]
    cases readValue (uuidBytes src ++ encodeOption encodeUuid query.dst) <;> rfl

/-- The query has no ends; or it has a source, and the bytes of the source and what follows them
cannot be read as a value. -/
def WatchQuery.Unambiguous (query : WatchQuery) : Prop :=
  match query.src with
  | none => query.dst = none
  | some src => readValue (uuidBytes src ++ encodeOption encodeUuid query.dst) = none

lemma registerWatchPattern_inj {s : Store} {bundle : BundleId} {p q : NodePattern} :
    s.registerWatchPattern bundle p = s.registerWatchPattern bundle q ↔ p = q := by
  refine ⟨fun h => ?_, fun h => by rw [h]⟩
  have hwatch := congrArg (fun r => r.1.watches[s.nextWatchId]?) h
  simp only [getElem?_registerWatchPattern, if_true, Option.some.injEq,
    Watch.mk.injEq] at hwatch
  exact hwatch.2.2.1

/-- A query is registered as the pattern it means exactly if it is unambiguous. -/
lemma watchRegister_query_iff (s : Store) (bundle : BundleId) (query : WatchQuery) :
    watchRegister s bundle (encodeWatchQuery query) = s.registerWatch bundle query
      ↔ query.Unambiguous := by
  have hquery : fromBytes readWatchQuery (encodeWatchQuery query) = some query :=
    fromBytes_of_reads (reads_watchQuery query)
  have hpattern := fromBytes_readPattern_query query
  unfold watchRegister WatchQuery.Unambiguous
  cases hsrc : query.src with
  | none =>
    simp only [hsrc] at hpattern
    simp only [hpattern, registerWatch, registerWatchPattern_inj, queryPattern, hsrc]
    cases query.dst with
    | none => simp
    | some dst =>
      simp only [NodePattern.mk.injEq, true_and, reduceCtorEq, iff_false]
      intro h
      have hlookup := congrArg (fun m : Map => m[Canon.dst]?) h
      simp at hlookup
  | some src =>
    simp only [hsrc] at hpattern
    cases hvalue : readValue (uuidBytes src ++ encodeOption encodeUuid query.dst) with
    | none =>
      rw [hvalue, map_none] at hpattern
      simp only [hpattern, hquery]
      exact iff_of_true trivial hvalue
    | some r =>
      rw [hvalue, map_some] at hpattern
      simp only [hpattern, registerWatch, registerWatchPattern_inj]
      refine iff_of_false (fun h => ?_) (by simp [hvalue])
      -- The pattern that is meant has the source as a property, the one that was read has not.
      have hread : (ofList [(16#32, r.1)] compare : Map)[Canon.src]? = none :=
        getElem?_ofList_of_contains_eq_false
          (show [16#32].contains Canon.src = false by decide)
      have hmeant : (queryPattern query).props[Canon.src]? = some (.uuid src) := by
        simp only [queryPattern, hsrc]
        cases query.dst with
        | none => exact getElem?_insert_self
        | some dst =>
          rw [getElem?_insert_of_ne (by decide)]
          exact getElem?_insert_self
      rw [← h, hread] at hmeant
      cases hmeant

/-! ## An id read as a request -/

/-- The first number in the bytes of the id is not that of the variant with a pattern, or what
follows it cannot be read as one. -/
def UnambiguousId (id : Uuid) : Prop :=
  ∀ rest, u32 (uuidBytes id) = some (1, rest) → fromBytes readPattern rest = none

lemma fromBytes_readGetRequest_eq_bind (bytes : List UInt8) :
    fromBytes readGetRequest bytes
      = ((u32 bytes).bind fun p =>
          (match p.1 with
            | 0 => GraphGetRequest.thing <$> readUuid
            | 1 => .pattern <$> readPattern
            | _ => fail) p.2).map Prod.fst := rfl

/-- Sixteen bytes are not enough for the variant with an id. -/
lemma fromBytes_readGetRequest_id (id : Uuid) :
    fromBytes readGetRequest (uuidBytes id)
      = match u32 (uuidBytes id) with
        | some (1, rest) => (fromBytes readPattern rest).map .pattern
        | _ => none := by
  have hlen : (uuidBytes id).length = 16 := length_toBytes 16 id.toNat
  rw [fromBytes_readGetRequest_eq_bind]
  cases htag : u32 (uuidBytes id) with
  | none => rfl
  | some p =>
    obtain ⟨tag, rest⟩ := p
    have hrest := length_lt_of_varintFrom htag
    rw [bind_some]
    rcases tag with _ | _ | tag
    · have hnone : readUuid rest = none := by
        rw [eq_none_iff_forall_ne_some]
        intro r hr
        obtain ⟨⟨taken, behind⟩, htaken, hid⟩ := bind_eq_some_iff.mp
          (show (byteString rest).bind (fun p => (if p.1.length = 16 then
            pure (BitVec.ofNat 128 (Sha1.ofBytes p.1)) else fail : Reader Uuid) p.2)
              = some r from hr)
        have hless := length_lt_of_byteString htaken
        have hshort : taken.length ≠ 16 := by omega
        rw [if_neg hshort] at hid
        cases hid
      simp only [Functor.map, StateT.map, hnone]
      rfl
    · simp only [Functor.map, StateT.map, fromBytes]
      cases readPattern rest <;> rfl
    · rfl

/-- The bytes of an id are looked up as the id exactly if it is unambiguous. -/
lemma graphGet_id_iff (id : Uuid) :
    (∀ s bundle, graphGet s bundle (uuidBytes id) = exportThingBytes s bundle id)
      ↔ UnambiguousId id := by
  have hlen : (uuidBytes id).length = 16 := length_toBytes 16 id.toNat
  have hrequest := fromBytes_readGetRequest_id id
  have hraw : fromBytes readGetRequest (uuidBytes id) = none →
      readGraphGet (uuidBytes id) = some (.thing id) := by
    intro hnone
    simp only [readGraphGet, hnone, hlen, if_true]
    rw [uuidBytes, ofBytes_toBytes_uuid]
  constructor
  · intro hlookup rest hrest
    rw [hrest] at hrequest
    rw [eq_none_iff_forall_ne_some]
    intro p hp
    -- In an empty store the pattern finds nothing, which is an answer, and the id fails.
    have hempty := hlookup new kernelBundleId
    simp only [graphGet, readGraphGet, hrequest, hp, map_some] at hempty
    simp [exportThingBytes, new, latest] at hempty
  · intro hid s bundle
    have hnone : fromBytes readGetRequest (uuidBytes id) = none := by
      rw [hrequest]
      split
      case h_1 rest hrest => rw [hid rest hrest, map_none]
      case h_2 => rfl
    rw [graphGet, hraw hnone]

/-- Both calls take a request for what it is exactly if it is unambiguous. -/
theorem request_decoding_iff (s : Store) (bundle : BundleId) (query : WatchQuery) (id : Uuid) :
    (watchRegister s bundle (encodeWatchQuery query) = s.registerWatch bundle query
        ↔ query.Unambiguous)
      ∧ ((∀ s bundle, graphGet s bundle (uuidBytes id) = exportThingBytes s bundle id)
        ↔ UnambiguousId id) :=
  ⟨watchRegister_query_iff s bundle query, graphGet_id_iff id⟩

/-- A query for a destination is registered as the pattern of everything, and the id whose first
byte is 1 and whose others are 0 asks for all Things. -/
theorem request_misread :
    watchRegister new kernelBundleId (encodeWatchQuery ⟨none, none, some 5#128⟩)
        = new.registerWatchPattern kernelBundleId ⟨[], ∅⟩
      ∧ watchRegister new kernelBundleId (encodeWatchQuery ⟨none, none, some 5#128⟩)
        ≠ new.registerWatch kernelBundleId ⟨none, none, some 5#128⟩
      ∧ graphGet new kernelBundleId (uuidBytes (1#128 <<< 120)) = some [0]
      ∧ exportThingBytes new kernelBundleId (1#128 <<< 120) = none := by
  refine ⟨rfl, ?_, by decide +kernel, by decide +kernel⟩
  rw [Ne, watchRegister_query_iff]
  simp [WatchQuery.Unambiguous]

end ThingOS
