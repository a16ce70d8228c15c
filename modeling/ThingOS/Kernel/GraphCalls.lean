import ThingOS.Kernel.Graph.FindByKind
import ThingOS.Kernel.Syscall

/-!
# The graph system calls

`graph_fiat`, `graph_link`, `graph_get`, `graph_get_props` and the reply of `graph_find_by_kind`,
from `kernel/src/arch/x86_64/syscall.rs` and `kernel/src/graph/api.rs`. The request is the bytes of
a range that `validate_user_slice` let through. A call answers with the bytes it gives to
`copy_out_slice`, if any; no bytes stand for the answer `!0`.

A reply is read back as it was written when its values are those of the Rust types: `Store.Typed`.
-/

namespace ThingOS

open GraphState Std.ExtTreeMap
open Postcard (Reads)

/-! ## The calls -/

def graphFiat (ext : Externs) (now : ℕ) (g : GraphState) (bundle : BundleId)
    (payload : List UInt8) : GraphState × ℕ :=
  match fromBytes readFiatRequest payload with
  | none => (g, syscallFailed)
  | some request =>
    let (g, thing) := fiat ext now g bundle request
    (g, thing.revision)

def graphLink (ext : Externs) (now : ℕ) (g : GraphState) (bundle : BundleId)
    (payload : List UInt8) : GraphState × ℕ :=
  match fromBytes readLinkRequest payload with
  | none => (g, syscallFailed)
  | some request => linkEdge ext now g bundle request

def exportThingBytes (s : Store) (owner : BundleId) (id : Uuid) : Option (List UInt8) :=
  if !s.canRead owner id then none else (s.latest id).map encodeThing

/-- The request of `graph_get`: a serialised one, else the sixteen bytes of an id. -/
def readGraphGet (payload : List UInt8) : Option GraphGetRequest :=
  match fromBytes readGetRequest payload with
  | some request => some request
  | none =>
    if payload.length = 16 then some (.thing (BitVec.ofNat 128 (Sha1.ofBytes payload))) else none

def graphGet (s : Store) (bundle : BundleId) (payload : List UInt8) : Option (List UInt8) :=
  match readGraphGet payload with
  | none => none
  | some (.thing id) => exportThingBytes s bundle id
  | some (.pattern p) => some (encodeSeq encodeThing (s.getNodes bundle p))

def graphGetProps (s : Store) (bundle : BundleId) (payload : List UInt8) : Option (List UInt8) :=
  match fromBytes readPropsGetRequest payload with
  | none => none
  | some request => (s.getProps bundle request).map encodeMap

/-- `export_find_by_kind_bytes`, for the page that `find_by_kind` returned. -/
def exportFindByKindBytes (things : List GraphThing) (next : ℕ) : List UInt8 :=
  encodeHeader ⟨next, things.length % 2 ^ 32⟩ ++ things.flatMap encodeThing

/-! ## Requests that arrive -/

/-- An encoded declaration is carried out, and answered with its revision. -/
lemma graphFiat_eq (ext : Externs) (now : ℕ) (g : GraphState) (bundle : BundleId)
    {request : GraphFiatRequest} (h : request.WellFormed) :
    graphFiat ext now g bundle (encodeFiatRequest request)
      = ((fiat ext now g bundle request).1, (fiat ext now g bundle request).2.revision) := by
  rw [graphFiat, fromBytes_of_reads (reads_fiatRequest h)]

/-- A request for a Thing is answered with the Thing. -/
lemma graphGet_thing (s : Store) (bundle : BundleId) (id : Uuid) :
    graphGet s bundle (encodeGetRequest (.thing id)) = exportThingBytes s bundle id := by
  rw [graphGet, readGraphGet, fromBytes_of_reads (reads_getThing id)]

/-- A request for a pattern is answered with what matches it. -/
lemma graphGet_pattern (s : Store) (bundle : BundleId) {p : NodePattern} (h : p.WellFormed) :
    graphGet s bundle (encodeGetRequest (.pattern p))
      = some (encodeSeq encodeThing (s.getNodes bundle p)) := by
  rw [graphGet, readGraphGet, fromBytes_of_reads (reads_getPattern h)]

/-- A request for properties is answered with those the bundle may read. -/
lemma graphGetProps_eq (s : Store) (bundle : BundleId) {request : GraphPropsGetRequest}
    (h : request.keys.length < 2 ^ 64) :
    graphGetProps s bundle (encodePropsGetRequest request)
      = (s.getProps bundle request).map encodeMap := by
  rw [graphGetProps, fromBytes_of_reads (reads_propsGetRequest h)]

/-! ## Replies that can be read back -/

/-- There are fewer symbols than a length can count. -/
lemma Map.size_lt (m : Map) : m.size < 2 ^ 64 := by
  have hcard : Fintype.card (BitVec 32) = 2 ^ 32 := by
    rw [Fintype.card_congr BitVec.equivFin.toEquiv, Fintype.card_fin]
  have hle := List.Nodup.length_le_card (nodup_keys (t := m))
  rw [length_keys, hcard] at hle
  exact hle.trans_lt (by decide)

lemma Map.wellFormed_iff (m : Map) :
    Map.WellFormed m ↔ ∀ (k : Symbol) (v : Value), m[k]? = some v → v.WellFormed := by
  constructor
  · intro h k v hkv
    exact h.values (k, v) (mem_toList_iff_getElem?_eq_some.mpr hkv)
  · intro h
    refine ⟨m.size_lt, fun entry hentry => h entry.1 entry.2 ?_⟩
    exact mem_toList_iff_getElem?_eq_some.mp hentry

namespace Store

/-- The numbers and lengths in the store are those that the Rust types have. -/
structure Typed (s : Store) : Prop where
  latest : ∀ id, ∀ thing ∈ s.latest id, thing.WellFormed
  things : s.things.size < 2 ^ 64
  kinds : ∀ k, (s.kindIds k).size < 2 ^ 64
  nextRevision : s.nextRevision < 2 ^ 64
  queues : ∀ (id : WatchId) watch, s.watches[id]? = some watch →
    watch.queue.length < 2 ^ 64 ∧ ∀ change ∈ watch.queue, change.WellFormed

variable {s : Store} {bundle : BundleId}

lemma mem_getNodes {p : NodePattern} {thing : GraphThing} (h : thing ∈ s.getNodes bundle p) :
    ∃ id, s.latest id = some thing := by
  obtain ⟨hthing, -⟩ := List.mem_filter.mp h
  obtain ⟨versions, hversions, hlast⟩ := List.mem_filterMap.mp hthing
  obtain ⟨entry, hentry, rfl⟩ := List.mem_map.mp hversions
  have hfiled := mem_toList_iff_getElem?_eq_some.mp hentry
  exact ⟨entry.1, by rw [latest_eq_getLast?, Store.versions, hfiled, Option.getD_some, hlast]⟩

lemma length_getNodes_le (s : Store) (bundle : BundleId) (p : NodePattern) :
    (s.getNodes bundle p).length ≤ s.things.size := by
  refine (List.length_filter_le _ _).trans ((List.length_filterMap_le _ _).trans ?_)
  rw [mapValues, List.length_map, length_toList]

/-- The answer to a pattern is read back. -/
lemma Typed.reads_getNodes (h : s.Typed) (p : NodePattern) :
    Reads (readSeq ThingOS.readThing) (encodeSeq encodeThing (s.getNodes bundle p))
      (s.getNodes bundle p) := by
  refine reads_seq ((s.length_getNodes_le bundle p).trans_lt h.things) fun thing hthing => ?_
  obtain ⟨id, hid⟩ := mem_getNodes hthing
  exact reads_thing (h.latest id thing hid)

lemma Typed.wellFormed_getProps (h : s.Typed) {request : GraphPropsGetRequest} {props : Map}
    (hprops : s.getProps bundle request = some props) : Map.WellFormed props := by
  unfold getProps at hprops
  cases hlatest : s.latest request.node with
  | none => simp [hlatest] at hprops
  | some thing =>
    simp only [hlatest] at hprops
    have hfields := (h.latest _ thing hlatest).fields
    split at hprops
    · cases hprops
    · split at hprops
      · cases hprops
        exact hfields
      · cases hprops
        rw [Map.wellFormed_iff] at hfields
        -- each key adds one of the Thing's own values
        refine List.foldlRecOn (motive := Map.WellFormed) _ _ ?_ fun out hout key _ => ?_
        · rw [Map.wellFormed_iff]
          simp
        · rw [Map.wellFormed_iff] at hout ⊢
          cases hkey : thing.fields[key]? with
          | none => exact hout
          | some value =>
            exact forall_insert (hfields key _ hkey) fun k v _ => hout k v

/-- A page holds at most `MAX_RESULTS` Things. -/
lemma length_findByKind_le (s : Store) (bundle : BundleId) (kind : String) (cursor : ℕ) :
    (s.findByKind bundle kind cursor).1.length ≤ maxResults := by
  cases hkind : Canon.fromStr kind with
  | none => simp [findByKind, hkind]
  | some symbol =>
    rw [findByKind_eq_page s bundle hkind]
    exact List.length_take_le _ _

/-- The next cursor is a `u64`. -/
lemma Typed.findByKind_next_lt (h : s.Typed) (bundle : BundleId) (kind : String) (cursor : ℕ) :
    (s.findByKind bundle kind cursor).2 < 2 ^ 64 := by
  cases hkind : Canon.fromStr kind with
  | none => simp [findByKind, hkind]
  | some symbol =>
    rw [findByKind_eq_page s bundle hkind, Paging.page]
    split
    · rename_i hmore
      have hlt := hmore.length_lt (by decide)
      have hsize := h.kinds symbol
      rw [List.length_drop, Std.ExtTreeSet.length_toList] at hlt
      omega
    · exact Nat.two_pow_pos 64

lemma Typed.wellFormed_findByKind (h : s.Typed) {kind : String} {cursor : ℕ}
    {thing : GraphThing} (hthing : thing ∈ (s.findByKind bundle kind cursor).1) :
    thing.WellFormed := by
  cases hkind : Canon.fromStr kind with
  | none => simp [findByKind, hkind] at hthing
  | some symbol =>
    rw [findByKind_eq_page s bundle hkind] at hthing
    obtain ⟨id, -, hread⟩ := List.mem_filterMap.mp (List.mem_of_mem_take hthing)
    exact h.latest id thing (Option.filter_eq_some_iff.mp hread).1

end Store

end ThingOS
