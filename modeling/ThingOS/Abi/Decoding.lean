import ThingOS.Abi.Encoding
import ThingOS.Common.PostcardReader

/-!
# Reading serialised values back

What `postcard::from_bytes` reads for the types of the ABI, and that it reads what `to_allocvec` has
written. The numbers of the model have no bound and the map inside a `Value` is a list of entries,
so this is said of the values the Rust types have: `WellFormed`.
-/

namespace ThingOS

open Postcard List Std.ExtTreeMap Sha1

open Postcard (Reader Reads)

/-! ## Symbols and UUIDs -/

def readSymbol : Reader Symbol := BitVec.ofNat 32 <$> u32

lemma reads_symbol (s : Symbol) : Reads readSymbol (encodeSymbol s) s := by
  have h := (reads_u32 s.isLt).map (f := BitVec.ofNat 32)
  rwa [BitVec.ofNat_toNat, BitVec.setWidth_eq] at h

/-- A UUID is read from a byte string of sixteen bytes. -/
def readUuid : Reader Uuid := do
  let bs ← byteString
  if bs.length = 16 then return BitVec.ofNat 128 (ofBytes bs) else fail

lemma length_toBytes (len n : ℕ) : (toBytes len n).length = len := by
  induction len with
  | zero => rfl
  | succ len ih => rw [toBytes, length_cons, ih]

lemma ofBytes_append_singleton (bs : List UInt8) (b : UInt8) :
    ofBytes (bs ++ [b]) = ofBytes bs * 256 + b.toNat := by
  rw [ofBytes, foldl_append]
  rfl

/-- The bytes of a number without its last one are those of the number without its last byte. -/
lemma toBytes_succ (len n : ℕ) :
    toBytes (len + 1) n = toBytes len (n / 256) ++ [UInt8.ofNat n] := by
  induction len with
  | zero => simp [toBytes]
  | succ len ih =>
    rw [toBytes, ih, toBytes, cons_append, Nat.div_div_eq_div_mul, Nat.pow_succ']

lemma ofBytes_toBytes {len n : ℕ} (hn : n < 256 ^ len) :
    ofBytes (toBytes len n) = n := by
  induction len generalizing n with
  | zero =>
    obtain rfl : n = 0 := by rwa [Nat.pow_zero, Nat.lt_one_iff] at hn
    rfl
  | succ len ih =>
    have hdiv : n / 256 < 256 ^ len := by
      rw [Nat.div_lt_iff_lt_mul (by decide), ← Nat.pow_succ]
      exact hn
    have hbyte : (UInt8.ofNat n).toNat = n % 256 := UInt8.toNat_ofNat'
    rw [toBytes_succ, ofBytes_append_singleton, ih hdiv, hbyte]
    omega

lemma ofBytes_toBytes_uuid (id : Uuid) :
    BitVec.ofNat 128 (ofBytes (toBytes 16 id.toNat)) = id := by
  rw [ofBytes_toBytes (id.isLt.trans_le (by decide)), BitVec.ofNat_toNat, BitVec.setWidth_eq]

lemma reads_uuid (id : Uuid) : Reads readUuid (encodeUuid id) id := by
  have hlen := length_toBytes 16 id.toNat
  have hid := ofBytes_toBytes_uuid id
  rw [encodeUuid, ← append_nil (bytes _)]
  refine (reads_byteString (by rw [hlen]; decide)).bind ?_
  rw [if_pos hlen, hid]
  exact Reads.pure id

/-! ## Values -/

namespace Value

mutual

/-- The value is one that the Rust type has. -/
def WellFormed : Value → Prop
  | .u64 n => n < 2 ^ 64
  | .i64 n => -2 ^ 63 ≤ n ∧ n < 2 ^ 63
  | .bytes b => b.length < 2 ^ 64
  | .text s => s.toUTF8.data.toList.length < 2 ^ 64
  | .map m => m.length < 2 ^ 64 ∧ (m.Pairwise fun a b => compare a.1 b.1 = .lt)
    ∧ WellFormedEntries m
  | .list l => l.length < 2 ^ 64 ∧ WellFormedList l
  | .blob b => b.length < 2 ^ 64
  | _ => True

def WellFormedEntries : List (Symbol × Value) → Prop
  | [] => True
  | (_, v) :: m => WellFormed v ∧ WellFormedEntries m

def WellFormedList : List Value → Prop
  | [] => True
  | v :: l => WellFormed v ∧ WellFormedList l

end

mutual

/-- How deep a value is nested. -/
def depth : Value → ℕ
  | .map m => depthEntries m + 1
  | .list l => depthList l + 1
  | _ => 1

def depthEntries : List (Symbol × Value) → ℕ
  | [] => 0
  | (_, v) :: m => max (depth v) (depthEntries m)

def depthList : List Value → ℕ
  | [] => 0
  | v :: l => max (depth v) (depthList l)

end

mutual

/-- Every level of nesting takes at least one byte. -/
theorem depth_le : (v : Value) → depth v ≤ (encodeValue v).length
  | .map m => by
    have h := depthEntries_le m
    simp only [depth, encodeValue, length_cons, length_append]
    omega
  | .list l => by
    have h := depthList_le l
    simp only [depth, encodeValue, length_cons, length_append]
    omega
  | .null | .bool _ | .u64 _ | .i64 _ | .bytes _ | .symbol _ | .uuid _ | .text _ | .blob _ => by
    simp [depth, encodeValue]

theorem depthEntries_le : (m : List (Symbol × Value)) → depthEntries m ≤ (encodeEntries m).length
  | [] => Nat.zero_le _
  | (k, v) :: m => by
    have h := depth_le v
    have hm := depthEntries_le m
    simp only [depthEntries, encodeEntries, length_append]
    omega

theorem depthList_le : (l : List Value) → depthList l ≤ (encodeList l).length
  | [] => Nat.zero_le _
  | v :: l => by
    have h := depth_le v
    have hl := depthList_le l
    simp only [depthList, encodeList, length_append]
    omega

end

end Value

/-- The entries of the map that is made of a list of entries: in key order, and the last value of
each key. -/
def sortEntries (entries : List (Symbol × Value)) : List (Symbol × Value) :=
  (Std.ExtTreeMap.ofList entries compare : Map).toList

def readEntry (value : Reader Value) : Reader (Symbol × Value) := do
  let k ← readSymbol
  let v ← value
  return (k, v)

/-- Read a value that is nested at most `fuel` deep. -/
def readValueWithin : (fuel : ℕ) → Reader Value
  | 0 => fail
  | fuel + 1 => do
    match ← u32 with
    | 0 => return .null
    | 1 => .bool <$> bool
    | 2 => .u64 <$> u64
    | 3 => (fun n => .i64 (unzigzag n)) <$> u64
    | 4 => .bytes <$> byteString
    | 5 => .symbol <$> readSymbol
    | 6 => .uuid <$> readUuid
    | 7 => .text <$> string
    | 8 => do
      let n ← u64
      let entries ← many (readEntry (readValueWithin fuel)) n
      return .map (sortEntries entries)
    | 9 => do
      let n ← u64
      .list <$> many (readValueWithin fuel) n
    | 10 => .blob <$> byteString
    | _ => fail

/-- Read a value. Each level of nesting takes a byte, so there are enough of them. -/
def readValue : Reader Value := fun bs => readValueWithin bs.length bs

lemma ne_of_compare_lt {a b : Symbol × Value} (h : compare a.1 b.1 = .lt) : a ≠ b := by
  rintro rfl
  rw [Std.ReflOrd.compare_self] at h
  cases h

/-- Entries that stand in key order are the entries of the map made of them. -/
lemma sortEntries_of_sorted {entries : List (Symbol × Value)}
    (h : entries.Pairwise fun a b => compare a.1 b.1 = .lt) : sortEntries entries = entries := by
  have hdistinct : entries.Pairwise fun a b => ¬ compare a.1 b.1 = .eq :=
    h.imp fun hlt heq => by rw [hlt] at heq; cases heq
  have hsorted : (sortEntries entries).Pairwise fun a b => compare a.1 b.1 = .lt :=
    ordered_keys_toList
  -- both lists ascend, so it is enough that they have the same members
  have hmem : ∀ entry, entry ∈ sortEntries entries ↔ entry ∈ entries := by
    rintro ⟨k, v⟩
    rw [sortEntries, mem_toList_iff_getElem?_eq_some]
    constructor
    · intro hget
      by_cases hkey : k ∈ entries.map Prod.fst
      · obtain ⟨⟨_, w⟩, hw, rfl⟩ := mem_map.mp hkey
        have hsome := getElem?_ofList_of_mem Std.ReflCmp.compare_self hdistinct hw
        cases hsome.symm.trans hget
        exact hw
      · grind
    · exact getElem?_ofList_of_mem Std.ReflCmp.compare_self hdistinct
  have hperm : (sortEntries entries).Perm entries :=
    (perm_ext_iff_of_nodup (hsorted.imp ne_of_compare_lt) (h.imp ne_of_compare_lt)).mpr hmem
  refine hperm.eq_of_pairwise ?_ hsorted h
  intro a b _ _ hab hba
  rw [Std.OrientedOrd.eq_swap, hba] at hab
  cases hab

/-! ### What is written is read back -/

/-- The tag of a variant is a number below 128, which is one byte. -/
lemma reads_tag {t : UInt8} (h : t.toNat < 128) : Reads u32 [t] t.toNat := by
  intro rest
  rw [u32, singleton_append, varintFrom, if_neg (by decide), if_pos h,
    if_neg fun hlast => by cases hlast.1]

lemma reads_entry {value : Reader Value} {k : Symbol} {v : Value}
    (h : Reads value (encodeValue v) v) :
    Reads (readEntry value) (encodeSymbol k ++ encodeValue v) (k, v) :=
  (reads_symbol k).bind h.map

mutual

theorem reads_valueWithin : (v : Value) → v.WellFormed → {fuel : ℕ} → v.depth ≤ fuel →
    Reads (readValueWithin fuel) (encodeValue v) v
  | v, _, 0, hdepth => by cases v <;> exact absurd hdepth (Nat.not_succ_le_zero _)
  | .null, _, _ + 1, _ => (reads_tag (t := 0) (by decide)).bind (Reads.pure _)
  | .bool b, _, _ + 1, _ => (reads_tag (t := 1) (by decide)).bind (reads_bool b).map
  | .u64 _, hv, _ + 1, _ => by
    rw [Value.WellFormed] at hv
    exact (reads_tag (t := 2) (by decide)).bind (reads_u64 hv).map
  | .i64 n, hv, _ + 1, _ => by
    rw [Value.WellFormed] at hv
    have h := (reads_u64 (zigzag_lt hv.1 hv.2)).map
      (f := fun n => Value.i64 (unzigzag n))
    rw [unzigzag_zigzag] at h
    exact (reads_tag (t := 3) (by decide)).bind h
  | .bytes b, hv, _ + 1, _ => by
    rw [Value.WellFormed] at hv
    exact (reads_tag (t := 4) (by decide)).bind (reads_byteString hv).map
  | .symbol s, _, _ + 1, _ => (reads_tag (t := 5) (by decide)).bind (reads_symbol s).map
  | .uuid id, _, _ + 1, _ => (reads_tag (t := 6) (by decide)).bind (reads_uuid id).map
  | .text s, hv, _ + 1, _ => by
    rw [Value.WellFormed] at hv
    exact (reads_tag (t := 7) (by decide)).bind (reads_string hv).map
  | .map m, hv, fuel + 1, hdepth => by
    rw [Value.WellFormed] at hv
    obtain ⟨hlen, hsorted, hentries⟩ := hv
    have hm := (@reads_entries m hentries fuel (Nat.le_of_succ_le_succ hdepth)).map
      (f := fun entries => Value.map (sortEntries entries))
    rw [sortEntries_of_sorted hsorted] at hm
    exact (reads_tag (t := 8) (by decide)).bind ((reads_u64 hlen).bind hm)
  | .list l, hv, fuel + 1, hdepth => by
    rw [Value.WellFormed] at hv
    have hl := @reads_values l hv.2 fuel (Nat.le_of_succ_le_succ hdepth)
    exact (reads_tag (t := 9) (by decide)).bind ((reads_u64 hv.1).bind hl.map)
  | .blob b, hv, _ + 1, _ => by
    rw [Value.WellFormed] at hv
    exact (reads_tag (t := 10) (by decide)).bind (reads_byteString hv).map

theorem reads_entries : (m : List (Symbol × Value)) → Value.WellFormedEntries m → {fuel : ℕ} →
    Value.depthEntries m ≤ fuel →
    Reads (many (readEntry (readValueWithin fuel)) m.length) (encodeEntries m) m
  | [], _, _, _ => Reads.pure []
  | (_, v) :: m, hm, _, hdepth => by
    rw [Value.WellFormedEntries] at hm
    rw [Value.depthEntries] at hdepth
    have hv := reads_valueWithin v hm.1 ((le_max_left _ _).trans hdepth)
    have hrest := reads_entries m hm.2 ((le_max_right _ _).trans hdepth)
    exact (reads_entry hv).bind hrest.map

theorem reads_values : (l : List Value) → Value.WellFormedList l → {fuel : ℕ} →
    Value.depthList l ≤ fuel →
    Reads (many (readValueWithin fuel) l.length) (encodeList l) l
  | [], _, _, _ => Reads.pure []
  | v :: l, hl, _, hdepth => by
    rw [Value.WellFormedList] at hl
    rw [Value.depthList] at hdepth
    have hv := reads_valueWithin v hl.1 ((le_max_left _ _).trans hdepth)
    have hrest := reads_values l hl.2 ((le_max_right _ _).trans hdepth)
    exact hv.bind hrest.map

end

lemma reads_value {v : Value} (hv : v.WellFormed) : Reads readValue (encodeValue v) v := by
  intro rest
  refine reads_valueWithin v hv (v.depth_le.trans ?_) rest
  rw [length_append]
  exact Nat.le_add_right _ _

/-! ## Maps, Things and edges -/

def readMap : Reader Map := do
  let n ← u64
  let entries ← many (readEntry readValue) n
  return Std.ExtTreeMap.ofList entries compare

/-- The map is one that the Rust type has. -/
structure Map.WellFormed (m : Map) : Prop where
  size : m.size < 2 ^ 64
  values : ∀ entry ∈ m.toList, entry.2.WellFormed

lemma encodeEntries_eq (m : List (Symbol × Value)) :
    encodeEntries m = m.flatMap fun entry => encodeSymbol entry.1 ++ encodeValue entry.2 := by
  induction m with
  | nil => rfl
  | cons entry m ih => rw [encodeEntries, ih, flatMap_cons]

lemma reads_map {m : Map} (hm : Map.WellFormed m) : Reads readMap (encodeMap m) m := by
  have hentries : Reads (many (readEntry readValue) m.toList.length)
      (encodeEntries m.toList) m.toList := by
    rw [encodeEntries_eq]
    exact reads_many fun entry hentry => reads_entry (reads_value (hm.values entry hentry))
  rw [length_toList] at hentries
  have h := hentries.map (f := fun entries => (Std.ExtTreeMap.ofList entries compare : Map))
  rw [ofList_toList] at h
  exact (reads_u64 hm.size).bind h

def readLabels : Reader (Std.ExtTreeSet Symbol compare) := do
  let n ← u64
  let labels ← many readSymbol n
  return Std.ExtTreeSet.ofList labels compare

lemma reads_labels {labels : Std.ExtTreeSet Symbol compare} (h : labels.size < 2 ^ 64) :
    Reads readLabels (varint maxU64 labels.size
      ++ labels.toList.flatMap encodeSymbol) labels := by
  have hlabels : Reads _ (labels.toList.flatMap encodeSymbol) labels.toList :=
    reads_many fun s _ => reads_symbol s
  rw [Std.ExtTreeSet.length_toList] at hlabels
  have hset := hlabels.map (f := fun l => Std.ExtTreeSet.ofList l compare)
  rw [ofList_toList_set] at hset
  exact (reads_u64 h).bind hset

def readThing : Reader GraphThing := do
  let id ← readUuid
  let kind ← readSymbol
  let labels ← readLabels
  let fields ← readMap
  let owner ← readUuid
  let revision ← u64
  return { id, kind, labels, fields, owner, revision }

structure GraphThing.WellFormed (t : GraphThing) : Prop where
  labels : t.labels.size < 2 ^ 64
  fields : Map.WellFormed t.fields
  revision : t.revision < 2 ^ 64

lemma reads_thing {t : GraphThing} (ht : t.WellFormed) : Reads readThing (encodeThing t) t := by
  unfold encodeThing
  simp only [append_assoc]
  rw [← append_assoc (varint _ t.labels.size)]
  exact (reads_uuid t.id).bind ((reads_symbol t.kind).bind ((reads_labels ht.labels).bind
    ((reads_map ht.fields).bind ((reads_uuid t.owner).bind (reads_u64 ht.revision).map))))

def readEdge : Reader GraphEdge := do
  let id ← readUuid
  let src ← readUuid
  let pred ← string
  let dst ← readUuid
  let props ← readMap
  let owner ← readUuid
  let revision ← u64
  return { id, src, pred, dst, props, owner, revision }

structure GraphEdge.WellFormed (e : GraphEdge) : Prop where
  pred : e.pred.toUTF8.data.toList.length < 2 ^ 64
  props : Map.WellFormed e.props
  revision : e.revision < 2 ^ 64

lemma reads_edge {e : GraphEdge} (he : e.WellFormed) : Reads readEdge (encodeEdge e) e := by
  unfold encodeEdge
  simp only [append_assoc]
  exact (reads_uuid e.id).bind ((reads_uuid e.src).bind ((reads_string he.pred).bind
    ((reads_uuid e.dst).bind ((reads_map he.props).bind ((reads_uuid e.owner).bind
      (reads_u64 he.revision).map)))))

end ThingOS
