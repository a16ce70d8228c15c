import ThingOS.Abi.Symbol

/-!
# The graph data model of the ABI

The types of `thing_abi/src/lib.rs` that cross the kernel boundary: values, Things, edges, the
requests that change the graph and the patterns that query it.

`BTreeMap` and `BTreeSet` are `Std.ExtTreeMap` and `Std.ExtTreeSet`: finite, iterated in key order
and equal when their entries are, as the derived `PartialEq` has it. A map inside a `Value` stands
as its list of entries in key order.
-/

namespace ThingOS

open Std.ExtTreeMap

/-- `BTreeMap::values`: the values of a map in key order. -/
def mapValues {κ ν : Type*} [Ord κ] [Std.TransOrd κ] (m : Std.ExtTreeMap κ ν compare) : List ν :=
  m.toList.map Prod.snd

section Entries

variable {κ ν : Type*} [Ord κ] [BEq κ] [LawfulBEq κ] [Std.TransOrd κ] [Std.LawfulEqOrd κ]

lemma ofList_toList (m : Std.ExtTreeMap κ ν compare) :
    Std.ExtTreeMap.ofList m.toList compare = m := by
  apply ext_getElem?
  intro k
  cases hk : m[k]? with
  | some v =>
    exact getElem?_ofList_of_mem Std.ReflCmp.compare_self
      distinct_keys_toList (mem_toList_iff_getElem?_eq_some.mpr hk)
  | none =>
    grind

lemma ofList_toList_set (s : Std.ExtTreeSet κ compare) :
    Std.ExtTreeSet.ofList s.toList compare = s := by
  apply Std.ExtTreeSet.ext_mem
  intro k
  rw [Std.ExtTreeSet.mem_ofList, List.contains_iff_mem, Std.ExtTreeSet.mem_toList]

end Entries

section Insertion

variable {κ ν : Type*} [Ord κ] [Std.TransOrd κ] (m : Std.ExtTreeMap κ ν compare)

lemma nodup_entries : m.toList.Nodup := by
  refine distinct_keys_toList.imp ?_
  rintro a b hne rfl
  exact hne Std.ReflCmp.compare_self

variable [Std.LawfulEqOrd κ]

lemma getElem?_insert_of_ne {m : Std.ExtTreeMap κ ν compare} {k a : κ} {v : ν} (h : k ≠ a) :
    (m.insert k v)[a]? = m[a]? := by
  rw [getElem?_insert, if_neg]
  rwa [Std.LawfulEqCmp.compare_eq_iff_eq]

/-- What holds of the new entry and of the others holds of every entry. -/
lemma forall_insert {m : Std.ExtTreeMap κ ν compare} {k : κ} {v : ν} {P : κ → ν → Prop}
    (hnew : P k v) (hold : ∀ a w, a ≠ k → m[a]? = some w → P a w) (a : κ) (w : ν)
    (h : (m.insert k v)[a]? = some w) : P a w := by
  by_cases hne : a = k
  · subst hne
    rw [getElem?_insert_self] at h
    exact Option.some.inj h ▸ hnew
  · rw [getElem?_insert_of_ne (Ne.symm hne)] at h
    exact hold a w hne h

variable [DecidableEq κ]

/-- Inserting replaces the entry of the key, if there is one. -/
lemma toList_insert_perm (k : κ) (v : ν) :
    (m.insert k v).toList.Perm ((k, v) :: m.toList.filter fun entry => decide (entry.1 ≠ k)) := by
  refine (List.perm_ext_iff_of_nodup (nodup_entries _) ?_).mpr ?_
  · refine List.nodup_cons.mpr ⟨?_, (nodup_entries m).filter _⟩
    simp
  · grind

lemma toList_perm_cons (k : κ) :
    m.toList.Perm ((m[k]?.map fun v => (k, v)).toList
      ++ m.toList.filter fun entry => decide (entry.1 ≠ k)) := by
  cases hk : m[k]? with
  | some v =>
    have hsame : m.insert k v = m := ext_getElem? fun a => by
      rw [getElem?_insert]
      split
      · rename_i ha
        rw [← Std.LawfulEqCmp.compare_eq_iff_eq.mp ha, hk]
      · rfl
    have hperm := toList_insert_perm m k v
    rwa [hsame] at hperm
  | none =>
    have hfilter : (m.toList.filter fun entry => decide (entry.1 ≠ k)) = m.toList :=
      List.filter_eq_self.mpr fun entry hentry => by
        rw [decide_eq_true_iff]
        rintro rfl
        cases hk.symm.trans (mem_toList_iff_getElem?_eq_some.mp hentry)
    rw [hfilter]
    exact List.Perm.refl _

end Insertion

/-- `uuid::Uuid`. Its `Ord` compares the sixteen bytes from the most significant one, which is the
order of the numbers. -/
abbrev Uuid := BitVec 128

instance Uuid.instTransOrd : Std.TransOrd Uuid := inferInstance

instance Uuid.instLawfulBEq : LawfulBEq Uuid := inferInstance

/-- `BundleId`, a transparent newtype over `Uuid`. -/
abbrev BundleId := Uuid

/-- The bundle that stands for the kernel itself. -/
def kernelBundleId : BundleId := 0xfeedcafedeadbeefcafebabe00000001#128

inductive Value where
  | null
  | bool (b : Bool)
  | u64 (n : ℕ)
  | i64 (n : ℤ)
  | bytes (b : List UInt8)
  | symbol (s : Symbol)
  | uuid (id : Uuid)
  | text (s : String)
  | map (m : List (Symbol × Value))
  | list (l : List Value)
  | blob (b : List UInt8)
deriving Repr

namespace Value

mutual

/-- The derived equality test. -/
def beq : Value → Value → Bool
  | .null, .null => true
  | .bool a, .bool b => a == b
  | .u64 a, .u64 b => a == b
  | .i64 a, .i64 b => a == b
  | .bytes a, .bytes b => a == b
  | .symbol a, .symbol b => a == b
  | .uuid a, .uuid b => a == b
  | .text a, .text b => a == b
  | .map a, .map b => beqEntries a b
  | .list a, .list b => beqList a b
  | .blob a, .blob b => a == b
  | _, _ => false

def beqEntries : List (Symbol × Value) → List (Symbol × Value) → Bool
  | [], [] => true
  | (k, v) :: as, (k', v') :: bs => k == k' && beq v v' && beqEntries as bs
  | _, _ => false

def beqList : List Value → List Value → Bool
  | [], [] => true
  | v :: as, v' :: bs => beq v v' && beqList as bs
  | _, _ => false

end

mutual

/-- The derived equality test decides equality. -/
theorem beq_iff : (a b : Value) → (beq a b = true ↔ a = b)
  | .null, b | .bool _, b | .u64 _, b | .i64 _, b | .bytes _, b | .symbol _, b | .uuid _, b
  | .text _, b | .blob _, b => by cases b <;> simp [beq]
  | .map m, b => by cases b <;> simp [beq, beqEntries_iff m]
  | .list l, b => by cases b <;> simp [beq, beqList_iff l]

theorem beqEntries_iff : (a b : List (Symbol × Value)) → (beqEntries a b = true ↔ a = b)
  | [], b => by cases b <;> simp [beqEntries]
  | (k, v) :: as, b => by
    cases b with
    | nil => simp [beqEntries]
    | cons p bs => simp [beqEntries, beq_iff v, beqEntries_iff as, Prod.ext_iff, and_assoc]

theorem beqList_iff : (a b : List Value) → (beqList a b = true ↔ a = b)
  | [], b => by cases b <;> simp [beqList]
  | v :: as, b => by
    cases b with
    | nil => simp [beqList]
    | cons v' bs => simp [beqList, beq_iff v, beqList_iff as]

end

instance : DecidableEq Value := fun a b => decidable_of_iff _ (beq_iff a b)

def asText : Value → Option String
  | .text s => some s
  | _ => none

def asSymbol : Value → Option Symbol
  | .symbol s => some s
  | _ => none

def asUuid : Value → Option Uuid
  | .uuid id => some id
  | _ => none

def asU64 : Value → Option ℕ
  | .u64 n => some n
  | _ => none

def asI64 : Value → Option ℤ
  | .i64 n => some n
  | _ => none

def asBool : Value → Option Bool
  | .bool b => some b
  | _ => none

end Value

abbrev Map := Std.ExtTreeMap Symbol Value compare

instance Map.instDecidableEq : DecidableEq Map := inferInstance

/-- One version of a Thing. -/
structure GraphThing where
  id : Uuid
  kind : Symbol
  labels : Std.ExtTreeSet Symbol compare
  fields : Map
  owner : BundleId
  revision : ℕ
deriving DecidableEq

/-- An edge from `src` to `dst` under the predicate `pred`. -/
structure GraphEdge where
  id : Uuid
  src : Uuid
  pred : String
  dst : Uuid
  props : Map
  owner : BundleId
  revision : ℕ
deriving DecidableEq

/-- The id that has a word for both of its halves. -/
def doubled (word : BitVec 64) : Uuid := word.setWidth 128 <<< 64 ||| word.setWidth 128

/-- `next_uuid`: the id, and the counter advanced. -/
def nextUuid (counter : BitVec 64) : Uuid × BitVec 64 := (doubled counter, counter + 1)

/-- `id.unwrap_or_else(|| next_uuid())`. -/
def idOrNext (id : Option Uuid) (counter : BitVec 64) : Uuid × BitVec 64 :=
  match id with
  | some id => (id, counter)
  | none => nextUuid counter

/-- What a commit adds to the graph. -/
inductive GraphChange where
  | thing (t : GraphThing)
  | edge (e : GraphEdge)
deriving DecidableEq

/-- A full copy of the store's Things and edges. -/
structure GraphSnapshot where
  revision : ℕ
  thingCount : ℕ
  edgeCount : ℕ
  things : List GraphThing
  edges : List GraphEdge

/-- The changes one poll hands out. -/
structure GraphWatchBatch where
  fromRevision : ℕ
  latestRevision : ℕ
  changes : List GraphChange
deriving DecidableEq

structure GraphFiatRequest where
  id : Option Uuid
  kind : Symbol
  labels : List Symbol
  fields : Map

structure GraphThatRequest where
  src : Uuid
  pred : String
  dst : Uuid
  revisionHint : ℕ
  props : Map

structure WatchQuery where
  kind : Option Symbol
  src : Option Uuid
  dst : Option Uuid

/-- Labels a Thing must carry and properties it must have. -/
structure NodePattern where
  labels : List Symbol
  props : Map

inductive GraphGetRequest where
  | thing (id : Uuid)
  | pattern (p : NodePattern)

structure GraphNodeRequest where
  id : Option Uuid
  labels : List Symbol
  props : Map

structure GraphLinkRequest where
  id : Option Uuid
  pred : String
  from_ : Uuid
  to_ : Uuid
  props : Map

structure GraphPropsRequest where
  node : Uuid
  props : Map

structure GraphPropsGetRequest where
  node : Uuid
  keys : List Symbol

structure GrantCapabilityRequest where
  grantee : BundleId
  target : Uuid
  capability : String

/-- The identifier of a registered watch, a `u64`. -/
abbrev WatchId := ℕ

structure Event where
  timestamp : ℕ
  kind : Symbol
  data : Value
deriving DecidableEq

end ThingOS
