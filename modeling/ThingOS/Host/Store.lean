import ThingOS.Abi.Graph
import ThingOS.Common.Checked

/-!
# The host's graph store

The in-memory store of `thing_host/src/store.rs`: one current version for each id, one edge for each
edge id, no authority, and pages of 64 Things in the order of their ids. The host resolves kind
names in a table of its own, `thing_host/src/symbols.rs`.
-/

namespace ThingOS.Host

/-- `SYMBOL_TABLE`. Its entries are those which the kernel's two tables share, after `journal`. -/
def symbolTable : List (Symbol × String) := (Canon.journal, "journal") :: Canon.sharedTable

def symbolFromStr (name : String) : Option Symbol :=
  (symbolTable.find? fun entry => entry.2 == name).map Prod.fst

def symbolName (symbol : Symbol) : Option String :=
  (symbolTable.find? fun entry => entry.1 == symbol).map Prod.snd

/-- The Things of `InMemoryGraphStore`. Nothing depends on the order in which its hash map lists
them. -/
abbrev Things := Std.ExtTreeMap Uuid GraphThing compare

def findPageSize : ℕ := 64

def ofKind (things : Things) (symbol : Symbol) : List GraphThing :=
  ((mapValues things).filter fun thing => thing.kind == symbol).mergeSort
    fun a b => decide (a.id ≤ b.id)

/-- One Thing more than a page is taken, to see whether there is a next one. -/
def findByKind (things : Things) (kind : String) (cursor : Option ℕ) :
    List GraphThing × Option ℕ :=
  match symbolFromStr kind with
  | none => ([], none)
  | some symbol =>
    let skip := cursor.getD 0
    let found := ofKind things symbol
    if found.length ≤ skip then ([], none)
    else
      let slice := (found.drop skip).take (findPageSize + 1)
      if findPageSize < slice.length then (slice.dropLast, some (skip + findPageSize))
      else (slice, none)

lemma findByKind_next {things : Things} {kind : String} {cursor : Option ℕ} {next : ℕ}
    (h : (findByKind things kind cursor).2 = some next) :
    next = cursor.getD 0 + findPageSize ∧ ∃ symbol, symbolFromStr kind = some symbol
      ∧ next < (ofKind things symbol).length := by
  unfold findByKind at h
  cases hsymbol : symbolFromStr kind with
  | none => simp [hsymbol] at h
  | some symbol =>
    simp only [hsymbol] at h
    split at h
    · cases h
    · split at h
      · rename_i hlength
        obtain rfl := Option.some.inj h
        rw [List.length_take, List.length_drop] at hlength
        exact ⟨rfl, symbol, rfl, by omega⟩
      · cases h

/-! ## The store -/

def patternMatches (thing : GraphThing) (pattern : NodePattern) : Bool :=
  (pattern.labels.all fun label => thing.labels.contains label)
    && pattern.props.toList.all fun (key, expected) => thing.fields[key]? == some expected

/-- `InMemoryGraphStore`, with the counter that `next_uuid` keeps for the process. -/
structure InMemoryGraphStore where
  things : Things
  edges : Std.ExtTreeMap Uuid GraphEdge compare
  /-- An `AtomicU64`. -/
  revision : ℕ
  uuids : BitVec 64

namespace InMemoryGraphStore

/-- `InMemoryGraphStore::new`, in a process that has made up no id yet. -/
def new : InMemoryGraphStore where
  things := ∅
  edges := ∅
  revision := 1
  uuids := 0

variable (s : InMemoryGraphStore)

/-- The revision handed out, and the store with its counter advanced. -/
def nextRevision : ℕ × InMemoryGraphStore :=
  (s.revision, { s with revision := (s.revision + 1) % u64Size })

/-- The labels of a declared Thing, its kind when the request lists none. -/
def fiatLabels (request : GraphFiatRequest) : Std.ExtTreeSet Symbol compare :=
  let labels := if request.labels.isEmpty then request.labels ++ [request.kind] else request.labels
  Std.ExtTreeSet.ofList labels compare

/-- The Thing that a declaration puts in the place of whatever the id had. -/
def fiatThing (id : Uuid) (request : GraphFiatRequest) (revision : ℕ) : GraphThing where
  id := id
  kind := request.kind
  labels := fiatLabels request
  fields := request.fields
  owner := 0
  revision := revision

def fiat (request : GraphFiatRequest) : InMemoryGraphStore × GraphThing :=
  let (id, uuids) := idOrNext request.id s.uuids
  let (revision, s) := s.nextRevision
  let thing := fiatThing id request revision
  ({ s with things := s.things.insert id thing, uuids }, thing)

/-- The edge that a link puts in the place of whatever the edge id had. -/
def requestedEdge (id : Uuid) (request : GraphLinkRequest) (revision : ℕ) : GraphEdge where
  id := id
  src := request.from_
  pred := request.pred
  dst := request.to_
  props := request.props
  owner := 0
  revision := revision

def link (request : GraphLinkRequest) : InMemoryGraphStore × GraphEdge :=
  let (id, uuids) := idOrNext request.id s.uuids
  let (revision, s) := s.nextRevision
  let edge := requestedEdge id request revision
  ({ s with edges := s.edges.insert id edge, uuids }, edge)

def get : GraphGetRequest → List GraphThing
  | .thing id => s.things[id]?.toList
  | .pattern pattern => (mapValues s.things).filter fun thing => patternMatches thing pattern

def extend (fields props : Map) : Map :=
  props.toList.foldl (fun fields (k, v) => fields.insert k v) fields

/-- The revision is taken only when there is a Thing to update. -/
def propsSet (request : GraphPropsRequest) : InMemoryGraphStore × Except String GraphThing :=
  match s.things[request.node]? with
  | some thing =>
    let (revision, s) := s.nextRevision
    let thing := { thing with fields := extend thing.fields request.props, revision }
    ({ s with things := s.things.insert request.node thing }, .ok thing)
  | none => (s, .error "thing not found")

end InMemoryGraphStore

end ThingOS.Host
