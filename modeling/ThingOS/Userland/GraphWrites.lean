import ThingOS.Common.Run
import ThingOS.Host.Store

/-!
# How user programs write to the graph

`fiat` and `set_props` of `userland/src/graph.rs`, as the host's store performs them. A declaration
replaces all fields of the Thing; setting properties adds to them. A program that declares a Thing
with the fields it wants to change keeps the others exactly when there are none.
-/

namespace ThingOS.Ui

open Host

/-- The arguments of a `fiat` with an id. -/
structure Declaration where
  id : Uuid
  kind : Symbol
  fields : Map

namespace Declaration

/-- Userland labels a Thing with its kind. -/
def request (d : Declaration) : GraphFiatRequest := ⟨some d.id, d.kind, [d.kind], d.fields⟩

def declare (s : InMemoryGraphStore) (d : Declaration) : InMemoryGraphStore := (s.fiat d.request).1

/-- Several Things declared in order. -/
def declareAll : InMemoryGraphStore → List Declaration → InMemoryGraphStore := run declare

variable {s : InMemoryGraphStore} {id : Uuid} {key : Symbol} {d : Declaration}

lemma things_declare (s : InMemoryGraphStore) (d : Declaration) :
    (declare s d).things = s.things.insert d.id
      (InMemoryGraphStore.fiatThing d.id d.request s.revision) := rfl

end Declaration

def fieldOf (s : InMemoryGraphStore) (id : Uuid) (key : Symbol) : Option Value :=
  s.things[id]?.bind fun thing => thing.fields[key]?

namespace Declaration

variable {s : InMemoryGraphStore} {id : Uuid} {key : Symbol} {d : Declaration}

lemma fieldOf_declare_of_ne (h : d.id ≠ id) (key : Symbol) :
    fieldOf (declare s d) id key = fieldOf s id key := by
  rw [fieldOf, things_declare, Std.ExtTreeMap.getElem?_insert, if_neg (by simpa using h)]
  rfl

/-- The fields of a Thing after several declarations are those of the last one of it, if there is
one. -/
lemma fieldOf_declareAll (s : InMemoryGraphStore) (ds : List Declaration) (id : Uuid) :
    ((∀ d ∈ ds, d.id ≠ id) ∧ ∀ key, fieldOf (declareAll s ds) id key = fieldOf s id key)
      ∨ ∃ d ∈ ds, d.id = id ∧ ∀ key, fieldOf (declareAll s ds) id key = d.fields[key]? := by
  induction ds using List.reverseRecOn with
  | nil => exact .inl ⟨by simp, fun key => rfl⟩
  | append_singleton ds d ih =>
    rw [declareAll, run_concat]
    by_cases hd : d.id = id
    · refine .inr ⟨d, by simp, hd, fun key => ?_⟩
      rw [← hd, fieldOf, things_declare, Std.ExtTreeMap.getElem?_insert_self]
      rfl
    · rcases ih with ⟨hnone, hsame⟩ | ⟨last, hlast, hid, hfields⟩
      · exact .inl ⟨forall_mem_concat.mpr ⟨hnone, hd⟩,
          fun key => (fieldOf_declare_of_ne hd key).trans (hsame key)⟩
      · exact .inr ⟨last, List.mem_append_left _ hlast, hid,
          fun key => (fieldOf_declare_of_ne hd key).trans (hfields key)⟩

/-- Only the named fields of the Thing differ between the stores. -/
def KeepsOthers (named : List Symbol) (id : Uuid) (s t : InMemoryGraphStore) : Prop :=
  ∀ key, key ∉ named → fieldOf t id key = fieldOf s id key

/-- Declaring Things with named fields only keeps the others of a Thing exactly when it is not among
them or has no others. -/
lemma keepsOthers_declareAll_iff {ds : List Declaration} {named : List Symbol}
    (hnamed : ∀ d ∈ ds, d.id = id → ∀ key, key ∉ named → d.fields[key]? = none) :
    KeepsOthers named id s (declareAll s ds)
      ↔ (∀ d ∈ ds, d.id ≠ id) ∨ ∀ key, key ∉ named → fieldOf s id key = none := by
  rcases fieldOf_declareAll s ds id with ⟨hnone, hsame⟩ | ⟨d, hd, hid, hfields⟩
  · exact iff_of_true (fun key _ => hsame key) (.inl hnone)
  · have hcleared : ∀ key, key ∉ named → fieldOf (declareAll s ds) id key = none :=
      fun key hkey => (hfields key).trans (hnamed d hd hid key hkey)
    constructor
    · intro h
      exact .inr fun key hkey => (h key hkey).symm.trans (hcleared key hkey)
    · rintro (hne | hothers)
      · exact absurd hid (hne d hd)
      · intro key hkey
        rw [hcleared key hkey, hothers key hkey]

end Declaration

inductive GraphWrite where
  | fiat (d : Declaration)
  | setProps (node : Uuid) (props : Map)

/-- The store after a write and the Thing that watchers are told of. -/
def GraphWrite.apply (s : InMemoryGraphStore) : GraphWrite → InMemoryGraphStore × Option GraphThing
  | .fiat d =>
    let (s, thing) := s.fiat d.request
    (s, some thing)
  | .setProps node props =>
    match s.propsSet ⟨node, props⟩ with
    | (s, .ok thing) => (s, some thing)
    | (s, .error _) => (s, none)

/-- The store after several writes. -/
def GraphWrite.applyAll : InMemoryGraphStore → List GraphWrite → InMemoryGraphStore :=
  run fun s w => (apply s w).1

/-- The Things that watchers are told of by several writes. -/
def GraphWrite.told : InMemoryGraphStore → List GraphWrite → List GraphThing :=
  outputs (fun s w => (apply s w).1) fun s w => (apply s w).2.toList

end ThingOS.Ui
