import ThingOS.Kernel.Graph.Watches
import ThingOS.Host.Equivalence

/-!
# Which changes a watch matches

`match_change` of `thing_host/src/lib.rs` and `notify_watches` of the kernel, for a watch that the
kernel bundle owns and to which every change is visible.

A changed Thing is matched alike. For a new edge the kernel looks at the Thing at its source, or
else at its target, and lets the edge answer for the properties `SRC`, `DST` and `PREDICATE`. The
host takes the labels for names of predicates, any one of which will do, and never matches a pattern
with properties.
-/

namespace ThingOS

variable (s : Store) (pattern : NodePattern) (edge : GraphEdge)

namespace Host

def edgeMatches (edge : GraphEdge) (pattern : NodePattern) : Bool :=
  if !pattern.labels.isEmpty && !(pattern.labels.any fun label =>
      match symbolName label with
      | some name => name == edge.pred
      | none => false) then false
  else pattern.props.isEmpty

def matchChange (change : GraphChange) (pattern : NodePattern) : Bool :=
  match change with
  | .thing thing => patternMatches thing pattern
  | .edge edge => edgeMatches edge pattern

lemma edgeMatches_iff (pattern : NodePattern) :
    edgeMatches edge pattern = true
      ↔ (pattern.labels = [] ∨ ∃ label ∈ pattern.labels, symbolName label = some edge.pred)
        ∧ pattern.props = ∅ := by
  have hname : ∀ label, (match symbolName label with
      | some name => name == edge.pred
      | none => false) = true ↔ symbolName label = some edge.pred := by
    intro label
    cases symbolName label <;> simp
  have hcases : edgeMatches edge pattern
      = ((pattern.labels.isEmpty || pattern.labels.any fun label => match symbolName label with
        | some name => name == edge.pred
        | none => false) && pattern.props.isEmpty) := by
    unfold edgeMatches
    generalize pattern.labels.any _ = named
    cases pattern.labels.isEmpty <;> cases named <;> rfl
  simp only [hcases, Bool.and_eq_true, Bool.or_eq_true, List.isEmpty_iff, List.any_eq_true, hname,
    Std.ExtTreeMap.isEmpty_iff]

end Host

/-! ## The kernel's side -/

namespace Store

/-- The Thing has the property, or the edge answers for it. -/
def PropMet (thing : GraphThing) (edge : GraphEdge) (k : Symbol) (v : Value) : Prop :=
  thing.fields[k]? = some v
    ∨ k = Canon.src ∧ v = .uuid edge.src
    ∨ k = Canon.dst ∧ v = .uuid edge.dst
    ∨ k = Canon.predicate ∧ (v = .text edge.pred
      ∨ ∃ symbol, v = .symbol symbol ∧ Canon.symbolToString symbol = edge.pred)

lemma matchesProp_iff (thing : GraphThing) (edge : GraphEdge) (k : Symbol) (v : Value) :
    matchesProp thing (some edge) k v = true ↔ PropMet thing edge k v := by
  have hother : Canon.predicate ≠ Canon.src ∧ Canon.predicate ≠ Canon.dst := by decide
  unfold matchesProp PropMet
  by_cases hfield : thing.fields[k]? = some v
  · simp [hfield]
  · by_cases hpred : k = Canon.predicate
    · subst hpred
      cases v <;> simp [hfield, hother, Value.asText, Value.asSymbol]
    · simp [hfield, hpred]

def edgeTarget (s : Store) (edge : GraphEdge) : Option GraphThing :=
  (s.latest edge.src).or (s.latest edge.dst)

/-- A watch of the kernel bundle sees every change that its pattern matches. -/
lemma sees_thing (thing : GraphThing) :
    s.sees kernelBundleId pattern (.thing thing) = Host.patternMatches thing pattern := by
  simp [sees, changeVisibleTo, canRead, changeTarget, changeEdge, matchesPattern_none]

lemma sees_edge_eq_any :
    s.sees kernelBundleId pattern (.edge edge)
      = (s.edgeTarget edge).any fun thing => matchesPattern pattern thing (some edge) := by
  have hvisible : s.changeVisibleTo kernelBundleId (.edge edge) = true := by
    simp [changeVisibleTo, canRead]
  have htarget : s.changeTarget (.edge edge) = s.edgeTarget edge := rfl
  unfold sees
  rw [hvisible, htarget, Bool.true_and]
  cases s.edgeTarget edge <;> rfl

lemma sees_edge_iff :
    s.sees kernelBundleId pattern (.edge edge) = true
      ↔ ∃ thing, s.edgeTarget edge = some thing ∧ (∀ label ∈ pattern.labels, label ∈ thing.labels)
        ∧ ∀ k v, pattern.props[k]? = some v → PropMet thing edge k v := by
  rw [sees_edge_eq_any]
  cases s.edgeTarget edge with
  | none => simp
  | some thing =>
    simp only [Option.any_some, matchesPattern, Bool.and_eq_true, List.all_eq_true,
      Option.some.injEq, exists_eq_left', Prod.forall,
      Std.ExtTreeMap.mem_toList_iff_getElem?_eq_some, matchesProp_iff,
      Std.ExtTreeSet.contains_iff_mem]

end Store

/-! ## Agreement -/

/-- The stores match a change alike: a Thing always; an edge under a pattern without properties if
the labels are missing and an end of the edge is there, or if the labels are there and name the
predicate exactly when the Thing at the end has them; an edge under a pattern with properties if the
Thing at its end is missing, lacks a label or leaves a property unmet. -/
def MatchedAlike (s : Store) (pattern : NodePattern) : GraphChange → Prop
  | .thing _ => True
  | .edge edge =>
    if pattern.props = ∅ then
      if pattern.labels = [] then s.edgeTarget edge ≠ none
      else (∃ label ∈ pattern.labels, Host.symbolName label = some edge.pred)
        ↔ ∃ thing, s.edgeTarget edge = some thing ∧ ∀ label ∈ pattern.labels, label ∈ thing.labels
    else ∀ thing, s.edgeTarget edge = some thing →
      (∃ label ∈ pattern.labels, label ∉ thing.labels)
        ∨ ∃ k v, pattern.props[k]? = some v ∧ ¬ Store.PropMet thing edge k v

/-- The kernel and the host agree on a watch and a change exactly when the change is matched
alike. -/
theorem watch_matching_iff (change : GraphChange) :
    (s.sees kernelBundleId pattern change = true ↔ Host.matchChange change pattern = true)
      ↔ MatchedAlike s pattern change := by
  cases change with
  | thing thing =>
    rw [s.sees_thing]
    exact iff_of_true Iff.rfl trivial
  | edge edge =>
    rw [s.sees_edge_iff, Host.matchChange, Host.edgeMatches_iff, MatchedAlike]
    by_cases hprops : pattern.props = ∅
    · have hnone : ∀ thing, (∀ k v, pattern.props[k]? = some v → Store.PropMet thing edge k v)
          ↔ True := fun thing => by simp [hprops]
      simp only [hnone, and_true, if_pos hprops]
      simp only [hprops, and_true]
      by_cases hlabels : pattern.labels = []
      · simp [hlabels, Option.ne_none_iff_exists']
      · simp only [hlabels, false_or, if_false]
        exact Iff.comm
    · -- the host never matches here, so the kernel must not
      simp only [hprops, and_false, iff_false, if_false, not_exists]
      refine forall_congr' fun thing => ?_
      rw [not_and, not_and_or]
      push Not
      rfl

/-- An edge from the first Thing to a second. -/
def edgeFromOne : GraphEdge := ⟨7#128, 1#128, "NEXT", 2#128, ∅, kernelBundleId, 9⟩

/-- The kernel matches an edge by its source and the host does not; the host matches an edge between
Things that are not there under the empty pattern and the kernel does not. -/
theorem watch_matching_differs :
    ((GraphState.reach crates [GraphState.declareOne]).store.sees kernelBundleId
        ⟨[], (∅ : Map).insert Canon.src (.uuid 1#128)⟩ (.edge edgeFromOne) = true
      ∧ Host.matchChange (.edge edgeFromOne) ⟨[], (∅ : Map).insert Canon.src (.uuid 1#128)⟩ = false)
    ∧ Store.new.sees kernelBundleId ⟨[], ∅⟩ (.edge edgeFromOne) = false
      ∧ Host.matchChange (.edge edgeFromOne) ⟨[], ∅⟩ = true := by
  decide +kernel

end ThingOS
