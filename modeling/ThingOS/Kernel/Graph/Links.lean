import ThingOS.Kernel.Graph.Snapshot

/-!
# What a link leaves behind

`link_edge` answers with a revision, which the bundle reads as: the edge I asked for is there, under
this revision. That is so for a new edge, unless the counter has fallen behind the last edge and
`insert_edge` drops it. An edge that is there already is found by its ends and its predicate alone,
and the properties of the request are lost.
-/

namespace ThingOS

open GraphState Store List

namespace Store

variable {s t : Store}

def Between (e : GraphEdge) (src : Uuid) (pred : String) (dst : Uuid) : Prop :=
  e.src = src ∧ e.pred = pred ∧ e.dst = dst

lemma canLink_eq_or (s : Store) (bundle : BundleId) (src dst : Uuid) (kind : String) :
    s.canLink bundle src dst kind
      = (bundle == kernelBundleId || s.owns bundle src || s.owns bundle dst
        || (s.edgesOf (bundleNodeId bundle) (Canon.symbolToString Canon.canLink)).any fun edge =>
          (edge.dst == src || edge.dst == dst) &&
            match edge.props[Canon.kind]? with
            | some (.symbol capKind) => Canon.symbolToString capKind == kind
            | _ => true) := by
  unfold canLink edgesOf
  split
  case isTrue hany => rw [hany, Bool.true_or]
  case isFalse hnone =>
    rw [Bool.eq_false_of_not_eq_true hnone, Bool.false_or]
    cases s.edgesBySrcPred[(bundleNodeId bundle, Canon.symbolToString Canon.canLink)]? <;> rfl

/-- More edges permit more links. -/
lemma canLink_mono (h : ∀ src pred, s.edgesOf src pred ⊆ t.edgesOf src pred) {bundle : BundleId}
    {src dst : Uuid} {kind : String} (hs : s.canLink bundle src dst kind = true) :
    t.canLink bundle src dst kind = true := by
  have howns : ∀ node, s.owns bundle node = true → t.owns bundle node = true := by
    intro node
    simp only [owns, hasCapability_eq_any, any_eq_true]
    rintro ⟨e, he, hdst⟩
    exact ⟨e, h _ _ he, hdst⟩
  rw [canLink_eq_or, Bool.or_eq_true, Bool.or_eq_true, Bool.or_eq_true] at hs ⊢
  rcases hs with ((hs | hs) | hs) | hs
  · exact .inl (.inl (.inl hs))
  · exact .inl (.inl (.inr (howns src hs)))
  · exact .inl (.inr (howns dst hs))
  · obtain ⟨e, he, hcap⟩ := any_eq_true.mp hs
    exact .inr (any_eq_true.mpr ⟨e, h _ _ he, hcap⟩)

lemma edgeBetween_eq_find? (s : Store) (src : Uuid) (pred : String) (dst : Uuid) :
    s.edgeBetween src pred dst
      = (s.edgesOf src pred).reverse.find? fun edge => edge.dst == dst := by
  unfold edgeBetween edgesOf
  cases s.edgesBySrcPred[(src, pred)]? <;> rfl

/-- A kept edge is appended to the edges of its source and predicate. -/
lemma edgesOf_insertEdge_of_keeps {edge : GraphEdge} (h : s.KeepsEdge edge) (src : Uuid)
    (pred : String) :
    (s.insertEdge edge).edgesOf src pred
      = if (edge.src, edge.pred) = (src, pred) then s.edgesOf src pred ++ [edge]
        else s.edgesOf src pred := by
  rw [insertEdge_of_keeps h]
  unfold edgesOf
  by_cases hkey : (edge.src, edge.pred) = (src, pred)
  · rw [if_pos hkey, ← hkey, Std.ExtTreeMap.getElem?_insert_self, Option.getD_some]
  · rw [if_neg hkey, getElem?_insert_of_ne hkey]

end Store

/-! ## The effect of a link -/

section Link

variable (ext : Externs) (now : ℕ) (g : GraphState) (bundle : BundleId) (request : GraphLinkRequest)

/-- If the link is answered with a revision other than zero, then afterwards there is an edge with
this revision that is what was asked for, and the same request again gets the same answer and
changes nothing. -/
def LinkTakesEffect : Prop :=
  (linkEdge ext now g bundle request).2 ≠ 0 →
    (∃ e ∈ (linkEdge ext now g bundle request).1.store.edges,
      Store.Between e request.from_ request.pred request.to_
        ∧ e.revision = (linkEdge ext now g bundle request).2 ∧ e.props = request.props)
    ∧ ∀ later, linkEdge ext later (linkEdge ext now g bundle request).1 bundle request
      = linkEdge ext now g bundle request

/-- The request is refused or answered with zero, or the most recent edge with its ends and
predicate has its properties, or there is none and the next revision is above that of the last
edge. -/
def LinkIsFresh (s : Store) (bundle : BundleId) (request : GraphLinkRequest) : Prop :=
  s.canLink bundle request.from_ request.to_ request.pred = false ∨
    match s.edgeBetween request.from_ request.pred request.to_ with
    | some existing => existing.revision = 0 ∨ existing.props = request.props
    | none => s.nextRevision = 0 ∨ ∀ prev ∈ s.edges.getLast?, prev.revision < s.nextRevision

variable {ext now g bundle request}

lemma linkEdge_of_existing {existing : GraphEdge}
    (h : g.store.canLink bundle request.from_ request.to_ request.pred = true)
    (hedge : g.store.edgeBetween request.from_ request.pred request.to_ = some existing) :
    linkEdge ext now g bundle request = (g, existing.revision) := by
  simp [linkEdge, h, hedge]

/-- A link that finds its edge takes effect if the edge has the properties asked for. -/
lemma linkTakesEffect_of_existing (hwf : g.store.WellFormed) (hinc : g.store.Increasing)
    {existing : GraphEdge}
    (h : g.store.canLink bundle request.from_ request.to_ request.pred = true)
    (hedge : g.store.edgeBetween request.from_ request.pred request.to_ = some existing) :
    LinkTakesEffect ext now g bundle request
      ↔ existing.revision = 0 ∨ existing.props = request.props := by
  have hlink : ∀ later, linkEdge ext later g bundle request = (g, existing.revision) :=
    fun later => linkEdge_of_existing h hedge
  obtain ⟨hmem, hbetween⟩ := hwf.of_edgeBetween hedge
  simp only [LinkTakesEffect, hlink, implies_true, and_true]
  constructor
  · intro heffect
    refine or_iff_not_imp_left.mpr fun hne => ?_
    obtain ⟨e, he, -, hrev, hprops⟩ := heffect hne
    -- No two edges have the same revision.
    have hnodup : (g.store.edges.map GraphEdge.revision).Nodup :=
      (pairwise_map.mpr hinc.edges).imp ne_of_lt
    rwa [inj_on_of_nodup_map hnodup he hmem hrev] at hprops
  · rintro (hzero | hprops) hne
    · exact absurd hzero hne
    · exact ⟨existing, hmem, hbetween, rfl, hprops⟩

lemma linkTakesEffect_of_kept
    (h : g.store.canLink bundle request.from_ request.to_ request.pred = true)
    (hnew : g.store.edgeBetween request.from_ request.pred request.to_ = none)
    (hkeeps : ∀ prev ∈ g.store.edges.getLast?, prev.revision < g.store.nextRevision) :
    LinkTakesEffect ext now g bundle request := by
  obtain ⟨hgraph, hrev⟩ := linkEdge_of_new ext now g bundle h hnew
  have hkept : g.store.takeNextRevision.2.KeepsEdge
      (linkRequestEdge ext bundle request g.store.nextRevision) := hkeeps
  have hedges : ∀ src pred, (linkEdge ext now g bundle request).1.store.edgesOf src pred
      = if (request.from_, request.pred) = (src, pred) then
          g.store.edgesOf src pred ++ [linkRequestEdge ext bundle request g.store.nextRevision]
        else g.store.edgesOf src pred := by
    intro src pred
    rw [edgesOf, edgesBySrcPred_eq_of_graph hgraph]
    exact edgesOf_insertEdge_of_keeps hkept src pred
  intro _
  constructor
  · refine ⟨linkRequestEdge ext bundle request g.store.nextRevision, ?_, ⟨rfl, rfl, rfl⟩, ?_, rfl⟩
    · rw [edges_eq_of_graph hgraph, commitEdge, insertEdge_of_keeps hkept]
      exact mem_append_right _ (mem_singleton_self _)
    · exact hrev.symm
  · intro later
    have hcan : (linkEdge ext now g bundle request).1.store.canLink bundle request.from_
        request.to_ request.pred = true := by
      refine canLink_mono (fun src pred => ?_) h
      rw [hedges]
      split
      · exact subset_append_left _ _
      · exact List.Subset.refl _
    have hbetween : (linkEdge ext now g bundle request).1.store.edgeBetween request.from_
        request.pred request.to_
          = some (linkRequestEdge ext bundle request g.store.nextRevision) := by
      rw [edgeBetween_eq_find?, hedges, if_pos rfl, reverse_concat,
        find?_cons_of_pos]
      exact beq_self_eq_true _
    rw [linkEdge_of_existing hcan hbetween]
    exact Prod.ext rfl hrev.symm

lemma not_linkTakesEffect_of_dropped (hwf : g.store.WellFormed)
    (h : g.store.canLink bundle request.from_ request.to_ request.pred = true)
    (hnew : g.store.edgeBetween request.from_ request.pred request.to_ = none)
    (hpos : g.store.nextRevision ≠ 0)
    (hdrops : ¬ ∀ prev ∈ g.store.edges.getLast?, prev.revision < g.store.nextRevision) :
    ¬ LinkTakesEffect ext now g bundle request := by
  obtain ⟨hgraph, hrev⟩ := linkEdge_of_new ext now g bundle h hnew
  intro heffect
  obtain ⟨⟨e, he, ⟨hsrc, hpred, hdst⟩, -⟩, -⟩ := heffect (hrev ▸ hpos)
  have hdropped : ¬ g.store.takeNextRevision.2.KeepsEdge
      (linkRequestEdge ext bundle request g.store.nextRevision) := hdrops
  rw [edges_eq_of_graph hgraph, commitEdge,
    insertEdge_of_not_keeps hdropped] at he
  exact hwf.edgeBetween_ne_none he hsrc hpred hdst hnew

end Link

/-- In a store whose structures agree and whose edges are in order of revisions, as they are in
every reachable one, a link takes effect exactly if it is fresh. -/
theorem link_effect_iff (ext : Externs) (now : ℕ) (g : GraphState) (bundle : BundleId)
    (request : GraphLinkRequest) (hwf : g.store.WellFormed) (hinc : g.store.Increasing) :
    LinkTakesEffect ext now g bundle request ↔ LinkIsFresh g.store bundle request := by
  unfold LinkIsFresh
  cases h : g.store.canLink bundle request.from_ request.to_ request.pred with
  | false =>
    refine iff_of_true ?_ (.inl rfl)
    intro hne
    simp [linkEdge, h] at hne
  | true =>
    simp only [Bool.true_eq_false, false_or]
    cases hedge : g.store.edgeBetween request.from_ request.pred request.to_ with
    | some existing => exact linkTakesEffect_of_existing hwf hinc h hedge
    | none =>
      constructor
      · intro heffect
        refine or_iff_not_imp_left.mpr fun hpos => ?_
        by_contra hdrops
        exact not_linkTakesEffect_of_dropped hwf h hedge hpos hdrops heffect
      · rintro (hzero | hkeeps)
        · intro hne
          exact absurd ((linkEdge_of_new ext now g bundle h hedge).2.trans hzero) hne
        · exact linkTakesEffect_of_kept h hedge hkeeps

/-- The kernel links the Thing `1` to the Thing `2` without properties. -/
def linkPlain : GraphLinkRequest := ⟨none, "NEXT", 1#128, 2#128, ∅⟩

/-- The same ends and predicate, with a property. -/
def linkNamed : GraphLinkRequest := { linkPlain with props := (∅ : Map).insert Canon.id .null }

theorem link_effect_iff_linked :
    let after := reach crates [⟨kernelBundleId, 0, .linkEdge linkPlain⟩]
    (after.store.edges.map fun e => decide (e.props = linkNamed.props)) = [false]
      ∧ (LinkTakesEffect crates 0 after kernelBundleId linkNamed
        ↔ LinkIsFresh after.store kernelBundleId linkNamed) :=
  ⟨by decide +kernel, link_effect_iff crates 0 _ kernelBundleId linkNamed
    (reach_wellFormed crates _) (reach_increasing crates _)⟩

/-- After the plain link, the named one is answered with the revision of the plain one, and no edge
has the property. -/
theorem link_props_lost :
    ¬ LinkTakesEffect crates 0 (linkEdge crates 0 new kernelBundleId linkPlain).1 kernelBundleId
      linkNamed := by
  intro heffect
  obtain ⟨⟨e, he, -, -, hprops⟩, -⟩ := heffect (by decide +kernel)
  revert e
  decide +kernel

end ThingOS
