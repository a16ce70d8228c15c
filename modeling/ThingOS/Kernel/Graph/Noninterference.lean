import ThingOS.Kernel.Graph.FindByKind

/-!
# What queries reveal

Two stores *agree for* a bundle when they hold the same authority edges out of its node and the same
versions of every Thing it may read. `get_nodes` and `get_props` cannot tell such stores apart.
`find_by_kind` can: its cursor counts the entries of the kind index, also those that the bundle may
not read, and the theorem says exactly when they do not show.
-/

namespace ThingOS

open GraphState Store Std.ExtTreeMap List

/-- Two stores agree on everything a bundle may see. -/
structure AgreeFor (bundle : BundleId) (s t : Store) : Prop where
  edges : ∀ predicate ∈ [Canon.owns, Canon.canRead, Canon.canWrite],
    s.edgesOf bundle (Canon.symbolToString predicate)
      = t.edgesOf bundle (Canon.symbolToString predicate)
  versions : ∀ id, s.canRead bundle id = true → s.versions id = t.versions id

variable {ext : Externs} {s t : Store} {bundle : BundleId}

namespace AgreeFor

variable (h : AgreeFor bundle s t)
include h

lemma canRead_eq (id : Uuid) : s.canRead bundle id = t.canRead bundle id := by
  have hcap : ∀ predicate ∈ [Canon.owns, Canon.canRead, Canon.canWrite],
      s.hasCapability bundle id predicate = t.hasCapability bundle id predicate := by
    intro predicate hpredicate
    rw [hasCapability_eq_any, hasCapability_eq_any, h.edges predicate hpredicate]
  simp only [canRead, canWrite, owns, hcap Canon.owns (by simp),
    hcap Canon.canRead (by simp), hcap Canon.canWrite (by simp)]

lemma latest_eq {id : Uuid} (hread : s.canRead bundle id = true) : s.latest id = t.latest id := by
  rw [latest_eq_getLast?, latest_eq_getLast?, h.versions id hread]

end AgreeFor

namespace Store

/-- The version lists determine the map they are kept in. -/
lemma WellFormed.things_eq (hwf : s.WellFormed) (id : Uuid) :
    s.things[id]? = if s.versions id = [] then none else some (s.versions id) := by
  unfold versions
  cases hid : s.things[id]? with
  | none => simp
  | some vs => simp [hwf.versions_ne_nil id vs hid]

lemma WellFormed.readThing_eq (hwf : s.WellFormed) (id : Uuid) :
    s.readThing bundle id = if s.canRead bundle id = true then s.latest id else none := by
  unfold readThing
  cases hlatest : s.latest id with
  | none => simp
  | some v =>
    rw [Option.filter_some, hwf.latest_id hlatest]

lemma WellFormed.nodup_readThing (hwf : s.WellFormed) (k : Symbol) :
    ((s.kindIds k).toList.filterMap (s.readThing bundle)).Nodup := by
  refine List.Nodup.filterMap ?_ (nodup_toList _)
  intro a b v ha hb
  rw [← hwf.latest_id (Option.filter_eq_some_iff.mp ha).1,
    hwf.latest_id (Option.filter_eq_some_iff.mp hb).1]

/-! ## `get_nodes` and `get_props` -/

/-- Filtering current versions by their id is filtering the map by its keys. -/
lemma WellFormed.getNodes_eq (hwf : s.WellFormed) (pattern : NodePattern) :
    s.getNodes bundle pattern
      = ((mapValues (s.things.filter fun id _ => s.canRead bundle id)).filterMap
          List.getLast?).filter fun thing => matchesPattern pattern thing none := by
  unfold getNodes mapValues
  rw [toList_filter, filterMap_map, filter_filterMap, filterMap_map,
    filterMap_filter, filter_filterMap]
  refine filterMap_congr fun entry hentry => ?_
  -- the source asks about the id inside the version, the map is filtered by its key
  have hlatest : s.latest entry.1 = entry.2.getLast? := by
    simp [latest, mem_toList_iff_getElem?_eq_some.mp hentry]
  cases hlast : entry.2.getLast? with
  | none => simp [hlast]
  | some v =>
    rw [hlast] at hlatest
    cases hread : s.canRead bundle entry.1 <;>
      simp [hlast, hwf.latest_id hlatest, hread, Option.filter_some]

end Store

namespace AgreeFor

variable (h : AgreeFor bundle s t) (hs : s.WellFormed) (ht : t.WellFormed)
include h hs ht

lemma things_filter_eq :
    (s.things.filter fun id _ => s.canRead bundle id)
      = t.things.filter fun id _ => t.canRead bundle id := by
  refine ext_getElem? fun id => ?_
  rw [getElem?_filter', getElem?_filter', hs.things_eq, ht.things_eq,
    ← h.canRead_eq]
  cases hread : s.canRead bundle id with
  | true => rw [h.versions id hread]
  | false => simp

lemma getNodes_eq (pattern : NodePattern) :
    s.getNodes bundle pattern = t.getNodes bundle pattern := by
  rw [hs.getNodes_eq, ht.getNodes_eq, h.things_filter_eq hs ht]

lemma getProps_eq (request : GraphPropsGetRequest) :
    s.getProps bundle request = t.getProps bundle request := by
  cases hread : s.canRead bundle request.node with
  | true => simp only [getProps, h.latest_eq hread, h.canRead_eq]
  | false =>
    -- whatever Thing either store has there, the bundle may not read it
    have hnone : ∀ {r : Store}, r.WellFormed → r.canRead bundle request.node = false →
        r.getProps bundle request = none := by
      intro r hr hfalse
      unfold getProps
      cases hlatest : r.latest request.node with
      | none => rfl
      | some v => simp [hr.latest_id hlatest, hfalse]
    have hread' : t.canRead bundle request.node = false := by rw [← h.canRead_eq, hread]
    exact (hnone hs hread).trans (hnone ht hread').symm

/-! ## `find_by_kind` -/

lemma kindIds_filter_eq (k : Symbol) :
    ((s.kindIds k).toList.filter fun id => s.canRead bundle id)
      = (t.kindIds k).toList.filter fun id => t.canRead bundle id := by
  rw [← Std.ExtTreeSet.toList_filter, ← Std.ExtTreeSet.toList_filter]
  congr 1
  refine Std.ExtTreeSet.ext_mem fun id => ?_
  simp only [Std.ExtTreeSet.mem_filter, Std.ExtTreeSet.get_eq, exists_prop, hs.mem_kindIds,
    ht.mem_kindIds, ← h.canRead_eq]
  refine and_congr_left fun hread => ?_
  rw [h.versions id hread]

lemma filterMap_readThing_eq (k : Symbol) :
    (s.kindIds k).toList.filterMap (s.readThing bundle)
      = (t.kindIds k).toList.filterMap (t.readThing bundle) := by
  have hfilter : ∀ {r : Store}, r.WellFormed → (r.kindIds k).toList.filterMap (r.readThing bundle)
      = ((r.kindIds k).toList.filter fun id => r.canRead bundle id).filterMap r.latest := by
    intro r hr
    rw [filterMap_filter]
    exact filterMap_congr fun id _ => hr.readThing_eq id
  -- the same ids are left on both sides, and readable ids have the same versions
  rw [hfilter hs, hfilter ht, ← h.kindIds_filter_eq hs ht]
  refine filterMap_congr fun id hid => ?_
  exact h.latest_eq (mem_filter.mp hid).2

end AgreeFor

namespace GraphState

/-- Reachable stores that agree for a bundle give it the same Things and properties. They give it
the same answer to a cursor exactly if equally many readable entries stand before the cursor, and
the hundredth readable one behind it is followed by an entry in both or in neither. -/
theorem read_noninterference (ext : Externs) (calls calls' : List Call) (bundle : BundleId)
    (h : AgreeFor bundle (reach ext calls).store (reach ext calls').store) :
    let s := (reach ext calls).store
    let t := (reach ext calls').store
    (∀ pattern, s.getNodes bundle pattern = t.getNodes bundle pattern)
    ∧ (∀ request, s.getProps bundle request = t.getProps bundle request)
    ∧ ∀ kind cursor, s.findByKind bundle kind cursor = t.findByKind bundle kind cursor
      ↔ ∀ k, Canon.fromStr kind = some k →
        (((s.kindIds k).toList.take cursor).filterMap (s.readThing bundle)).length
            = (((t.kindIds k).toList.take cursor).filterMap (t.readThing bundle)).length
        ∧ (Paging.More maxResults (s.readThing bundle) ((s.kindIds k).toList.drop cursor)
          ↔ Paging.More maxResults (t.readThing bundle)
            ((t.kindIds k).toList.drop cursor)) := by
  intro s t
  have hs : s.WellFormed := reach_wellFormed ext calls
  have ht : t.WellFormed := reach_wellFormed ext calls'
  refine ⟨h.getNodes_eq hs ht, h.getProps_eq hs ht, fun kind cursor => ?_⟩
  cases hkind : Canon.fromStr kind with
  | none => simp [findByKind, hkind]
  | some k =>
    rw [findByKind_eq_page s bundle hkind, findByKind_eq_page t bundle hkind,
      Paging.page_eq_page_iff (by decide) (h.filterMap_readThing_eq hs ht k) (hs.nodup_readThing k)]
    simp only [Option.some_inj, forall_eq']
    rfl

/-- The kernel declares the Thing `3` of some kind, then the bundle `0xb1` the style `5`. -/
def twoThings (kind : Symbol) : List Call :=
  [⟨kernelBundleId, 0, .fiat ⟨some 3#128, kind, [], ∅⟩⟩,
    ⟨0xb1#128, 0, .fiat ⟨some 5#128, Canon.style, [], ∅⟩⟩]

/-- The bundle owns the style and has no other authority. -/
lemma edgesOf_twoThings {kind : Symbol} (hkind : kind = Canon.keyboard ∨ kind = Canon.style) :
    (reach crates (twoThings kind)).store.edgesOf 0xb1#128 "OWNS"
        = [ownershipEdge crates 0xb1#128 5#128 4]
      ∧ (reach crates (twoThings kind)).store.edgesOf 0xb1#128 "CAN_READ" = []
      ∧ (reach crates (twoThings kind)).store.edgesOf 0xb1#128 "CAN_WRITE" = [] := by
  rcases hkind with rfl | rfl <;> exact ⟨by decide +kernel, by decide +kernel, by decide +kernel⟩

/-- Whatever kind the kernel's Thing has, the bundle may read only its own. -/
lemma agreeFor_twoThings :
    AgreeFor 0xb1#128 (reach crates (twoThings Canon.keyboard)).store
      (reach crates (twoThings Canon.style)).store := by
  obtain ⟨howns, hread, hwrite⟩ := edgesOf_twoThings (Or.inl rfl)
  obtain ⟨howns', hread', hwrite'⟩ := edgesOf_twoThings (Or.inr rfl)
  constructor
  · intro predicate hpredicate
    simp only [mem_cons, not_mem_nil, or_false] at hpredicate
    rcases hpredicate with rfl | rfl | rfl
    · rw [Canon.symbolToString_owns, howns, howns']
    · rw [Canon.symbolToString_canRead, hread, hread']
    · rw [Canon.symbolToString_canWrite, hwrite, hwrite']
  · intro id hcan
    have hid : 5#128 = id := by
      have hbundle : (0xb1#128 : BundleId) ≠ kernelBundleId := by decide
      simpa [canRead, canWrite, owns, hasCapability_eq_any, howns, hread,
        hwrite, ownershipEdge, hbundle] using hcan
    rw [← hid]
    decide +kernel

theorem read_noninterference_twoThings :
    (reach crates (twoThings Canon.keyboard)).store.getProps 0xb1#128 ⟨5#128, []⟩
      = (reach crates (twoThings Canon.style)).store.getProps 0xb1#128 ⟨5#128, []⟩ :=
  (read_noninterference crates _ _ _ agreeFor_twoThings).2.1 ⟨5#128, []⟩

/-- Behind cursor `1` the bundle finds its own Thing or nothing, depending on a Thing it may not
read. -/
theorem cursor_reveals_hidden :
    AgreeFor 0xb1#128 (reach crates (twoThings Canon.keyboard)).store
        (reach crates (twoThings Canon.style)).store
      ∧ (reach crates (twoThings Canon.keyboard)).store.findByKind 0xb1#128 "style" 1
        ≠ (reach crates (twoThings Canon.style)).store.findByKind 0xb1#128 "style" 1 :=
  ⟨agreeFor_twoThings, by decide +kernel⟩

end GraphState

end ThingOS
