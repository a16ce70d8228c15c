import ThingOS.Kernel.Graph.FindByKind

/-!
# The kind index and current kinds

The kind index files an id under every kind one of its versions had; queries by kind return current
versions. The two agree as long as no Thing changes its kind, which `OneKind` says. A declaration
may change the kind of a Thing that is there, such as the node that its bundle has just got.
-/

namespace ThingOS

open GraphState Store Std.ExtTreeMap Std.ExtTreeSet

variable {ext : Externs} {s t : Store} {c : Call}

/-! ## One kind for each Thing -/

namespace Store

/-- No Thing has versions of different kinds. -/
def OneKind (s : Store) : Prop := ∀ id, ∀ v ∈ s.versions id, ∀ w ∈ s.versions id, v.kind = w.kind

lemma OneKind.of_graph (h : s.graph = t.graph) (ht : t.OneKind) : s.OneKind := by
  intro id
  rw [versions_eq_of_graph h]
  exact ht id

lemma OneKind.insertThing (h : s.OneKind) {thing : GraphThing}
    (hkind : ∀ v ∈ s.versions thing.id, v.kind = thing.kind) : (s.insertThing thing).OneKind := by
  intro id v hv w hw
  rw [versions_insertThing] at hv hw
  split at hv
  · grind
  · rename_i hid
    rw [if_neg hid] at hw
    exact h id v hv w hw

lemma OneKind.commitThing (h : s.OneKind) {thing : ℕ → GraphThing}
    (hkind : ∀ v ∈ s.versions (thing s.nextRevision).id, v.kind = (thing s.nextRevision).kind) :
    (s.commitThing thing).OneKind :=
  insertThing (s := s.takeNextRevision.2) h hkind

lemma OneKind.ensureBundleNode (h : s.OneKind) (bundle : BundleId) :
    (s.ensureBundleNode bundle).OneKind := by
  rcases ensureBundleNode_cases s bundle with heq | ⟨hnone, heq⟩
  · rwa [heq]
  · rw [heq]
    refine h.commitThing fun v hv => ?_
    -- there is no version yet
    have hempty : s.versions bundle = [] := by simp [versions, hnone]
    rw [show (bundleNode bundle s.nextRevision).id = bundle from rfl, hempty] at hv
    exact absurd hv List.not_mem_nil

lemma OneKind.kind_eq (h : s.OneKind) {id : Uuid} {v w : GraphThing} (hv : s.latest id = some v)
    (hw : w ∈ s.versions id) : w.kind = v.kind := by
  rw [latest_eq_getLast?] at hv
  exact h id w hw v (List.mem_of_getLast? hv)

/-- What a restored store holds of a Thing comes out of the snapshot. -/
lemma mem_versions_applySnapshot {snapshot : GraphSnapshot} {id : Uuid} {v : GraphThing}
    (h : v ∈ (s.applySnapshot snapshot).versions id) : v ∈ snapshot.things := by
  have hthings : ∀ (things : List GraphThing) (r : Store),
      v ∈ (things.foldl insertThing r).versions id → v ∈ r.versions id ∨ v ∈ things := by
    intro things
    induction things with
    | nil => exact fun r hr => Or.inl hr
    | cons thing things ih =>
      intro r hr
      rcases ih _ hr with hr | hr
      · grind [versions_insertThing]
      · exact Or.inr (List.mem_cons_of_mem _ hr)
  have hedges : ∀ (edges : List GraphEdge) (r : Store),
      (edges.foldl insertEdge r).versions id = r.versions id := by
    intro edges r
    exact run_invariant (P := fun r' : Store => r'.versions id = r.versions id) edges rfl
      fun r' edge hr' => by rw [versions_insertEdge, hr']
  have hv : v ∈ (snapshot.edges.foldl insertEdge
      (snapshot.things.foldl insertThing s.cleared)).versions id := h
  rw [hedges] at hv
  rcases hthings _ _ hv with hv | hv
  · simp [versions, cleared] at hv
  · exact hv

end Store

/-- A call gives no Thing a second kind: what it declares is new or has the declared kind already,
counting the node that the declaring bundle gets first, and a snapshot has one kind for each id. -/
structure KeepsKinds (ext : Externs) (g : GraphState) (c : Call) : Prop where
  declares : ∀ request, c.op.nodeRequest = some request →
    (∀ v, g.store.latest (nodeId ext c.bundle request) = some v → v.kind = nodeKind request)
    ∧ (nodeId ext c.bundle request = c.bundle → g.store.latest c.bundle = none →
      nodeKind request = Canon.bundle)
  restores : ∀ snapshot, c.op = .applySnapshot snapshot → ∀ v ∈ snapshot.things,
    ∀ w ∈ snapshot.things, v.id = w.id → v.kind = w.kind

namespace Store

/-- The kinds of the versions a declaration finds, after the bundle's node was made. -/
lemma OneKind.kind_of_declares (h : s.OneKind) (hwf : s.WellFormed) {request : GraphNodeRequest}
    (hkinds : (∀ v, s.latest (nodeId ext c.bundle request) = some v → v.kind = nodeKind request)
      ∧ (nodeId ext c.bundle request = c.bundle → s.latest c.bundle = none →
        nodeKind request = Canon.bundle)) :
    ∀ v ∈ (s.ensureBundleNode c.bundle).versions (nodeId ext c.bundle request),
      v.kind = nodeKind request := by
  have hold : ∀ v ∈ s.versions (nodeId ext c.bundle request), v.kind = nodeKind request := by
    intro v hv
    obtain ⟨u, hu⟩ : ∃ u, s.latest (nodeId ext c.bundle request) = some u := by
      rw [latest_eq_getLast?]
      exact Option.isSome_iff_exists.mp (by simpa using List.ne_nil_of_mem hv)
    rw [h.kind_eq hu hv, hkinds.1 u hu]
  rcases ensureBundleNode_cases s c.bundle with heq | ⟨hnone, heq⟩
  · rwa [heq]
  · intro v hv
    rw [heq, Store.commitThing, versions_insertThing] at hv
    split at hv
    · rename_i hid
      rcases List.mem_append.mp hv with hv | hv
      · exact hold v hv
      · rw [List.mem_singleton.mp hv]
        exact (hkinds.2 hid.1.symm ((hwf.latest_eq_none_iff _).mpr hnone)).symm
    · exact hold v hv

lemma OneKind.of_wrote {g : GraphState} (h : g.store.OneKind) (hwf : g.store.WellFormed)
    (hkinds : KeepsKinds ext g c) (hw : Wrote ext g.store c t) : t.OneKind := by
  cases hw with
  | nothing => exact h
  | node request hop =>
    have hall := h.kind_of_declares hwf (hkinds.declares request hop)
    have hcommit : ((g.store.ensureBundleNode c.bundle).commitThing
        (nodeThing ext c.bundle request)).OneKind := (h.ensureBundleNode c.bundle).commitThing hall
    intro id
    rw [versions_commitOwned]
    exact hcommit id
  | props request current hop hcurrent hwrite =>
    refine h.commitThing fun v hv => ?_
    change v ∈ g.store.versions current.id at hv
    rw [hwf.latest_id hcurrent] at hv
    have hkind : v.kind = current.kind := h.kind_eq hcurrent hv
    exact hkind
  | link request hop hlink hnew =>
    intro id
    rw [versions_commitEdge]
    exact h id
  | grant request hop hcap hgrant =>
    intro id
    rw [versions_commitEdge]
    exact h.ensureBundleNode request.grantee id
  | snapshot snap hop =>
    -- every version of the restored store is one of the snapshot's
    intro id v hv w hw
    have hwf' := wellFormed_applySnapshot g.store snap
    refine hkinds.restores snap hop v (mem_versions_applySnapshot hv) w
      (mem_versions_applySnapshot hw) ?_
    rw [hwf'.versions_id id v hv, hwf'.versions_id id w hw]

lemma WellFormed.exists_latest (hwf : s.WellFormed) {k : Symbol} {id : Uuid}
    (h : id ∈ s.kindIds k) : ∃ v, s.latest id = some v := by
  obtain ⟨v, hv, -⟩ := (hwf.mem_kindIds k id).mp h
  rw [latest_eq_getLast?]
  exact Option.isSome_iff_exists.mp (by simpa using List.ne_nil_of_mem hv)

lemma latestOfKind_eq (s : Store) (k : Symbol) :
    s.latestOfKind k = (s.kindIds k).toList.filterMap s.latest := by
  unfold latestOfKind kindIds
  cases s.kindIndex[k]? with
  | none => rfl
  | some ids => rfl

/-- The kernel reads everything, so its pages are aligned. -/
lemma WellFormed.aligned_kernel (hwf : s.WellFormed) (k : Symbol) :
    Paging.Aligned maxResults (s.readThing kernelBundleId) (s.kindIds k).toList := by
  intro i _ id hid
  have hlisted : id ∈ s.kindIds k :=
    mem_toList.mp (List.mem_of_mem_drop (List.mem_of_mem_take hid))
  obtain ⟨v, hv⟩ := hwf.exists_latest hlisted
  simp [readThing, hv, canRead]

lemma readThing_kernel (s : Store) : s.readThing kernelBundleId = s.latest := by
  funext id
  unfold readThing
  cases s.latest id <;> simp [canRead]

/-- All ids in the kind index, once for each kind they are filed under. -/
def filedIds (s : Store) : List Uuid := s.kindIndex.toList.flatMap fun entry => entry.2.toList

lemma kindIds_of_mem {entry : Symbol × Std.ExtTreeSet Uuid compare}
    (h : entry ∈ s.kindIndex.toList) : s.kindIds entry.1 = entry.2 := by
  simp [kindIds, mem_toList_iff_getElem?_eq_some.mp h]

lemma WellFormed.mem_filedIds (hwf : s.WellFormed) (id : Uuid) :
    id ∈ s.filedIds ↔ id ∈ s.things.keys := by
  rw [filedIds, List.mem_flatMap, mem_keys, mem_iff_isSome_getElem?,
    Option.isSome_iff_ne_none, ne_eq, ← hwf.latest_eq_none_iff]
  constructor
  · rintro ⟨entry, hentry, hid⟩
    rw [mem_toList, ← kindIds_of_mem hentry] at hid
    obtain ⟨v, hv⟩ := hwf.exists_latest hid
    simp [hv]
  · intro hid
    obtain ⟨v, hv⟩ := Option.ne_none_iff_exists'.mp hid
    have hfiled : id ∈ s.kindIds v.kind := by
      rw [latest_eq_getLast?] at hv
      exact (hwf.mem_kindIds _ _).mpr ⟨v, List.mem_of_getLast? hv, rfl⟩
    cases hindex : s.kindIndex[v.kind]? with
    | none => simp [kindIds, hindex] at hfiled
    | some ids =>
      refine ⟨(v.kind, ids), mem_toList_iff_getElem?_eq_some.mpr hindex, ?_⟩
      simpa [kindIds, hindex] using hfiled

section OneKind

variable (hwf : s.WellFormed) (h : s.OneKind)
include hwf h

/-- The kind index holds the ids whose current version has the kind. -/
lemma OneKind.mem_kindIds_iff (k : Symbol) (id : Uuid) :
    id ∈ s.kindIds k ↔ ∃ v, s.latest id = some v ∧ v.kind = k := by
  constructor
  · intro hid
    obtain ⟨w, hw, hk⟩ := (hwf.mem_kindIds k id).mp hid
    obtain ⟨v, hv⟩ := hwf.exists_latest hid
    exact ⟨v, hv, (h.kind_eq hv hw).symm.trans hk⟩
  · rintro ⟨v, hv, hk⟩
    rw [latest_eq_getLast?] at hv
    exact (hwf.mem_kindIds k id).mpr ⟨v, List.mem_of_getLast? hv, hk⟩

lemma OneKind.mem_latestOfKind (k : Symbol) (v : GraphThing) :
    v ∈ s.latestOfKind k ↔ (∃ id, s.latest id = some v) ∧ v.kind = k := by
  rw [latestOfKind_eq, List.mem_filterMap]
  constructor
  · rintro ⟨id, hid, hv⟩
    obtain ⟨w, hw, hk⟩ := (h.mem_kindIds_iff hwf k id).mp (mem_toList.mp hid)
    obtain rfl : w = v := Option.some.inj (hw.symm.trans hv)
    exact ⟨⟨id, hv⟩, hk⟩
  · rintro ⟨⟨id, hv⟩, hk⟩
    exact ⟨id, mem_toList.mpr ((h.mem_kindIds_iff hwf k id).mpr ⟨v, hv, hk⟩), hv⟩

/-- Every id is filed under at most one kind. -/
lemma OneKind.nodup_filedIds : s.filedIds.Nodup := by
  refine List.nodup_flatMap.mpr ⟨fun entry _ => nodup_toList _, ?_⟩
  refine List.Pairwise.imp_of_mem ?_ distinct_keys_toList
  intro a b ha hb hne id hida hidb
  -- an id under two kinds would have two current kinds
  rw [mem_toList, ← kindIds_of_mem ha, h.mem_kindIds_iff hwf] at hida
  rw [mem_toList, ← kindIds_of_mem hb, h.mem_kindIds_iff hwf] at hidb
  obtain ⟨v, hv, hka⟩ := hida
  obtain ⟨w, hw, hkb⟩ := hidb
  obtain rfl : v = w := Option.some.inj (hv.symm.trans hw)
  exact hne (by rw [← hka, ← hkb]; exact Std.ReflCmp.compare_self)

lemma OneKind.thingCount_eq : s.snapshot.thingCount = s.things.size := by
  have hcount : s.snapshot.thingCount = s.filedIds.length := by
    simp [snapshot, mapValues, filedIds, List.length_flatMap, Function.comp_def]
  have hkeys : s.things.keys.Nodup := by
    simpa [List.Nodup] using distinct_keys (t := s.things)
  have hperm : s.filedIds.Perm s.things.keys :=
    (List.perm_ext_iff_of_nodup (h.nodup_filedIds hwf) hkeys).mpr hwf.mem_filedIds
  rw [hcount, hperm.length_eq, length_keys]

end OneKind

lemma WellFormed.nodup_latestOfKind (hwf : s.WellFormed) (k : Symbol) :
    (s.latestOfKind k).Nodup := by
  rw [latestOfKind_eq]
  refine List.Nodup.filterMap ?_ ?_
  · intro a b v ha hb
    rw [← hwf.latest_id ha, hwf.latest_id hb]
  · exact nodup_toList _

end Store

namespace GraphState

lemma reach_oneKind {calls : List Call}
    (hsteps : EachStep (step ext) (KeepsKinds ext) new calls) :
    (reach ext calls).store.OneKind := by
  have hinit : new.store.WellFormed ∧ new.store.OneKind :=
    ⟨Store.wellFormed_new, fun id v hv => by simp [new, Store.new, Store.versions] at hv⟩
  refine (run_invariant_of_eachStep
    (P := fun g : GraphState => g.store.WellFormed ∧ g.store.OneKind) hsteps hinit ?_).2
  rintro g c hkinds ⟨hwf, hone⟩
  obtain ⟨t, hw, hgraph⟩ := step_wrote ext g c
  exact ⟨(hwf.of_wrote hw).of_graph hgraph, (hone.of_wrote hwf hkinds hw).of_graph hgraph⟩

/-- In a run that gives no Thing a second kind, queries by kind return exactly the Things that have
the kind now, also page by page to the kernel, and the snapshot counts the Things. -/
theorem kind_index_agreement (ext : Externs) (calls : List Call)
    (hsteps : EachStep (step ext) (KeepsKinds ext) new calls) :
    let s := (reach ext calls).store
    (∀ k, (s.latestOfKind k).Nodup
      ∧ ∀ v, v ∈ s.latestOfKind k ↔ (∃ id, s.latest id = some v) ∧ v.kind = k)
    ∧ (∀ kind k, Canon.fromStr kind = some k →
      ∃ pages,
        Paging.follow (s.findByKind kernelBundleId kind) ((s.kindIds k).size + 1) 0 = some pages
          ∧ pages.flatten.Perm (s.latestOfKind k))
    ∧ s.snapshot.thingCount = s.things.size := by
  intro s
  have hwf : s.WellFormed := reach_wellFormed ext calls
  have hone : s.OneKind := reach_oneKind hsteps
  refine ⟨fun k => ⟨hwf.nodup_latestOfKind k, hone.mem_latestOfKind hwf k⟩, ?_,
    hone.thingCount_eq hwf⟩
  intro kind k hkind
  obtain ⟨pages, hpages, hperm⟩ := s.follow_findByKind kernelBundleId hkind
  refine ⟨pages, hpages, ?_⟩
  rw [latestOfKind_eq, ← readThing_kernel]
  exact hperm.mpr (hwf.aligned_kernel k)

theorem kind_index_agreement_declareOne :
    (reach crates [declareOne]).store.snapshot.thingCount
      = (reach crates [declareOne]).store.things.size := by
  refine (kind_index_agreement crates [declareOne] ?_).2.2
  refine eachStep_cons.mpr ⟨⟨fun request hop => ⟨?_, fun hid => ?_⟩, ?_⟩, eachStep_nil _⟩
  · simp [new, Store.new, Store.latest]
  · cases hop
    exact absurd hid (by decide)
  · simp [declareOne]

/-- The bundle `0xb1` declares itself a package, as `create_package_with_id` does. -/
def packageRun : List Call := [⟨0xb1#128, 0, .fiat ⟨some 0xb1#128, Canon.package, [], ∅⟩⟩]

/-- The package stays in the index of bundles, where its first version was, and is counted twice. -/
theorem package_counted_twice :
    ((reach crates packageRun).store.latestOfKind Canon.bundle).map GraphThing.kind
        = [Canon.package]
      ∧ (reach crates packageRun).store.snapshot.thingCount = 2
      ∧ (reach crates packageRun).store.things.size = 1 := by
  decide +kernel

end GraphState

end ThingOS
