import ThingOS.Kernel.Graph.Store

/-!
# What the store's commit functions change

`insert_thing` and `insert_edge` are the only functions that write Things and edges, and both drop
an argument whose revision is not newer. The lemmas here say what each commit function does to the
version lists, the edge list and the two indices. Every operation is one of three commits, possibly
after a bundle node was made: a Thing, a Thing together with its ownership edge, or an edge.
-/

namespace ThingOS

variable {thing : GraphThing}

namespace Store

variable {s : Store}

/-! ## Versions -/

section

variable (s : Store)

lemma latest_eq_getLast? (id : Uuid) : s.latest id = (s.versions id).getLast? := by
  unfold latest versions
  cases s.things[id]? <;> rfl

@[simp] lemma takeNextRevision_fst : s.takeNextRevision.1 = s.nextRevision := rfl

@[simp] lemma takeNextRevision_things : s.takeNextRevision.2.things = s.things := rfl

@[simp] lemma takeNextRevision_edges : s.takeNextRevision.2.edges = s.edges := rfl

@[simp] lemma takeNextRevision_issued :
    s.takeNextRevision.2.issued = s.issued + 1 := rfl

@[simp] lemma takeNextRevision_nextRevision :
    s.takeNextRevision.2.nextRevision = (s.nextRevision + 1) % u64Size := rfl

@[simp] lemma versions_takeNextRevision (id : Uuid) :
    s.takeNextRevision.2.versions id = s.versions id := rfl

end

/-- `insert_thing` keeps its argument: the Thing has no version of the same or a later revision
last. -/
def KeepsThing (s : Store) (thing : GraphThing) : Prop :=
  ∀ prev ∈ (s.versions thing.id).getLast?, prev.revision < thing.revision

def KeepsEdge (s : Store) (edge : GraphEdge) : Prop :=
  ∀ prev ∈ s.edges.getLast?, prev.revision < edge.revision

lemma insertThing_of_keeps (h : s.KeepsThing thing) :
    s.insertThing thing =
      { s with
        things := s.things.insert thing.id (s.versions thing.id ++ [thing])
        kindIndex := s.kindIndex.insert thing.kind ((s.kindIds thing.kind).insert thing.id) } := by
  cases hlast : (s.versions thing.id).getLast? with
  | none => simp [insertThing, hlast]
  | some prev => simp [insertThing, hlast, h prev (by simp [hlast])]

/-- A Thing that is not newer is dropped. -/
lemma insertThing_of_not_keeps (h : ¬ s.KeepsThing thing) :
    s.insertThing thing = { s with discarded := s.discarded ++ [.thing thing] } := by
  unfold insertThing
  simp only [KeepsThing, Option.mem_def, not_forall] at h
  obtain ⟨prev, hlast, hrev⟩ := h
  simp [hlast, hrev]

lemma insertEdge_of_keeps {edge : GraphEdge} (h : s.KeepsEdge edge) :
    s.insertEdge edge =
      { s with
        edges := s.edges ++ [edge]
        edgesBySrcPred :=
          s.edgesBySrcPred.insert (edge.src, edge.pred)
            (s.edgesOf edge.src edge.pred ++ [edge]) } := by
  cases hlast : s.edges.getLast? with
  | none => simp [insertEdge, hlast]
  | some prev => simp [insertEdge, hlast, h prev (by simp [hlast])]

/-- An edge that is not newer is dropped. -/
lemma insertEdge_of_not_keeps {edge : GraphEdge} (h : ¬ s.KeepsEdge edge) :
    s.insertEdge edge = { s with discarded := s.discarded ++ [.edge edge] } := by
  unfold insertEdge
  simp only [KeepsEdge, Option.mem_def, not_forall] at h
  obtain ⟨prev, hlast, hrev⟩ := h
  simp [hlast, hrev]

/-- A kept Thing is appended to its own version list and to no other. -/
lemma versions_insertThing_of_keeps (h : s.KeepsThing thing) (id : Uuid) :
    (s.insertThing thing).versions id
      = if thing.id = id then s.versions id ++ [thing] else s.versions id := by
  rw [insertThing_of_keeps h]
  by_cases hid : thing.id = id
  · subst hid
    simp [versions]
  · simp [versions, Std.ExtTreeMap.getElem?_insert, hid]

open Classical in
/-- Keeping or dropping, `insert_thing` touches at most the version list of its argument. -/
lemma versions_insertThing (s : Store) (thing : GraphThing) (id : Uuid) :
    (s.insertThing thing).versions id
      = if thing.id = id ∧ s.KeepsThing thing then s.versions id ++ [thing] else s.versions id := by
  by_cases h : s.KeepsThing thing
  · simp [versions_insertThing_of_keeps h, h]
  · simp only [h, and_false, if_false]
    rw [insertThing_of_not_keeps h]
    rfl

open Classical in
/-- An edge that is newer goes to the end. -/
lemma edges_insertEdge (s : Store) (edge : GraphEdge) :
    (s.insertEdge edge).edges = if s.KeepsEdge edge then s.edges ++ [edge] else s.edges := by
  by_cases h : s.KeepsEdge edge
  · rw [insertEdge_of_keeps h, if_pos h]
  · rw [insertEdge_of_not_keeps h, if_neg h]

section

variable (s : Store) (thing : GraphThing)

/-- `insert_thing` leaves every field but the Things, the kind index and the ghost log alone. -/
lemma insertThing_frame : (s.insertThing thing).edges = s.edges
      ∧ (s.insertThing thing).edgesBySrcPred = s.edgesBySrcPred
      ∧ (s.insertThing thing).watches = s.watches
      ∧ (s.insertThing thing).nextRevision = s.nextRevision
      ∧ (s.insertThing thing).nextWatchId = s.nextWatchId
      ∧ (s.insertThing thing).issued = s.issued := by
  by_cases h : s.KeepsThing thing
  · simp [insertThing_of_keeps h]
  · simp [insertThing_of_not_keeps h]

@[simp] lemma insertThing_edges :
    (s.insertThing thing).edges = s.edges := (insertThing_frame s thing).1

@[simp] lemma insertThing_edgesBySrcPred :
    (s.insertThing thing).edgesBySrcPred = s.edgesBySrcPred := (insertThing_frame s thing).2.1

@[simp] lemma insertThing_watches :
    (s.insertThing thing).watches = s.watches := (insertThing_frame s thing).2.2.1

@[simp] lemma insertThing_nextRevision :
    (s.insertThing thing).nextRevision = s.nextRevision := (insertThing_frame s thing).2.2.2.1

@[simp] lemma insertThing_issued :
    (s.insertThing thing).issued = s.issued := (insertThing_frame s thing).2.2.2.2.2

end

section

variable (s : Store) (edge : GraphEdge)

/-- `insert_edge` leaves every field but the edges, their index and the ghost log alone. -/
lemma insertEdge_frame : (s.insertEdge edge).things = s.things
      ∧ (s.insertEdge edge).kindIndex = s.kindIndex
      ∧ (s.insertEdge edge).watches = s.watches
      ∧ (s.insertEdge edge).nextRevision = s.nextRevision
      ∧ (s.insertEdge edge).nextWatchId = s.nextWatchId
      ∧ (s.insertEdge edge).issued = s.issued := by
  by_cases h : s.KeepsEdge edge
  · simp [insertEdge_of_keeps h]
  · simp [insertEdge_of_not_keeps h]

@[simp] lemma insertEdge_things :
    (s.insertEdge edge).things = s.things := (insertEdge_frame s edge).1

@[simp] lemma insertEdge_kindIndex :
    (s.insertEdge edge).kindIndex = s.kindIndex := (insertEdge_frame s edge).2.1

@[simp] lemma insertEdge_watches :
    (s.insertEdge edge).watches = s.watches := (insertEdge_frame s edge).2.2.1

@[simp] lemma insertEdge_nextRevision :
    (s.insertEdge edge).nextRevision = s.nextRevision := (insertEdge_frame s edge).2.2.2.1

@[simp] lemma insertEdge_issued :
    (s.insertEdge edge).issued = s.issued := (insertEdge_frame s edge).2.2.2.2.2

@[simp] lemma versions_insertEdge (id : Uuid) :
    (s.insertEdge edge).versions id = s.versions id := by
  simp [versions]

end

/-! ## Notification -/

/-- Notifying watches changes nothing but their queues. -/
lemma notifyWatches_eq (s : Store) (change : GraphChange) :
    ∃ watches, s.notifyWatches change = { s with watches } := by
  have hloop : ∀ (specs : List (WatchId × BundleId × NodePattern)) (t : Store),
      (∃ watches, t = { s with watches }) →
      ∃ watches, specs.foldl (notifyWatch change (s.changeTarget change) (changeEdge change)) t
        = { s with watches } := by
    intro specs
    induction specs with
    | nil => exact fun t ht => ht
    | cons spec specs ih =>
      rintro t ⟨watches, rfl⟩
      apply ih
      unfold notifyWatch
      repeat' split
      all_goals exact ⟨_, rfl⟩
  exact hloop _ s ⟨s.watches, rfl⟩

/-! ## The three commits -/

def commitThing (s : Store) (thing : ℕ → GraphThing) : Store :=
  s.takeNextRevision.2.insertThing (thing s.nextRevision)

def commitEdge (s : Store) (edge : ℕ → GraphEdge) : Store :=
  s.takeNextRevision.2.insertEdge (edge s.nextRevision)

/-- Take a revision, insert the Thing built with it and, under the same revision, the edge that
makes `owner` its owner. -/
def commitOwned (ext : Externs) (s : Store) (owner : BundleId) (thing : ℕ → GraphThing) : Store :=
  addOwnershipEdge ext (s.commitThing thing) owner (thing s.nextRevision).id s.nextRevision

lemma ensureBundleNode_of_isSome {bundle : BundleId} (h : s.things[bundle]?.isSome) :
    s.ensureBundleNode bundle = s := by
  simp [ensureBundleNode, bundleNodeId, h]

lemma ensureBundleNode_of_none {bundle : BundleId} (h : s.things[bundle]? = none) :
    s.ensureBundleNode bundle = s.commitThing (bundleNode bundle) := by
  simp [ensureBundleNode, bundleNodeId, h, commitThing]

/-- Making sure of a bundle node is either nothing or one commit. -/
lemma ensureBundleNode_cases (s : Store) (bundle : BundleId) :
    s.ensureBundleNode bundle = s
      ∨ s.things[bundle]? = none
        ∧ s.ensureBundleNode bundle = s.commitThing (bundleNode bundle) := by
  cases h : s.things[bundle]? with
  | none => exact Or.inr ⟨rfl, ensureBundleNode_of_none h⟩
  | some vs => exact Or.inl (ensureBundleNode_of_isSome (by simp [h]))

/-- A property kept by the commit of a bundle node is kept by `ensure_bundle_node`. -/
lemma ensureBundleNode_induction {P : Store → Prop} (bundle : BundleId) (hs : P s)
    (hcommit : P (s.commitThing (bundleNode bundle))) : P (s.ensureBundleNode bundle) := by
  rcases ensureBundleNode_cases s bundle with h | ⟨-, h⟩
  · rwa [h]
  · rwa [h]

@[simp] lemma commitThing_edges (s : Store) (thing : ℕ → GraphThing) :
    (s.commitThing thing).edges = s.edges := by
  simp [commitThing]

@[simp] lemma commitThing_issued (s : Store) (thing : ℕ → GraphThing) :
    (s.commitThing thing).issued = s.issued + 1 := by
  simp [commitThing]

@[simp] lemma commitEdge_issued (s : Store) (edge : ℕ → GraphEdge) :
    (s.commitEdge edge).issued = s.issued + 1 := by
  simp [commitEdge]

@[simp] lemma commitOwned_issued (ext : Externs) (s : Store) (owner : BundleId)
    (thing : ℕ → GraphThing) : (commitOwned ext s owner thing).issued = s.issued + 1 := by
  simp [commitOwned, addOwnershipEdge]

lemma issued_le_ensureBundleNode (s : Store) (bundle : BundleId) :
    s.issued ≤ (s.ensureBundleNode bundle).issued :=
  ensureBundleNode_induction (P := fun t => s.issued ≤ t.issued) bundle le_rfl (by simp)

@[simp] lemma ensureBundleNode_edges (s : Store) (bundle : BundleId) :
    (s.ensureBundleNode bundle).edges = s.edges :=
  ensureBundleNode_induction (P := fun t => t.edges = s.edges) bundle rfl (by simp)

/-! ## Lists only grow -/

/-- Edges are only added. -/
lemma edges_grow_insertEdge (s : Store) (edge : GraphEdge) :
    s.edges <+: (s.insertEdge edge).edges := by
  rw [edges_insertEdge]
  split
  · exact List.prefix_append _ _
  · exact List.prefix_rfl

lemma edges_grow_commitEdge (s : Store) (edge : ℕ → GraphEdge) :
    s.edges <+: (s.commitEdge edge).edges :=
  edges_grow_insertEdge s.takeNextRevision.2 _

lemma edges_grow_commitOwned (ext : Externs) (s : Store) (owner : BundleId)
    (thing : ℕ → GraphThing) : s.edges <+: (commitOwned ext s owner thing).edges := by
  have h := edges_grow_insertEdge (s.commitThing thing)
    (ownershipEdge ext owner (thing s.nextRevision).id s.nextRevision)
  rwa [commitThing_edges] at h

/-- Versions are only added. -/
lemma versions_grow_insertThing (s : Store) (thing : GraphThing) (id : Uuid) :
    s.versions id <+: (s.insertThing thing).versions id := by
  rw [versions_insertThing]
  split
  · exact List.prefix_append _ _
  · exact List.prefix_rfl

lemma versions_grow_commitThing (s : Store) (thing : ℕ → GraphThing) (id : Uuid) :
    s.versions id <+: (s.commitThing thing).versions id :=
  versions_grow_insertThing s.takeNextRevision.2 _ id

@[simp] lemma versions_commitEdge (s : Store) (edge : ℕ → GraphEdge) (id : Uuid) :
    (s.commitEdge edge).versions id = s.versions id := by
  simp [commitEdge]

@[simp] lemma versions_commitOwned (ext : Externs) (s : Store) (owner : BundleId)
    (thing : ℕ → GraphThing) (id : Uuid) :
    (commitOwned ext s owner thing).versions id = (s.commitThing thing).versions id := by
  simp [commitOwned, addOwnershipEdge]

lemma versions_grow_ensureBundleNode (s : Store) (bundle : BundleId) (id : Uuid) :
    s.versions id <+: (s.ensureBundleNode bundle).versions id :=
  ensureBundleNode_induction (P := fun t => s.versions id <+: t.versions id) bundle List.prefix_rfl
    (versions_grow_commitThing s _ id)

end Store

end ThingOS
