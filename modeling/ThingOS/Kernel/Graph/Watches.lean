import ThingOS.Kernel.Graph.Step

/-!
# What a call does to the watches

Four operations commit a change and then walk over the watches; two register a watch; one empties a
queue; a restore forgets them all. `notified` names the change a call commits together with the
store in the middle of the commit, where `change_visible_to` and `matches_pattern` look.
`step_watches` is the inversion of a step for watches.
-/

namespace ThingOS

open GraphState Store Std.ExtTreeMap

def GraphChange.revision : GraphChange → ℕ
  | .thing t => t.revision
  | .edge e => e.revision

variable {change : GraphChange}

namespace Store

variable {s t : Store} {id : WatchId}

/-! ## Notification, seen from one watch -/

/-- The loop of `notify_watches` queues the change for a watch with this owner and pattern. -/
def sees (s : Store) (owner : BundleId) (pattern : NodePattern) (change : GraphChange) : Bool :=
  s.changeVisibleTo owner change &&
    match s.changeTarget change with
    | none => false
    | some node => matchesPattern pattern node (changeEdge change)

/-- A watch after the loop has passed it. -/
def tell (s : Store) (change : GraphChange) (watch : Watch) : Watch :=
  if s.sees watch.owner watch.pattern change then watch.push change else watch

def WatchesFiled (s : Store) : Prop :=
  ∀ (id : WatchId) watch, s.watches[id]? = some watch → watch.id = id

lemma changeVisibleTo_congr (h : t.edgesBySrcPred = s.edgesBySrcPred) (owner : BundleId)
    (change : GraphChange) : t.changeVisibleTo owner change = s.changeVisibleTo owner change := by
  cases change <;> simp only [changeVisibleTo, canRead, canWrite, owns, hasCapability, h]

/-- One round of the loop touches the watch it is about and no other. -/
lemma getElem?_notifyWatch (change : GraphChange) {watch : Watch}
    (hwatch : t.watches[watch.id]? = some watch) (hedges : t.edgesBySrcPred = s.edgesBySrcPred)
    (id : WatchId) :
    (notifyWatch change (s.changeTarget change) (changeEdge change) t
        (watch.id, watch.owner, watch.pattern)).watches[id]?
      = if watch.id = id then some (s.tell change watch) else t.watches[id]? := by
  have hsame : (if watch.id = id then some watch else t.watches[id]?) = t.watches[id]? := by
    split
    · rename_i hid
      rw [← hid, hwatch]
    · rfl
  unfold notifyWatch tell sees
  simp only [changeVisibleTo_congr hedges]
  cases s.changeVisibleTo watch.owner change with
  | false => simpa using hsame.symm
  | true =>
    grind

/-- The loop, over any watches with distinct ids that stand in the store. -/
lemma getElem?_notifyLoop (s : Store) (change : GraphChange) (ws : List Watch) :
    ∀ t : Store, (∃ watches, t = { s with watches }) → (ws.map Watch.id).Nodup →
      (∀ w ∈ ws, t.watches[w.id]? = some w) →
      (run (notifyWatch change (s.changeTarget change) (changeEdge change)) t
          (ws.map fun w => (w.id, w.owner, w.pattern))).watches[id]?
        = if id ∈ ws.map Watch.id then t.watches[id]?.map (s.tell change) else t.watches[id]? := by
  induction ws with
  | nil => intro t _ _ _; simp
  | cons w ws ih =>
    intro t ht hnodup hstand
    obtain ⟨hnotin, hnodup⟩ := List.nodup_cons.mp hnodup
    have hw := hstand w List.mem_cons_self
    have hround := fun k => getElem?_notifyWatch (s := s) change hw
      (by obtain ⟨_, rfl⟩ := ht; rfl) k
    have hnext : ∃ watches, notifyWatch change (s.changeTarget change) (changeEdge change) t
        (w.id, w.owner, w.pattern) = { s with watches } := by
      obtain ⟨watches, rfl⟩ := ht
      unfold notifyWatch
      repeat' split
      all_goals exact ⟨_, rfl⟩
    -- the watches still to come are not the one of this round
    have hrest : ∀ v ∈ ws, (notifyWatch change (s.changeTarget change) (changeEdge change) t
        (w.id, w.owner, w.pattern)).watches[v.id]? = some v := by
      grind
    rw [List.map_cons, run_cons, ih _ hnext hnodup hrest, hround]
    by_cases hid : w.id = id
    · subst hid
      simp [hnotin, hw]
    · simp [hid, Ne.symm hid]

lemma watch_ids_eq_keys (h : s.WatchesFiled) :
    (mapValues s.watches).map Watch.id = s.watches.toList.map Prod.fst := by
  rw [mapValues, List.map_map]
  apply List.map_congr_left
  intro entry hentry
  exact h entry.1 entry.2 (mem_toList_iff_getElem?_eq_some.mp hentry)

lemma nodup_watch_ids (h : s.WatchesFiled) : ((mapValues s.watches).map Watch.id).Nodup := by
  rw [watch_ids_eq_keys h, List.Nodup, List.pairwise_map]
  refine distinct_keys_toList.imp ?_
  intro a b hne heq
  exact hne (by rw [heq]; exact Std.ReflCmp.compare_self)

/-- Notifying tells every watch, each once. -/
lemma getElem?_notifyWatches (h : s.WatchesFiled) (change : GraphChange) (id : WatchId) :
    (s.notifyWatches change).watches[id]? = s.watches[id]?.map (s.tell change) := by
  have hstand : ∀ w ∈ mapValues s.watches, s.watches[w.id]? = some w := by
    intro w hw
    obtain ⟨entry, hentry, rfl⟩ := List.mem_map.mp hw
    have hget := mem_toList_iff_getElem?_eq_some.mp hentry
    rw [h entry.1 entry.2 hget, hget]
  have hloop := @getElem?_notifyLoop id s change (mapValues s.watches) s ⟨s.watches, rfl⟩
    (nodup_watch_ids h) hstand
  refine hloop.trans ?_
  split
  · rfl
  · rename_i hnotin
    -- an id the loop does not walk over has no watch
    cases hid : s.watches[id]? with
    | none => rfl
    | some w =>
      have hmem : w ∈ mapValues s.watches :=
        List.mem_map_of_mem (f := Prod.snd)
          (mem_toList_iff_getElem?_eq_some.mpr hid)
      exact absurd (List.mem_map_of_mem (f := Watch.id) hmem) (by rwa [h id w hid])

/-! ## The change a call commits -/

/-- What `fiat_node` tells the watches: the declared Thing, after its ownership edge went in. -/
def declared (ext : Externs) (s : Store) (owner : BundleId) (request : GraphNodeRequest) :
    Store × GraphChange :=
  let s := s.ensureBundleNode owner
  (commitOwned ext s owner (nodeThing ext owner request),
    .thing (nodeThing ext owner request s.nextRevision))

/-- The change a call commits and tells the watches of, if it commits one, with the store in the
middle of the commit. -/
def notified (ext : Externs) (s : Store) (c : Call) : Option (Store × GraphChange) :=
  match c.op with
  | .fiat request => some (s.declared ext c.bundle (fiatNodeRequest request))
  | .fiatNode request => some (s.declared ext c.bundle request)
  | .setProps request =>
    match s.latest request.node with
    | none => none
    | some current =>
      if s.canWrite c.bundle current.id then
        some (s.commitThing (propsThing current request),
          .thing (propsThing current request s.nextRevision))
      else none
  | .linkEdge request =>
    if s.canLink c.bundle request.from_ request.to_ request.pred then
      match s.edgeBetween request.from_ request.pred request.to_ with
      | some _ => none
      | none =>
        some (s.commitEdge (linkRequestEdge ext c.bundle request),
          .edge (linkRequestEdge ext c.bundle request s.nextRevision))
    else none
  | .grantCapability request =>
    if (isDataCapability request.capability || isHardwareCapability request.capability)
        && canGrant s c.bundle request then
      let s := s.ensureBundleNode request.grantee
      some (s.commitEdge (grantEdge ext c.bundle request),
        .edge (grantEdge ext c.bundle request s.nextRevision))
    else none
  | _ => none

@[simp] lemma takeNextRevision_watches (s : Store) :
    s.takeNextRevision.2.watches = s.watches := rfl

@[simp] lemma commitThing_watches (s : Store) (thing : ℕ → GraphThing) :
    (s.commitThing thing).watches = s.watches := by
  simp [commitThing]

@[simp] lemma commitEdge_watches (s : Store) (edge : ℕ → GraphEdge) :
    (s.commitEdge edge).watches = s.watches := by
  simp [commitEdge]

@[simp] lemma commitOwned_watches (ext : Externs) (s : Store) (owner : BundleId)
    (thing : ℕ → GraphThing) : (commitOwned ext s owner thing).watches = s.watches := by
  simp [commitOwned, addOwnershipEdge]

@[simp] lemma ensureBundleNode_watches (s : Store) (bundle : BundleId) :
    (s.ensureBundleNode bundle).watches = s.watches :=
  ensureBundleNode_induction (P := fun t => t.watches = s.watches) bundle rfl (by simp)

/-- A committed change carries the revision that was next, possibly after a bundle node took one,
and committing it has not touched the watches. -/
lemma notified_spec {ext : Externs} {c : Call} (h : s.notified ext c = some (t, change)) :
    t.watches = s.watches
      ∧ ∃ r, (r = s ∨ ∃ bundle, r = s.ensureBundleNode bundle)
        ∧ t.issued = r.issued + 1 ∧ change.revision = r.nextRevision := by
  unfold notified at h
  cases hop : c.op with
  | fiat | fiatNode =>
    simp only [hop, declared] at h
    cases h
    exact ⟨by simp, _, .inr ⟨c.bundle, rfl⟩, by simp, rfl⟩
  | setProps request =>
    simp only [hop] at h
    split at h
    · cases h
    · split at h
      · cases h
        exact ⟨by simp, s, .inl rfl, by simp, rfl⟩
      · cases h
  | linkEdge request =>
    simp only [hop] at h
    split at h
    · split at h
      · cases h
      · cases h
        exact ⟨by simp, s, .inl rfl, by simp, rfl⟩
    · cases h
  | grantCapability request =>
    simp only [hop] at h
    split at h
    · cases h
      exact ⟨by simp, _, .inr ⟨request.grantee, rfl⟩, by simp, rfl⟩
    · cases h
  | _ => simp [hop] at h

end Store

def Op.watchPattern : Op → Option NodePattern
  | .registerWatch query => some (queryPattern query)
  | .registerWatchPattern pattern => some pattern
  | _ => none

/-- The operations that commit a change when they are accepted. -/
def Op.commits : Op → Bool
  | .fiat _ | .fiatNode _ | .setProps _ | .linkEdge _ | .grantCapability _ => true
  | _ => false

/-- Everything a call can do to the watches, with its answer. -/
inductive Watched (ext : Externs) (s : Store) (c : Call) : Store → Response → Prop
  | told (t : Store) (change : GraphChange) (response : Response)
      (hcommits : c.op.commits = true) (hchange : s.notified ext c = some (t, change))
      (hresponse : ∀ id, response ≠ .watch id) : Watched ext s c (t.notifyWatches change) response
  | refused (response : Response) (hcommits : c.op.commits = true)
      (hchange : s.notified ext c = none) (hresponse : ∀ id, response ≠ .watch id) :
      Watched ext s c s response
  | registered (pattern : NodePattern) (hop : c.op.watchPattern = some pattern) :
      Watched ext s c (s.registerWatchPattern c.bundle pattern).1
        (.watch (s.registerWatchPattern c.bundle pattern).2)
  | polled (id : WatchId) (hop : c.op = .pollWatch id) :
      Watched ext s c (s.pollWatch id).1 (.batch (s.pollWatch id).2)
  | restored (snapshot : GraphSnapshot) (hop : c.op = .applySnapshot snapshot) :
      Watched ext s c (s.applySnapshot snapshot) .none

namespace GraphState

/-- An operation that commits does to the watches what its change says, and hands out no watch. -/
lemma perform_store (ext : Externs) (g : GraphState) {c : Call} (hcommits : c.op.commits = true) :
    (perform ext g c).1.store
        = ((g.store.notified ext c).map fun (t, change) => t.notifyWatches change).getD g.store
      ∧ ∀ id, (perform ext g c).2 ≠ .watch id := by
  unfold perform notified
  cases hop : c.op with
  | fiat | fiatNode => exact ⟨rfl, nofun⟩
  | setProps request =>
    refine ⟨?_, nofun⟩
    simp only [setProps]
    cases g.store.latest request.node with
    | none => rfl
    | some current =>
      dsimp only
      cases g.store.canWrite c.bundle current.id <;> rfl
  | linkEdge request =>
    refine ⟨?_, nofun⟩
    simp only [linkEdge]
    cases g.store.canLink c.bundle request.from_ request.to_ request.pred with
    | false => rfl
    | true => cases g.store.edgeBetween request.from_ request.pred request.to_ <;> rfl
  | grantCapability request =>
    refine ⟨?_, nofun⟩
    simp only [grantCapability, ← Bool.not_or]
    cases isDataCapability request.capability || isHardwareCapability request.capability with
    | false => rfl
    | true => cases canGrant g.store c.bundle request <;> rfl
  | _ => simp [hop, Op.commits] at hcommits

lemma perform_watched (ext : Externs) (g : GraphState) (c : Call) :
    Watched ext g.store c (perform ext g c).1.store (perform ext g c).2 := by
  by_cases hcommits : c.op.commits = true
  · obtain ⟨hstore, hresponse⟩ := perform_store ext g hcommits
    rw [hstore]
    cases hchange : g.store.notified ext c with
    | none => exact .refused _ hcommits hchange hresponse
    | some committed => exact .told _ _ _ hcommits hchange hresponse
  · unfold perform
    cases hop : c.op with
    | registerWatch | registerWatchPattern => exact .registered _ (by rw [hop]; rfl)
    | pollWatch id => exact .polled id hop
    | applySnapshot snapshot => exact .restored snapshot hop
    | _ => exact absurd (by rw [hop]; rfl) hcommits

end GraphState

/-! ## One watch across a step -/

open BoundedQueue

variable (owner : BundleId) (pattern : NodePattern)

namespace Store

/-- What happens to the queue of a watch in a call: a poll of its id drains it, a committed change
that the watch is told of arrives. -/
def observation (ext : Externs) (id : WatchId) (owner : BundleId) (pattern : NodePattern)
    (s : Store) (c : Call) : List (BoundedQueue.Event GraphChange) :=
  match c.op with
  | .pollWatch polled => if polled = id then [.drain] else []
  | _ =>
    match s.notified ext c with
    | some (t, change) => if t.sees owner pattern change then [.arrive change] else []
    | none => []

/-- The watch after a call that neither registers its id again nor restores a snapshot. -/
def watchAfter (ext : Externs) (s : Store) (c : Call) (watch : Watch) : Watch :=
  { watch with
    queue := (run (handle maxWatchQueue) ⟨[], watch.queue⟩
      (s.observation ext watch.id watch.owner watch.pattern c)).queue }

variable {ext : Externs} {c : Call} {s t : Store} {response : Response} {id : WatchId}

lemma getElem?_registerWatchPattern (s : Store) (owner : BundleId) (pattern : NodePattern)
    (id : WatchId) :
    (s.registerWatchPattern owner pattern).1.watches[id]?
      = if s.nextWatchId = id then some ⟨id, owner, pattern, []⟩ else s.watches[id]? := by
  simp only [registerWatchPattern, getElem?_insert,
    Std.LawfulEqCmp.compare_eq_iff_eq]
  by_cases hid : s.nextWatchId = id
  · subst hid
    simp
  · simp [hid]

lemma getElem?_pollWatch (s : Store) (polled id : WatchId) : (s.pollWatch polled).1.watches[id]?
      = if polled = id then s.watches[id]?.map fun watch => { watch with queue := [] }
        else s.watches[id]? := by
  unfold pollWatch
  split
  · rename_i hnone
    split
    · rename_i hid
      rw [← hid, hnone]
      rfl
    · rfl
  · rename_i watch hwatch
    split
    · rename_i hempty
      split
      · rename_i hid
        rw [← hid, hwatch, Option.map_some, ← List.isEmpty_iff.mp hempty]
      · rfl
    · grind

lemma applySnapshot_watches (s : Store) (snapshot : GraphSnapshot) :
    (s.applySnapshot snapshot).watches = ∅ := by
  have hthings : (run insertThing s.cleared snapshot.things).watches = ∅ :=
    run_invariant (P := fun t : Store => t.watches = ∅) _ rfl
      fun t thing h => by rw [insertThing_watches, h]
  exact run_invariant (P := fun t : Store => t.watches = ∅) snapshot.edges hthings
    fun t edge h => by rw [insertEdge_watches, h]

lemma observation_of_poll {polled : WatchId} (hop : c.op = .pollWatch polled) :
    s.observation ext id owner pattern c = if polled = id then [.drain] else [] := by
  unfold observation
  rw [hop]

lemma observation_of_commits (hcommits : c.op.commits = true) :
    s.observation ext id owner pattern c
      = match s.notified ext c with
        | some (t, change) => if t.sees owner pattern change then [.arrive change] else []
        | none => [] := by
  unfold observation
  split
  · rename_i polled hop
    simp [hop, Op.commits] at hcommits
  · rfl

lemma observation_of_watchPattern {registered : NodePattern}
    (hop : c.op.watchPattern = some registered) :
    s.observation ext id owner pattern c = [] := by
  unfold observation notified
  cases h : c.op <;> simp_all [Op.watchPattern]

lemma map_watchAfter_of_nil {watch? : Option Watch}
    (h : ∀ watch : Watch, s.observation ext watch.id watch.owner watch.pattern c = []) :
    watch?.map (s.watchAfter ext c) = watch? := by
  have hsame : ∀ watch, s.watchAfter ext c watch = watch := by
    intro watch
    rw [watchAfter, h watch]
    rfl
  rw [show s.watchAfter ext c = fun watch => watch from funext hsame, Option.map_id']

/-- Across a call that neither registers the id nor restores a snapshot, what happens to a watch is
what its observation says. -/
lemma getElem?_of_watched (h : s.WatchesFiled) (hw : Watched ext s c t response)
    (hresponse : response ≠ .watch id) (hc : ¬ c.restores) :
    t.watches[id]? = s.watches[id]?.map (s.watchAfter ext c) := by
  cases hw with
  | told t change response hcommits hchange hother =>
    have hsame := (notified_spec hchange).1
    have ht : t.WatchesFiled := by rwa [WatchesFiled, hsame]
    rw [getElem?_notifyWatches ht, hsame]
    congr 1
    funext watch
    unfold watchAfter tell
    rw [observation_of_commits _ _ hcommits, hchange]
    dsimp only
    split <;> rfl
  | refused response hcommits hchange hother =>
    rw [map_watchAfter_of_nil fun watch => by rw [observation_of_commits _ _ hcommits, hchange]]
  | registered pattern hop =>
    have hid : s.nextWatchId ≠ id := fun hid => hresponse (congrArg Response.watch hid)
    rw [map_watchAfter_of_nil fun watch => observation_of_watchPattern _ _ hop,
      getElem?_registerWatchPattern, if_neg hid]
  | polled polled hop =>
    rw [getElem?_pollWatch]
    cases hwatch : s.watches[id]? with
    | none => simp
    | some watch =>
      have hid := h id watch hwatch
      subst hid
      rw [Option.map_some, Option.map_some, watchAfter, observation_of_poll _ _ hop]
      split <;> rfl
  | restored snapshot hop => exact absurd ⟨snapshot, hop⟩ hc

lemma getElem?_of_registered (hw : Watched ext s c t (.watch id)) :
    ∃ pattern, c.op.watchPattern = some pattern
      ∧ t.watches[id]? = some ⟨id, c.bundle, pattern, []⟩ := by
  generalize hresponse : Response.watch id = response at hw
  cases hw with
  | told _ _ _ _ _ hother | refused _ _ _ hother => exact absurd hresponse.symm (hother id)
  | registered pattern hop =>
    cases hresponse
    exact ⟨pattern, hop, by rw [getElem?_registerWatchPattern]; exact if_pos rfl⟩
  | polled | restored => cases hresponse

section

variable (hw : Watched ext s c t response)
include hw

lemma watches_of_restored (hc : c.restores) :
    t.watches = ∅ := by
  obtain ⟨snapshot, hop⟩ := hc
  cases hw with
  | told _ _ _ hcommits | refused _ hcommits => simp [hop, Op.commits] at hcommits
  | registered pattern hpattern => simp [hop, Op.watchPattern] at hpattern
  | polled polled hpolled => simp [hop] at hpolled
  | restored snapshot' hop' => exact applySnapshot_watches s snapshot'

/-- After a commit the store is the one in the middle of it with the watches told. -/
lemma eq_of_notified {r : Store}
    (h : s.notified ext c = some (r, change)) : t = r.notifyWatches change := by
  cases hw with
  | told t change response hcommits hchange hother =>
    cases hchange.symm.trans h
    rfl
  | refused response hcommits hchange hother => cases hchange.symm.trans h
  | registered pattern hop =>
    unfold notified at h
    cases hop' : c.op <;> simp_all [Op.watchPattern]
  | polled _ hop | restored _ hop => simp [notified, hop] at h

/-- An operation that could have committed a change and did not leaves the store alone. -/
lemma eq_of_not_notified (hcommits : c.op.commits = true)
    (h : s.notified ext c = none) : t = s := by
  cases hw with
  | told t change response hcommits hchange hother => cases hchange.symm.trans h
  | refused response hcommits hchange hother => rfl
  | registered pattern hop => cases hop' : c.op <;> simp_all [Op.watchPattern, Op.commits]
  | polled _ hop | restored _ hop => simp [hop, Op.commits] at hcommits

/-- A call that commits no change and restores no snapshot writes nothing to the graph. -/
lemma graph_of_not_notified (hc : ¬ c.restores)
    (h : s.notified ext c = none) : t.graph = s.graph := by
  cases hw with
  | told t change response hcommits hchange hother => cases hchange.symm.trans h
  | refused response hcommits hchange hother => rfl
  | registered pattern hop => rfl
  | polled polled hop => exact pollWatch_graph s polled
  | restored snapshot hop => exact absurd ⟨snapshot, hop⟩ hc

end

lemma WatchesFiled.of_watched (h : s.WatchesFiled) (hw : Watched ext s c t response) :
    t.WatchesFiled := by
  intro id watch hwatch
  by_cases hc : c.restores
  · simp [watches_of_restored hw hc] at hwatch
  · by_cases hresponse : response = .watch id
    · subst hresponse
      obtain ⟨pattern, -, hfresh⟩ := getElem?_of_registered hw
      rw [hfresh] at hwatch
      cases hwatch
      rfl
    · rw [getElem?_of_watched h hw hresponse hc, Option.map_eq_some_iff] at hwatch
      obtain ⟨before, hbefore, rfl⟩ := hwatch
      exact h id before hbefore

end Store

namespace GraphState

/-- A call that commits a change leaves the graph as it was in the middle of the commit. -/
lemma step_graph_of_notified {ext : Externs} {g : GraphState} {c : Call} {t : Store}
    (h : g.store.notified ext c = some (t, change)) :
    (step ext g c).store.graph = t.graph := by
  rw [step, eq_of_notified (perform_watched ext g c) h]
  exact notifyWatches_graph t change

lemma reach_watchesFiled (ext : Externs) (calls : List Call) :
    (reach ext calls).store.WatchesFiled :=
  run_invariant (P := fun g : GraphState => g.store.WatchesFiled) calls
    (by simp [Store.WatchesFiled, new, Store.new])
    fun g c h => h.of_watched (perform_watched ext g c)

end GraphState

end ThingOS
