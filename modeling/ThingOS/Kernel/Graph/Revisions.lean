import ThingOS.Kernel.Graph.Refinement
import ThingOS.Kernel.Graph.WatchDelivery

/-!
# Which revision the store reports

`changes_since` and `snapshot` report the revision before the counter, `poll_watch` the counter
itself. Every revision that is issued goes to a Thing or an edge. So the first two report the
largest revision committed, and a batch reports one that nothing has yet.
-/

namespace ThingOS

open GraphState Store List

namespace Store

variable {ext : Externs} {s t : Store} {c : Call}

/-- The revisions of all versions and edges, and zero. -/
def committed (s : Store) : Set ℕ :=
  {r | r = 0 ∨ (∃ id, ∃ v ∈ s.versions id, v.revision = r) ∨ ∃ e ∈ s.edges, e.revision = r}

lemma committed_eq_of_graph (h : s.graph = t.graph) : s.committed = t.committed := by
  simp only [committed, versions_eq_of_graph h, edges_eq_of_graph h]

/-! ## The last revision issued is committed -/

/-- Below the bound, what a call commits has the last revision it issued. -/
lemma Ordered.issued_mem_committed (hord : s.Ordered) (hw : Wrote ext s c t)
    (hc : ¬ c.restores) (hbound : t.issued < u64Size) (hs : s.issued ∈ s.committed) :
    t.issued ∈ t.committed := by
  cases hw with
  | nothing => exact hs
  | node request hop =>
    rw [commitOwned_issued] at hbound ⊢
    have hens := hord.ensureBundleNode c.bundle (by omega)
    refine .inr (.inr ?_)
    rw [hens.edges_commitOwned hbound]
    exact ⟨_, mem_append_right _ (mem_singleton_self _), hens.nextRevision_eq hbound⟩
  | props request current hop hcurrent hwrite =>
    rw [commitThing_issued] at hbound ⊢
    have hlatest := hord.latest_commitThing hbound (propsThing current request) (fun _ => rfl)
      current.id
    rw [propsThing, if_pos rfl, latest_eq_getLast?] at hlatest
    exact .inr (.inl ⟨_, _, mem_of_getLast? hlatest, hord.nextRevision_eq hbound⟩)
  | link request hop hlink hnew =>
    rw [commitEdge_issued] at hbound ⊢
    refine .inr (.inr ?_)
    rw [hord.edges_commitEdge hbound _ fun _ => rfl]
    exact ⟨_, mem_append_right _ (mem_singleton_self _), hord.nextRevision_eq hbound⟩
  | grant request hop hcap hgrant =>
    rw [commitEdge_issued] at hbound ⊢
    have hens := hord.ensureBundleNode request.grantee (by omega)
    refine .inr (.inr ?_)
    rw [hens.edges_commitEdge hbound _ fun _ => rfl]
    exact ⟨_, mem_append_right _ (mem_singleton_self _), hens.nextRevision_eq hbound⟩
  | snapshot snap hop => exact absurd ⟨snap, hop⟩ hc

lemma Ordered.committed_le (hord : s.Ordered) {r : ℕ} (hr : r ∈ s.committed) : r ≤ s.issued := by
  rcases hr with rfl | ⟨id, v, hv, rfl⟩ | ⟨e, he, rfl⟩
  · exact Nat.zero_le _
  · exact (hord.versions_issued id v hv).2
  · exact (hord.edges_issued e he).2

/-! ## The revisions in the queues -/

/-- What waits in the queues has been issued. -/
def QueuesIssued (s : Store) : Prop :=
  ∀ (id : WatchId) watch, s.watches[id]? = some watch →
    ∀ change ∈ watch.queue, change.revision ≤ s.issued

lemma mem_queue_tell {change change' : GraphChange} {watch : Watch}
    (h : change' ∈ (s.tell change watch).queue) : change' ∈ watch.queue ∨ change' = change := by
  unfold tell at h
  split at h
  · have hpush : change' ∈ watch.queue ++ [change] := by
      simp only [Watch.push] at h
      split at h
      · exact mem_of_mem_drop h
      · exact h
    simpa using hpush
  · exact .inl h

lemma QueuesIssued.of_watched {response : Response} (h : s.QueuesIssued) (hord : s.Ordered)
    (hfiled : s.WatchesFiled) (hw : Watched ext s c t response) (hc : ¬ c.restores)
    (hbound : t.issued < u64Size) : t.QueuesIssued := by
  cases hw with
  | told r change response hcommits hchange hresponse =>
    obtain ⟨watches, heq⟩ := notifyWatches_eq r change
    have hissued : (r.notifyWatches change).issued = r.issued := by rw [heq]
    obtain ⟨hrevision, hless⟩ := hord.revision_of_notified hchange (hissued ▸ hbound)
    have hsame := (notified_spec hchange).1
    intro id watch hwatch change' hmem
    rw [getElem?_notifyWatches (by rwa [WatchesFiled, hsame]), hsame,
      Option.map_eq_some_iff] at hwatch
    obtain ⟨before, hbefore, rfl⟩ := hwatch
    rw [hissued]
    rcases mem_queue_tell hmem with hold | rfl
    · exact (h id before hbefore change' hold).trans hless.le
    · exact hrevision.le
  | refused response hcommits hchange hresponse => exact h
  | registered pattern hop =>
    intro id watch hwatch
    rw [getElem?_registerWatchPattern] at hwatch
    split at hwatch
    · cases hwatch
      simp
    · exact h id watch hwatch
  | polled polled hop =>
    have hissued := issued_eq_of_graph (pollWatch_graph s polled)
    intro id watch hwatch
    rw [getElem?_pollWatch] at hwatch
    rw [hissued]
    split at hwatch
    · obtain ⟨before, -, rfl⟩ := Option.map_eq_some_iff.mp hwatch
      simp
    · exact h id watch hwatch
  | restored snapshot hop => exact absurd ⟨snapshot, hop⟩ hc

/-! ## Agreement -/

/-- Whatever a poll of the watch returns, `changes_since` and `snapshot` all report the largest
revision committed, and no change of the batch has a larger one. -/
structure RevisionsAgree (s : Store) (id : WatchId) (since : ℕ) : Prop where
  polled : ∀ batch ∈ (s.pollWatch id).2, IsGreatest s.committed batch.latestRevision
  changes : IsGreatest s.committed (s.changesSince since).latestRevision
  snapshot : IsGreatest s.committed s.snapshot.revision
  batch_le : ∀ batch ∈ (s.pollWatch id).2, ∀ change ∈ batch.changes, ∀ r,
    IsGreatest s.committed r → change.revision ≤ r

lemma mem_pollWatch {id : WatchId} {batch : GraphWatchBatch} :
    batch ∈ (s.pollWatch id).2
      ↔ ∃ watch, s.watches[id]? = some watch ∧ watch.queue ≠ []
        ∧ batch = ⟨0, s.nextRevision, watch.queue⟩ := by
  unfold pollWatch
  cases s.watches[id]? with
  | none => simp
  | some watch =>
    cases hqueue : watch.queue with
    | nil => simp [hqueue]
    | cons change queue => simp [hqueue, eq_comm]

end Store

namespace GraphState

variable {ext : Externs} {calls : List Call} (hcalls : NoRestore calls)
  (hbound : (reach ext calls).store.issued < u64Size)
include hcalls hbound

lemma reach_reported :
    (reach ext calls).store.issued ∈ (reach ext calls).store.committed
      ∧ (reach ext calls).store.QueuesIssued := by
  induction calls using List.reverseRecOn with
  | nil =>
    refine ⟨.inl rfl, ?_⟩
    simp [Store.QueuesIssued, new, Store.new]
  | append_singleton calls c ih =>
    have hc : ¬ c.restores := hcalls c (by simp)
    have hpre : NoRestore calls := fun d hd => hcalls d (by simp [hd])
    rw [reach_concat] at hbound ⊢
    have hless := (issued_le_step ext _ hc).trans_lt hbound
    obtain ⟨hissued, hqueues⟩ := ih hpre hless
    have hord := reach_ordered ext hpre hless
    refine ⟨?_, hqueues.of_watched hord (reach_watchesFiled ext calls)
      (perform_watched ext _ c) hc hbound⟩
    obtain ⟨t, hw, hgraph⟩ := step_wrote ext (reach ext calls) c
    rw [committed_eq_of_graph hgraph]
    rw [issued_eq_of_graph hgraph] at hbound ⊢
    exact hord.issued_mem_committed hw hc hbound hissued

end GraphState

/-- As long as the counter has not wrapped around, the reports agree exactly if the watch has
nothing to hand out. What disagrees is the revision of a batch, which is one too large. -/
theorem revision_reports_iff (ext : Externs) (calls : List Call) (hcalls : NoRestore calls)
    (hbound : (reach ext calls).store.issued + 1 < u64Size) (id : WatchId) (since : ℕ) :
    ((reach ext calls).store.RevisionsAgree id since
        ↔ ∀ watch ∈ (reach ext calls).store.watches[id]?, watch.queue = [])
      ∧ IsGreatest (reach ext calls).store.committed
        ((reach ext calls).store.changesSince since).latestRevision
      ∧ IsGreatest (reach ext calls).store.committed (reach ext calls).store.snapshot.revision
      ∧ ∀ batch ∈ ((reach ext calls).store.pollWatch id).2,
        batch.latestRevision = (reach ext calls).store.snapshot.revision + 1
          ∧ ∀ change ∈ batch.changes,
            change.revision ≤ (reach ext calls).store.snapshot.revision := by
  have hord := reach_ordered ext hcalls (Nat.lt_of_succ_lt hbound)
  obtain ⟨hissued, hqueues⟩ := reach_reported hcalls (Nat.lt_of_succ_lt hbound)
  have hnext := hord.nextRevision_eq hbound
  generalize (reach ext calls).store = s at *
  have hgreatest : IsGreatest s.committed (s.nextRevision - 1) := by
    rw [hnext, Nat.add_sub_cancel]
    exact ⟨hissued, fun r hr => hord.committed_le hr⟩
  have hbatches : ∀ batch ∈ (s.pollWatch id).2,
      batch.latestRevision = s.snapshot.revision + 1
        ∧ ∀ change ∈ batch.changes, change.revision ≤ s.snapshot.revision := by
    intro batch hbatch
    obtain ⟨watch, hwatch, -, rfl⟩ := mem_pollWatch.mp hbatch
    simp only [snapshot, hnext, Nat.add_sub_cancel, true_and]
    exact hqueues id watch hwatch
  refine ⟨⟨?_, ?_⟩, hgreatest, hgreatest, hbatches⟩
  · intro hagree watch hwatch
    by_contra hne
    -- A batch reports the revision after the largest one.
    have hbatch := mem_pollWatch.mpr ⟨watch, hwatch, hne, rfl⟩
    have hsame := (hagree.polled _ hbatch).unique hagree.snapshot
    have hlate := (hbatches _ hbatch).1
    omega
  · intro hempty
    refine ⟨?_, hgreatest, hgreatest, ?_⟩
    · intro batch hbatch
      obtain ⟨watch, hwatch, hne, -⟩ := mem_pollWatch.mp hbatch
      exact absurd (hempty watch hwatch) hne
    · intro batch hbatch change hchange r hr
      exact ((hbatches batch hbatch).2 change hchange).trans_eq (hgreatest.unique hr)

/-- The kernel watches everything and then declares the Thing `1`. -/
def watchedRun : List Call := [watchAll, declareOne]

theorem revision_reports_iff_watchedRun :
    ((reach crates watchedRun).store.RevisionsAgree 1 0
        ↔ ∀ watch ∈ (reach crates watchedRun).store.watches[(1 : WatchId)]?, watch.queue = [])
      ∧ IsGreatest (reach crates watchedRun).store.committed
        (reach crates watchedRun).store.snapshot.revision :=
  have h := revision_reports_iff crates watchedRun
    (by simp [NoRestore, Call.restores, watchedRun, watchAll, declareOne]) (by decide +kernel) 1 0
  ⟨h.1, h.2.2.1⟩

/-- Two revisions are committed, for the kernel's node and the Thing, and the batch reports the
third. -/
theorem batch_reports_next_revision :
    ¬ (reach crates watchedRun).store.RevisionsAgree 1 0
      ∧ (((reach crates watchedRun).store.pollWatch 1).2.map fun batch =>
          (batch.latestRevision, batch.changes.map GraphChange.revision)) = some (3, [2])
      ∧ (reach crates watchedRun).store.snapshot.revision = 2 := by
  have hpoll : (((reach crates watchedRun).store.pollWatch 1).2.map fun batch =>
      (batch.latestRevision, batch.changes.map GraphChange.revision)) = some (3, [2]) := by
    decide +kernel
  have hsnapshot : (reach crates watchedRun).store.snapshot.revision = 2 := by decide +kernel
  refine ⟨fun hagree => ?_, hpoll, hsnapshot⟩
  obtain ⟨batch, hbatch, hreport⟩ := Option.map_eq_some_iff.mp hpoll
  have hsame := (hagree.polled batch hbatch).unique hagree.snapshot
  rw [hsnapshot, (Prod.mk.inj hreport).1] at hsame
  cases hsame

end ThingOS
