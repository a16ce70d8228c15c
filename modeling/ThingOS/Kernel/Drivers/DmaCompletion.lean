import ThingOS.Kernel.Drivers.DmaHandles
import ThingOS.Kernel.Graph.Refinement

/-!
# Completion events

`dma_wait` marks a submission as complete while it holds the lock on `DMA_STATE` and declares the
event after it has let go of it, so other calls may come between the two. A run interleaves the
calls on the DMA tables, the declarations that are still due and any other calls on the graph.

The submissions are numbered in the order in which they were accepted, since a handle alone does not
tell them apart once the counter has wrapped.
-/

namespace ThingOS

open GraphState List Function

def dmaEventRequest (submission : DmaSubmission) : GraphFiatRequest where
  id := none
  kind := Canon.dmaEvent
  labels := [Canon.dmaEvent]
  fields := ((((∅ : Map).insert Canon.deviceId (.uuid submission.device)).insert
    Canon.buffer (.u64 submission.mapping)).insert Canon.bytes (.u64 submission.bytes)).insert
    Canon.status (.symbol Canon.done)

/-- The clock is the one that the journal stamps its entries with. -/
def emitDmaEvent (ext : Externs) (now : ℕ) (graph : GraphState) (submission : DmaSubmission) :
    GraphState × GraphThing :=
  graph.fiat ext now submission.bundle (dmaEventRequest submission)

structure DmaKernel where
  dma : DmaState
  graph : GraphState
  /-- The waits that have marked their submission and not declared its event. -/
  due : List (ℕ × DmaSubmission)
  /-- Ghost: how many submissions were accepted. -/
  accepted : ℕ
  /-- Ghost: the number of the submission that has the handle. -/
  number : Handle → ℕ
  /-- Ghost: the versions that were declared, with the number of their submission. -/
  emitted : List (ℕ × GraphThing)

inductive DmaAction where
  | dma (call : DmaCall)
  | emit (index now : ℕ)
  | graph (call : Call)

def DmaAction.Keeps : DmaAction → Prop
  | .graph call => ¬ call.restores
  | _ => True

namespace DmaKernel

def init : DmaKernel where
  dma := .init
  graph := .new
  due := []
  accepted := 0
  number _ := 0
  emitted := []

variable (now : ℕ) (σ : DmaKernel)

/-- What becomes of the answer of a call on the tables. -/
def answered : DmaCall → DmaAnswer → DmaKernel
  | _, .submitted handle =>
    { σ with accepted := σ.accepted + 1, number := Function.update σ.number handle σ.accepted }
  | .wait _ handle, .completed submission =>
    { σ with due := σ.due ++ [(σ.number handle, submission)] }
  | _, _ => σ

def step (ext : Externs) (σ : DmaKernel) : DmaAction → DmaKernel
  | .dma call =>
    let (dma, answer) := σ.dma.perform σ.graph.store call
    { σ with dma }.answered call answer
  | .emit index now =>
    match σ.due[index]? with
    | none => σ
    | some (n, submission) =>
      let (graph, thing) := emitDmaEvent ext now σ.graph submission
      { σ with graph, due := σ.due.eraseIdx index, emitted := σ.emitted ++ [(n, thing)] }
  | .graph call => { σ with graph := σ.graph.step ext call }

/-- The versions in the graph that were declared for a submission. -/
def completions (n : ℕ) : List GraphThing :=
  ((σ.emitted.filter fun e => e.1 == n).map Prod.snd).filter fun thing =>
    decide (thing ∈ σ.graph.store.versions thing.id)

/-- A wait that will succeed finds its submission pending. -/
def Awaits (action : DmaAction) : Prop :=
  ∀ bundle handle submission, action = .dma (.wait bundle handle) →
    σ.dma.submissions[handle]? = some submission → submission.bundle = bundle →
    submission.status = .pending

/-! ## Counting the events of a submission -/

/-- How many events of a submission were declared or are due. -/
def total (n : ℕ) : ℕ := (σ.due.map Prod.fst).count n + (σ.emitted.map Prod.fst).count n

/-- The numbers tell the submissions in the table apart, and the status of a submission says whether
it has events. -/
structure Counted (σ : DmaKernel) : Prop where
  number_lt : ∀ (handle : Handle) s, σ.dma.submissions[handle]? = some s →
    σ.number handle < σ.accepted
  number_inj : ∀ (handle other : Handle) s t, σ.dma.submissions[handle]? = some s →
    σ.dma.submissions[other]? = some t → σ.number handle = σ.number other → handle = other
  pending : ∀ (handle : Handle) s, σ.dma.submissions[handle]? = some s →
    s.status = .pending → σ.total (σ.number handle) = 0
  complete : ∀ (handle : Handle) s, σ.dma.submissions[handle]? = some s →
    s.status = .complete → 0 < σ.total (σ.number handle)
  unaccepted : ∀ n, σ.accepted ≤ n → σ.total n = 0

lemma counted_init : init.Counted where
  number_lt := by simp [init, DmaState.init]
  number_inj := by simp [init, DmaState.init]
  pending := by simp [init, DmaState.init]
  complete := by simp [init, DmaState.init]
  unaccepted := by simp [init, total]

def submitted (handle next : Handle) (s : DmaSubmission) : DmaKernel :=
  { σ with
    dma := { σ.dma with
      nextSubmit := next
      submissions := σ.dma.submissions.insert handle s }
    accepted := σ.accepted + 1
    number := Function.update σ.number handle σ.accepted }

def marked (handle : Handle) (s : DmaSubmission) : DmaKernel :=
  { σ with
    dma := { σ.dma with
      submissions := σ.dma.submissions.insert handle { s with status := .complete } }
    due := σ.due ++ [(σ.number handle, { s with status := .complete })] }

section Step

variable {ext : Externs} {σ : DmaKernel}

/-- A call on the tables accepts a submission, marks one, or leaves all of them alone; a wait marks
whenever it may. -/
lemma step_dma_cases (ext : Externs) (σ : DmaKernel) (call : DmaCall) :
    (∃ dma, σ.step ext (.dma call) = { σ with dma } ∧ dma.submissions = σ.dma.submissions
        ∧ σ.Awaits (.dma call))
      ∨ (∃ handle next s, σ.step ext (.dma call) = σ.submitted handle next s
        ∧ s.status = .pending ∧ σ.Awaits (.dma call))
      ∨ ∃ handle s, σ.step ext (.dma call) = σ.marked handle s
        ∧ σ.dma.submissions[handle]? = some s ∧ call = .wait s.bundle handle := by
  unfold step
  dsimp only
  cases call with
  | map bundle buffer flags =>
    have hdid := DmaState.did_perform σ.dma σ.graph.store (.map bundle buffer flags)
    generalize σ.dma.perform σ.graph.store (.map bundle buffer flags) = r at hdid
    cases hdid <;> exact .inl ⟨_, rfl, rfl, by simp [Awaits]⟩
  | submit bundle device mapping bytes =>
    have hdid := DmaState.did_perform σ.dma σ.graph.store (.submit bundle device mapping bytes)
    generalize σ.dma.perform σ.graph.store (.submit bundle device mapping bytes) = r at hdid
    cases hdid with
    | refused => exact .inl ⟨_, rfl, rfl, by simp [Awaits]⟩
    | submitted => exact .inr (.inl ⟨_, _, _, rfl, rfl, by simp [Awaits]⟩)
  | wait bundle handle =>
    -- the inversion of `perform` does not say that a wait marks whenever it may
    cases hs : σ.dma.submissions[handle]? with
    | none =>
      refine .inl ⟨σ.dma, by simp [DmaState.perform, DmaState.wait, hs, answered], rfl, ?_⟩
      rintro _ _ s ⟨⟩ hsome -
      rw [hs] at hsome
      cases hsome
    | some s =>
      by_cases hbundle : s.bundle = bundle
      · refine .inr (.inr ⟨handle, s, ?_, hs, by rw [hbundle]⟩)
        simp [DmaState.perform, DmaState.wait, hs, hbundle, answered, marked]
      · refine .inl ⟨σ.dma, ?_, rfl, ?_⟩
        · simp [DmaState.perform, DmaState.wait, hs, hbundle, answered]
        rintro _ _ t ⟨⟩ hsome heq
        rw [hs] at hsome
        cases hsome
        exact absurd heq hbundle

lemma step_emit_of_some {index now n : ℕ} {s : DmaSubmission}
    (h : σ.due[index]? = some (n, s)) :
    σ.step ext (.emit index now)
      = { σ with
          graph := (emitDmaEvent ext now σ.graph s).1
          due := σ.due.eraseIdx index
          emitted := σ.emitted ++ [(n, (emitDmaEvent ext now σ.graph s).2)] } := by
  simp only [step, h]

lemma step_emit_of_none {index now : ℕ} (h : σ.due[index]? = none) :
    σ.step ext (.emit index now) = σ := by
  simp only [step, h]

/-- An event that is no longer due has been declared. -/
lemma total_emit (index now n : ℕ) : (σ.step ext (.emit index now)).total n = σ.total n := by
  cases hdue : σ.due[index]? with
  | none => rw [step_emit_of_none hdue]
  | some e =>
    obtain ⟨hindex, he⟩ := List.getElem?_eq_some_iff.mp hdue
    have hperm : (e :: σ.due.eraseIdx index).Perm σ.due :=
      he ▸ List.getElem_cons_eraseIdx_perm hindex
    have hcount := (hperm.map Prod.fst).count_eq n
    rw [map_cons, count_cons] at hcount
    rw [step_emit_of_some hdue]
    simp only [total, map_append, map_cons, map_nil, count_append,
      count_singleton]
    omega

lemma total_marked (handle : Handle) (s : DmaSubmission) (n : ℕ) :
    (σ.marked handle s).total n = σ.total n + if σ.number handle = n then 1 else 0 := by
  simp only [total, marked, map_append, map_cons, map_nil, count_append,
    count_singleton, beq_iff_eq]
  omega

/-- A submission that is accepted gets a number of its own. -/
lemma Counted.submitted (h : σ.Counted) (handle next : Handle) {s : DmaSubmission}
    (hs : s.status = .pending) : (σ.submitted handle next s).Counted := by
  have hother {other : Handle} {t : DmaSubmission} (hne : other ≠ handle)
      (ht : (σ.dma.submissions.insert handle s)[other]? = some t) :
      σ.dma.submissions[other]? = some t := by
    rwa [getElem?_insert_of_ne hne.symm] at ht
  unfold DmaKernel.submitted
  constructor
  case number_lt =>
    dsimp only
    refine forall_insert ?_ fun other t hne ht => ?_
    · rw [update_self]
      exact Nat.lt_succ_self _
    · rw [update_of_ne hne]
      exact Nat.lt_succ_of_lt (h.number_lt other t ht)
  case number_inj =>
    intro a b t u ht hu hab
    dsimp only at ht hu hab
    by_cases ha : a = handle <;> by_cases hb : b = handle
    · rw [ha, hb]
    · rw [ha, update_self, update_of_ne hb] at hab
      exact absurd hab (h.number_lt b u (hother hb hu)).ne'
    · rw [hb, update_self, update_of_ne ha] at hab
      exact absurd hab (h.number_lt a t (hother ha ht)).ne
    · rw [update_of_ne ha, update_of_ne hb] at hab
      exact h.number_inj a b t u (hother ha ht) (hother hb hu) hab
  case pending =>
    dsimp only
    refine forall_insert (fun _ => ?_) fun other t hne ht hstatus => ?_
    · rw [update_self]
      exact h.unaccepted _ le_rfl
    · rw [update_of_ne hne]
      exact h.pending other t ht hstatus
  case complete =>
    dsimp only
    refine forall_insert (fun hstatus => ?_) fun other t hne ht hstatus => ?_
    · rw [hs] at hstatus
      cases hstatus
    · rw [update_of_ne hne]
      exact h.complete other t ht hstatus
  case unaccepted => exact fun n hn => h.unaccepted n (Nat.le_of_succ_le hn)

lemma Counted.marked (h : σ.Counted) {handle : Handle} {s : DmaSubmission}
    (hs : σ.dma.submissions[handle]? = some s) : (σ.marked handle s).Counted := by
  -- every entry was there before, with another status at most
  have hentry {other : Handle} {t : DmaSubmission}
      (ht : (σ.marked handle s).dma.submissions[other]? = some t) :
      ∃ before, σ.dma.submissions[other]? = some before
        ∧ (other = handle ∧ t.status = .complete ∨ other ≠ handle ∧ before = t) := by
    unfold DmaKernel.marked at ht
    by_cases heq : other = handle
    · rw [heq, Std.ExtTreeMap.getElem?_insert_self] at ht
      cases ht
      exact ⟨s, heq ▸ hs, .inl ⟨heq, rfl⟩⟩
    · rw [getElem?_insert_of_ne (Ne.symm heq)] at ht
      exact ⟨t, ht, .inr ⟨heq, rfl⟩⟩
  constructor
  case number_lt =>
    intro other t ht
    obtain ⟨before, hbefore, -⟩ := hentry ht
    exact h.number_lt other before hbefore
  case number_inj =>
    intro a b t u ht hu hab
    obtain ⟨before, hbefore, -⟩ := hentry ht
    obtain ⟨before', hbefore', -⟩ := hentry hu
    exact h.number_inj a b before before' hbefore hbefore' hab
  case pending =>
    intro other t ht hstatus
    obtain ⟨before, hbefore, ⟨-, hcomplete⟩ | ⟨hne, rfl⟩⟩ := hentry ht
    · rw [hcomplete] at hstatus
      cases hstatus
    · have hnumber : σ.number handle ≠ σ.number other := fun heq =>
        hne (h.number_inj handle other s before hs hbefore heq).symm
      rw [total_marked, DmaKernel.marked, if_neg hnumber]
      exact h.pending other before hbefore hstatus
  case complete =>
    intro other t ht hstatus
    rw [total_marked]
    obtain ⟨before, hbefore, ⟨rfl, -⟩ | ⟨hne, rfl⟩⟩ := hentry ht
    · rw [DmaKernel.marked, if_pos rfl]
      exact Nat.succ_pos _
    · exact Nat.add_pos_left (h.complete other before hbefore hstatus) _
  case unaccepted =>
    intro n hn
    rw [total_marked, if_neg (h.number_lt handle s hs |>.trans_le hn).ne]
    exact h.unaccepted n hn

/-- The counts only depend on the submissions, their numbers and their events. -/
lemma Counted.congr {τ : DmaKernel} (h : σ.Counted)
    (hsubmissions : τ.dma.submissions = σ.dma.submissions) (haccepted : τ.accepted = σ.accepted)
    (hnumber : τ.number = σ.number) (htotal : ∀ n, τ.total n = σ.total n) : τ.Counted where
  number_lt := by simpa only [hsubmissions, haccepted, hnumber] using h.number_lt
  number_inj := by simpa only [hsubmissions, hnumber] using h.number_inj
  pending := by simpa only [hsubmissions, hnumber, htotal] using h.pending
  complete := by simpa only [hsubmissions, hnumber, htotal] using h.complete
  unaccepted := by simpa only [haccepted, htotal] using h.unaccepted

lemma Counted.step (h : σ.Counted) (action : DmaAction) : (σ.step ext action).Counted := by
  cases action with
  | dma call =>
    rcases step_dma_cases ext σ call with ⟨dma, heq, hsame, -⟩ | ⟨handle, next, s, heq, hs, -⟩
      | ⟨handle, s, heq, hs, -⟩
    · rw [heq]
      exact h.congr hsame rfl rfl fun _ => rfl
    · rw [heq]
      exact h.submitted handle next hs
    · rw [heq]
      exact h.marked hs
  | emit index now =>
    refine h.congr ?_ ?_ ?_ fun n => total_emit index now n
    all_goals
      unfold DmaKernel.step
      dsimp only
      split <;> rfl
  | graph call => exact h.congr rfl rfl rfl fun _ => rfl

/-- A step gives no submission a second event exactly if it awaits a pending one or none. -/
lemma total_step_iff (h : σ.Counted) (honce : ∀ n, σ.total n ≤ 1) (action : DmaAction) :
    (∀ n, (σ.step ext action).total n ≤ 1) ↔ σ.Awaits action := by
  cases action with
  | emit index now =>
    exact iff_of_true (fun n => (total_emit index now n).trans_le (honce n)) (by simp [Awaits])
  | graph call => exact iff_of_true honce (by simp [Awaits])
  | dma call =>
    rcases step_dma_cases ext σ call with ⟨dma, heq, -, hawaits⟩
      | ⟨handle, next, s, heq, -, hawaits⟩ | ⟨handle, s, heq, hs, hcall⟩
    · rw [heq]
      exact iff_of_true honce hawaits
    · rw [heq]
      exact iff_of_true honce hawaits
    · rw [heq]
      constructor
      · rintro htotal _ _ t hwait ht -
        rw [hcall] at hwait
        cases hwait
        rw [hs] at ht
        cases ht
        by_contra hstatus
        have hcomplete : s.status = .complete := by
          cases hcase : s.status with
          | pending => exact absurd hcase hstatus
          | complete => rfl
        have hpos := h.complete handle s hs hcomplete
        have hle := htotal (σ.number handle)
        rw [total_marked, if_pos rfl] at hle
        omega
      · intro hawaits n
        have hpending := h.pending handle s hs
          (hawaits s.bundle handle s (by rw [hcall]) hs rfl)
        have hle := honce n
        rw [total_marked]
        split
        · rename_i hn
          rw [← hn, hpending]
        · exact hle

lemma total_le_step (σ : DmaKernel) (action : DmaAction) (n : ℕ) :
    σ.total n ≤ (σ.step ext action).total n := by
  cases action with
  | emit index now => exact (total_emit index now n).ge
  | graph call => exact le_rfl
  | dma call =>
    rcases step_dma_cases ext σ call with ⟨dma, heq, -⟩ | ⟨handle, next, s, heq, -⟩
      | ⟨handle, s, heq, -⟩
    · rw [heq]
      exact le_rfl
    · rw [heq]
      exact le_rfl
    · rw [heq, total_marked]
      exact Nat.le_add_right _ _

/-- No submission has a second event exactly if every wait that succeeds finds its submission
pending. -/
lemma total_run_iff (ext : Externs) (actions : List DmaAction) :
    (∀ n, (run (step ext) init actions).total n ≤ 1) ↔ EachStep (step ext) Awaits init actions := by
  rw [← throughout_iff_eachStep (V := Counted) (P := fun σ => ∀ n, σ.total n ≤ 1) counted_init
    (by simp [init, total]) (fun _ action h => h.step action)
    (fun _ action h honce => total_step_iff h honce action)]
  constructor
  · rintro h pre post rfl n
    refine le_trans ?_ (h n)
    rw [run_append]
    exact run_grows (P := fun _ => True) (R := fun σ τ : DmaKernel => σ.total n ≤ τ.total n)
      (fun _ => le_rfl) (fun _ _ _ => le_trans) (fun σ action _ => total_le_step σ action n) _
      fun _ _ => trivial
  · exact fun h => h actions [] (by simp)

/-! ## Events in the graph -/

lemma length_declared (σ : DmaKernel) (n : ℕ) :
    ((σ.emitted.filter fun e => e.1 == n).map Prod.snd).length
      = (σ.emitted.map Prod.fst).count n := by
  rw [length_map, List.count, countP_map, countP_eq_length_filter]
  rfl

lemma length_completions_le (σ : DmaKernel) (n : ℕ) : (σ.completions n).length ≤ σ.total n := by
  calc (σ.completions n).length
      ≤ ((σ.emitted.filter fun e => e.1 == n).map Prod.snd).length := length_filter_le _ _
    _ = (σ.emitted.map Prod.fst).count n := σ.length_declared n
    _ ≤ σ.total n := Nat.le_add_left _ _

def Committed (σ : DmaKernel) : Prop :=
  ∀ e ∈ σ.emitted, e.2 ∈ σ.graph.store.versions e.2.id

lemma Committed.length_completions (h : σ.Committed) (hdue : σ.due = []) (n : ℕ) :
    (σ.completions n).length = σ.total n := by
  have hall : σ.completions n = (σ.emitted.filter fun e => e.1 == n).map Prod.snd := by
    refine filter_eq_self.mpr fun thing hthing => ?_
    obtain ⟨e, he, rfl⟩ := mem_map.mp hthing
    exact decide_eq_true (h e (mem_filter.mp he).1)
  rw [hall, length_declared, total, hdue, map_nil, count_nil, Nat.zero_add]

/-- A declaration is the step of the graph at a call of the submission's bundle. -/
lemma emitDmaEvent_eq_step (g : GraphState) (s : DmaSubmission) :
    (emitDmaEvent ext now g s).1 = g.step ext ⟨s.bundle, now, .fiat (dmaEventRequest s)⟩ := rfl

lemma mem_versions_emitDmaEvent {g : GraphState} (s : DmaSubmission) (hord : g.store.Ordered)
    (hbound : (emitDmaEvent ext now g s).1.store.issued < u64Size) :
    (emitDmaEvent ext now g s).2
      ∈ (emitDmaEvent ext now g s).1.store.versions (emitDmaEvent ext now g s).2.id := by
  have hgraph := fiatNode_graph ext now g s.bundle
    (fiatNodeRequest (dmaEventRequest s))
  have hissued := Store.issued_eq_of_graph hgraph
  rw [Store.commitOwned_issued] at hissued
  have hless : (g.store.ensureBundleNode s.bundle).issued + 1 < u64Size := hissued ▸ hbound
  have hens := hord.ensureBundleNode s.bundle (Nat.lt_of_succ_lt hless)
  have hlatest := hens.latest_commitThing hless
    (nodeThing ext s.bundle (fiatNodeRequest (dmaEventRequest s)))
    (fun _ => rfl)
    (emitDmaEvent ext now g s).2.id
  have hthing : nodeThing ext s.bundle (fiatNodeRequest (dmaEventRequest s))
      (g.store.ensureBundleNode s.bundle).nextRevision = (emitDmaEvent ext now g s).2 := rfl
  rw [hthing, if_pos rfl, Store.latest_eq_getLast?] at hlatest
  have hmem := mem_of_getLast? hlatest
  rwa [← Store.versions_commitOwned ext, ← Store.versions_eq_of_graph hgraph] at hmem

lemma committed_step (h : σ.Committed) (hord : σ.graph.store.Ordered) {action : DmaAction}
    (hkeeps : action.Keeps) (hbound : (σ.step ext action).graph.store.issued < u64Size) :
    (σ.step ext action).Committed := by
  have hgrow {graph : GraphState} (hversions : ∀ id, σ.graph.store.versions id
      <+: graph.store.versions id) : ∀ e ∈ σ.emitted, e.2 ∈ graph.store.versions e.2.id :=
    fun e he => (hversions e.2.id).subset (h e he)
  cases action with
  | graph call => exact hgrow fun id => versions_grow_step ext σ.graph hkeeps id
  | dma call =>
    rcases step_dma_cases ext σ call with ⟨dma, heq, -⟩ | ⟨handle, next, s, heq, -⟩
      | ⟨handle, s, heq, -⟩
    all_goals
      rw [heq]
      exact h
  | emit index now =>
    cases hdue : σ.due[index]? with
    | none => rwa [step_emit_of_none hdue]
    | some e =>
      rw [step_emit_of_some hdue] at hbound ⊢
      intro e' he'
      rcases mem_append.mp he' with hold | hnew
      · refine hgrow (fun id => ?_) e' hold
        rw [emitDmaEvent_eq_step]
        exact versions_grow_step ext σ.graph (by rintro ⟨_, ⟨⟩⟩) id
      · rw [mem_singleton] at hnew
        rw [hnew]
        exact mem_versions_emitDmaEvent now e.2 hord hbound

/-- What an action does to the graph is a step of the graph, or nothing. -/
lemma graph_step_cases (ext : Externs) (σ : DmaKernel) {action : DmaAction}
    (hkeeps : action.Keeps) :
    (σ.step ext action).graph = σ.graph
      ∨ ∃ c : Call, ¬ c.restores ∧ (σ.step ext action).graph = σ.graph.step ext c := by
  cases action with
  | graph call => exact .inr ⟨call, hkeeps, rfl⟩
  | dma call =>
    left
    rcases step_dma_cases ext σ call with ⟨dma, heq, -⟩ | ⟨handle, next, s, heq, -⟩
      | ⟨handle, s, heq, -⟩
    all_goals
      have hgraph := congrArg DmaKernel.graph heq
      exact hgraph
  | emit index now =>
    cases hdue : σ.due[index]? with
    | none => exact .inl (by rw [step_emit_of_none hdue])
    | some e =>
      refine .inr ⟨⟨e.2.bundle, now, .fiat (dmaEventRequest e.2)⟩, by rintro ⟨_, ⟨⟩⟩, ?_⟩
      rw [step_emit_of_some hdue, emitDmaEvent_eq_step]

/-- Below the bound the graph is in order, and so is everything that was declared. -/
lemma committed_run (ext : Externs) {actions : List DmaAction}
    (hkeeps : ∀ action ∈ actions, action.Keeps)
    (hbound : (run (step ext) init actions).graph.store.issued < u64Size) :
    (run (step ext) init actions).graph.store.Ordered
      ∧ (run (step ext) init actions).Committed := by
  induction actions using List.reverseRecOn with
  | nil => exact ⟨Store.ordered_new, by simp [Committed, init]⟩
  | append_singleton actions action ih =>
    have haction := hkeeps action (by simp)
    rw [run_concat] at hbound ⊢
    have hcases := graph_step_cases ext (run (step ext) init actions) haction
    have hless : (run (step ext) init actions).graph.store.issued < u64Size := by
      rcases hcases with heq | ⟨c, hc, heq⟩
      · rwa [heq] at hbound
      · rw [heq] at hbound
        exact (issued_le_step ext _ hc).trans_lt hbound
    obtain ⟨hord, hcommitted⟩ := ih (fun a ha => hkeeps a (by simp [ha])) hless
    refine ⟨?_, committed_step hcommitted hord haction hbound⟩
    rcases hcases with heq | ⟨c, hc, heq⟩
    · rwa [heq]
    · rw [heq] at hbound ⊢
      exact step_ordered ext hord hc hbound

end Step

/-! ## Once for each submission -/

/-- In every run in which each wait that succeeds finds its submission pending, the graph never
holds two events of one submission. Other runs do leave two, unless a declaration is still due or
the graph has lost it. -/
theorem completion_once_iff (ext : Externs) (actions : List DmaAction) :
    (EachStep (step ext) Awaits init actions → ∀ pre post, actions = pre ++ post →
      ∀ n, ((run (step ext) init pre).completions n).length ≤ 1)
    ∧ ((∀ action ∈ actions, action.Keeps) →
      (run (step ext) init actions).graph.store.issued < u64Size →
      (run (step ext) init actions).due = [] →
      (∀ n, ((run (step ext) init actions).completions n).length ≤ 1) →
      EachStep (step ext) Awaits init actions) := by
  constructor
  · rintro hawaits pre post rfl n
    exact (length_completions_le _ n).trans ((total_run_iff ext pre).mpr hawaits.of_append n)
  · intro hkeeps hbound hdue honce
    obtain ⟨-, hcommitted⟩ := committed_run ext hkeeps hbound
    refine (total_run_iff ext actions).mp fun n => ?_
    rw [← hcommitted.length_completions hdue]
    exact honce n

/-- A bundle maps a buffer, submits it and waits for it. -/
def oneTransfer : List DmaAction :=
  [.graph ⟨kernelBundleId, 0, .linkEdge
      ⟨none, Canon.symbolToString Canon.canDma, 0xb1#128, 7#128, ∅⟩⟩,
    .dma (.map 0xb1#128 7#128 0), .dma (.submit 0xb1#128 7#128 1 64),
    .dma (.wait 0xb1#128 1), .emit 0 0]

def waitAgain : List DmaAction := [.dma (.wait 0xb1#128 1), .emit 0 0]

theorem completion_once_oneTransfer :
    EachStep (step crates) Awaits init oneTransfer
      ∧ ((run (step crates) init oneTransfer).completions 0).length = 1 := by
  have hone : ∀ n, ((run (step crates) init oneTransfer).completions n).length ≤ 1 := by
    intro n
    refine (length_completions_le _ n).trans ?_
    have hdue : (run (step crates) init oneTransfer).due.map Prod.fst = [] := by decide +kernel
    have hemitted : (run (step crates) init oneTransfer).emitted.map Prod.fst = [0] := by
      decide +kernel
    rw [total, hdue, hemitted, count_nil, Nat.zero_add]
    exact count_le_length
  refine ⟨(completion_once_iff crates oneTransfer).2 ?_ (by decide +kernel) ?_ hone,
    by decide +kernel⟩
  · intro action haction
    fin_cases haction
    · rintro ⟨_, ⟨⟩⟩
    all_goals trivial
  · have hdue : (run (step crates) init oneTransfer).due.length = 0 := by decide +kernel
    exact length_eq_zero_iff.mp hdue

/-- The second wait commits a second version of the event. -/
theorem completion_twice :
    ((run (step crates) init (oneTransfer ++ waitAgain)).completions 0).length = 2 := by
  decide +kernel

end DmaKernel

end ThingOS
