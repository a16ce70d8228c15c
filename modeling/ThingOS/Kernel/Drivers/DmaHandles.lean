import ThingOS.Kernel.Drivers.IrqDma
import ThingOS.Kernel.Graph.Step

/-!
# Isolation of DMA handles

A run is a list of calls by any bundles, in the order in which the lock on `DMA_STATE` lets them in.
Each call comes with the store it asks for capabilities; the stores of a run are arbitrary.

Handles are easy to guess. What keeps bundles apart is that the tables record the bundle a handle
was given to, and that no handle is given out twice before the counter wraps.
-/

namespace ThingOS

open List

inductive DmaCall where
  | map (bundle : BundleId) (buffer : Uuid) (flags : ℕ)
  | submit (bundle : BundleId) (device : Uuid) (mapping : Handle) (bytes : ℕ)
  | wait (bundle : BundleId) (handle : Handle)

def DmaCall.bundle : DmaCall → BundleId
  | .map bundle _ _ => bundle
  | .submit bundle _ _ _ => bundle
  | .wait bundle _ => bundle

inductive DmaAnswer where
  | refused
  | mapped (handle : Handle)
  | submitted (handle : Handle)
  | completed (submission : DmaSubmission)

namespace DmaState

def perform (state : DmaState) (store : Store) : DmaCall → DmaState × DmaAnswer
  | .map bundle buffer flags =>
    let (state, handle) := state.map store bundle buffer flags
    (state, (handle.map .mapped).getD .refused)
  | .submit bundle device mapping bytes =>
    let (state, handle) := state.submit store bundle device mapping bytes
    (state, (handle.map .submitted).getD .refused)
  | .wait bundle handle =>
    let (state, submission) := state.wait bundle handle
    (state, (submission.map .completed).getD .refused)

def step (state : DmaState) (call : Store × DmaCall) : DmaState := (state.perform call.1 call.2).1

/-- Everything a call can do to the tables, with its answer. -/
inductive Did (state : DmaState) : DmaCall → DmaState × DmaAnswer → Prop
  | refused (call : DmaCall) : Did state call (state, .refused)
  | mapped (bundle : BundleId) (buffer : Uuid) (flags : ℕ) :
      Did state (.map bundle buffer flags)
        ({ state with
            nextMapping := state.nextMapping.next
            mappings := state.mappings.insert state.nextMapping
              ⟨state.nextMapping, bundle, buffer, flags⟩ }, .mapped state.nextMapping)
  | submitted (bundle : BundleId) (device : Uuid) (mapping : Handle) (bytes : ℕ) (m : DmaMapping)
      (hmapping : state.mappings[mapping]? = some m) (hbundle : m.bundle = bundle) :
      Did state (.submit bundle device mapping bytes)
        ({ state with
            nextSubmit := state.nextSubmit.next
            submissions := state.submissions.insert state.nextSubmit
              ⟨state.nextSubmit, bundle, device, m.handle, bytes, .pending⟩ },
          .submitted state.nextSubmit)
  | completed (bundle : BundleId) (handle : Handle) (s : DmaSubmission)
      (hsubmission : state.submissions[handle]? = some s) (hbundle : s.bundle = bundle) :
      Did state (.wait bundle handle)
        ({ state with
            submissions := state.submissions.insert handle { s with status := .complete } },
          .completed { s with status := .complete })

lemma did_perform (state : DmaState) (store : Store) (call : DmaCall) :
    Did state call (state.perform store call) := by
  cases call with
  | map bundle buffer flags =>
    cases hcap : store.hasCapability bundle buffer Canon.canDma with
    | false => simpa [perform, map, hcap] using Did.refused _
    | true => simpa [perform, map, hcap] using Did.mapped bundle buffer flags
  | submit bundle device mapping bytes =>
    cases hmapping : state.mappings[mapping]? with
    | none => simpa [perform, submit, hmapping] using Did.refused _
    | some m =>
      by_cases hbundle : m.bundle = bundle
      · cases hcap : store.hasCapability bundle device Canon.canDma with
        | false => simpa [perform, submit, hmapping, hbundle, hcap] using Did.refused _
        | true =>
          simpa [perform, submit, hmapping, hbundle, hcap]
            using Did.submitted bundle device mapping bytes m hmapping hbundle
      · simpa [perform, submit, hmapping, hbundle] using Did.refused _
  | wait bundle handle =>
    cases hsubmission : state.submissions[handle]? with
    | none => simpa [perform, wait, hsubmission] using Did.refused _
    | some s =>
      by_cases hbundle : s.bundle = bundle
      · simpa [perform, wait, hsubmission, hbundle]
          using Did.completed bundle handle s hsubmission hbundle
      · simpa [perform, wait, hsubmission, hbundle] using Did.refused _

/-! ## Handles -/

end DmaState

/-- Before the counter wraps, the handles are the numbers from one on. -/
lemma Handle.iterate_next {k : ℕ} (h : k + 1 < u64Size) : Handle.next^[k] 1 = k + 1 := by
  induction k with
  | zero => rfl
  | succ k ih =>
    rw [Function.iterate_succ_apply', ih (by omega), Handle.next, Nat.mod_eq_of_lt h]
    exact Nat.max_eq_left (Nat.le_add_left 1 (k + 1))

/-- A machine that hands out its counter, or nothing, at each step hands out the iterates of its
first counter. -/
lemma handles_eq_iterates {σ ι β : Type*} {step : σ → ι → σ} {out : σ → ι → List (β × Handle)}
    {next : σ → Handle}
    (hstep : ∀ s i, (out s i = [] ∧ next (step s i) = next s)
      ∨ ∃ b, out s i = [(b, next s)] ∧ next (step s i) = (next s).next)
    (s : σ) (inputs : List ι) :
    (outputs step out s inputs).map Prod.snd
      = (List.range (outputs step out s inputs).length).map fun k => Handle.next^[k] (next s) := by
  induction inputs generalizing s with
  | nil => rfl
  | cons i inputs ih =>
    unfold outputs
    rcases hstep s i with ⟨hout, hnext⟩ | ⟨b, hout, hnext⟩
    · rw [hout, nil_append, ih, hnext]
    · rw [hout, singleton_append, map_cons, ih, hnext, length_cons,
        range_succ_eq_map, map_cons, map_map]
      rfl

/-- Fewer than `2 ^ 64` of them are distinct. -/
lemma nodup_iterates {n : ℕ} (h : n < u64Size) :
    ((List.range n).map fun k => Handle.next^[k] 1).Nodup := by
  refine nodup_range.map_on fun a ha b hb hab => ?_
  rw [mem_range] at ha hb
  rw [Handle.iterate_next (by omega), Handle.iterate_next (by omega)] at hab
  exact Nat.add_right_cancel hab

namespace DmaState

/-- The mapping handle that a call is answered with, and the bundle it goes to. -/
def mappingTo (state : DmaState) (call : Store × DmaCall) : List (BundleId × Handle) :=
  match (state.perform call.1 call.2).2 with
  | .mapped handle => [(call.2.bundle, handle)]
  | _ => []

/-- The submission handle that a call is answered with, and the bundle it goes to. -/
def submissionTo (state : DmaState) (call : Store × DmaCall) : List (BundleId × Handle) :=
  match (state.perform call.1 call.2).2 with
  | .submitted handle => [(call.2.bundle, handle)]
  | _ => []

variable (calls : List (Store × DmaCall))

def reach : DmaState := run step init calls

def mappingsTo : List (BundleId × Handle) :=
  outputs step mappingTo init calls

def submissionsTo : List (BundleId × Handle) :=
  outputs step submissionTo init calls

lemma mappingTo_cases (state : DmaState) (call : Store × DmaCall) :
    (mappingTo state call = [] ∧ (step state call).nextMapping = state.nextMapping)
      ∨ ∃ bundle, mappingTo state call = [(bundle, state.nextMapping)]
        ∧ (step state call).nextMapping = state.nextMapping.next := by
  obtain ⟨store, call⟩ := call
  have hdid := did_perform state store call
  unfold mappingTo step
  generalize state.perform store call = r at hdid
  cases hdid with
  | mapped bundle buffer flags => exact .inr ⟨bundle, rfl, rfl⟩
  | _ => exact .inl ⟨rfl, rfl⟩

lemma submissionTo_cases (state : DmaState) (call : Store × DmaCall) :
    (submissionTo state call = [] ∧ (step state call).nextSubmit = state.nextSubmit)
      ∨ ∃ bundle, submissionTo state call = [(bundle, state.nextSubmit)]
        ∧ (step state call).nextSubmit = state.nextSubmit.next := by
  obtain ⟨store, call⟩ := call
  have hdid := did_perform state store call
  unfold submissionTo step
  generalize state.perform store call = r at hdid
  cases hdid with
  | submitted bundle device mapping bytes m hmapping hbundle => exact .inr ⟨bundle, rfl, rfl⟩
  | _ => exact .inl ⟨rfl, rfl⟩

/-! ## The tables -/

/-- The tables file each entry under its handle, with the bundle that was given the handle. -/
structure Recorded (state : DmaState) (mappings submissions : List (BundleId × Handle)) : Prop where
  mapping : ∀ (handle : Handle) m, state.mappings[handle]? = some m →
    (m.bundle, handle) ∈ mappings
  submission : ∀ (handle : Handle) s, state.submissions[handle]? = some s →
    (s.bundle, handle) ∈ submissions

/-- What one call adds to the tables it also adds to the record. -/
lemma Recorded.step {state : DmaState} {mappings submissions : List (BundleId × Handle)}
    (h : state.Recorded mappings submissions) (call : Store × DmaCall) :
    (state.step call).Recorded (mappings ++ state.mappingTo call)
      (submissions ++ state.submissionTo call) := by
  obtain ⟨store, call⟩ := call
  have hdid := did_perform state store call
  unfold DmaState.step mappingTo submissionTo
  generalize state.perform store call = r at hdid
  cases hdid with
  | refused => simpa using h
  | mapped bundle buffer flags =>
    refine ⟨forall_insert (mem_append_right _ (mem_singleton_self _)) ?_,
      by simpa using h.submission⟩
    exact fun handle m _ hm => mem_append_left _ (h.mapping handle m hm)
  | submitted bundle device mapping bytes m hmapping hbundle =>
    refine ⟨by simpa using h.mapping,
      forall_insert (mem_append_right _ (mem_singleton_self _)) ?_⟩
    exact fun handle s _ hs => mem_append_left _ (h.submission handle s hs)
  | completed bundle handle s hsubmission hbundle =>
    refine ⟨by simpa using h.mapping,
      forall_insert (mem_append_left _ (h.submission handle s hsubmission)) ?_⟩
    exact fun other t _ ht => mem_append_left _ (h.submission other t ht)

lemma recorded_reach : (reach calls).Recorded (mappingsTo calls) (submissionsTo calls) := by
  induction calls using List.reverseRecOn with
  | nil => exact ⟨by simp [reach, init], by simp [reach, init]⟩
  | append_singleton calls call ih =>
    rw [reach, mappingsTo, submissionsTo, run_concat, outputs_concat, outputs_concat]
    exact ih.step call

/-! ## Isolation -/

/-- In every run that hands out fewer than `2 ^ 64` handles of either kind, no handle is handed out
twice, and each call keeps to the handles that its own bundle was given before. -/
theorem dma_handle_isolation (calls : List (Store × DmaCall))
    (hmappings : (mappingsTo calls).length < u64Size)
    (hsubmissions : (submissionsTo calls).length < u64Size) :
    ((mappingsTo calls).map Prod.snd).Nodup ∧ ((submissionsTo calls).map Prod.snd).Nodup
      ∧ ∀ pre store call post, calls = pre ++ (store, call) :: post →
        (∀ bundle device mapping bytes handle, call = .submit bundle device mapping bytes →
          ((reach pre).perform store call).2 = .submitted handle →
          (bundle, mapping) ∈ mappingsTo pre)
        ∧ (∀ bundle handle submission, call = .wait bundle handle →
          ((reach pre).perform store call).2 = .completed submission →
          (bundle, handle) ∈ submissionsTo pre
            ∧ ∃ s, (reach pre).submissions[handle]? = some s
              ∧ ((reach pre).perform store call).1
                = { reach pre with
                    submissions :=
                      (reach pre).submissions.insert handle { s with status := .complete } })
        ∧ (((reach pre).perform store call).2 = .refused →
          ((reach pre).perform store call).1 = reach pre) := by
  refine ⟨?_, ?_, fun pre store call post _ => ?_⟩
  · rw [mappingsTo, handles_eq_iterates mappingTo_cases]
    exact nodup_iterates hmappings
  · rw [submissionsTo, handles_eq_iterates submissionTo_cases]
    exact nodup_iterates hsubmissions
  · have hrecorded := recorded_reach pre
    have hdid := did_perform (reach pre) store call
    generalize (reach pre).perform store call = r at hdid
    cases hdid with
    | refused => exact ⟨by simp, by simp, fun _ => rfl⟩
    | mapped bundle buffer flags => exact ⟨by simp, by simp, by simp⟩
    | submitted bundle device mapping bytes m hmapping hbundle =>
      refine ⟨?_, by simp, by simp⟩
      rintro _ _ _ _ _ ⟨⟩ -
      exact hbundle ▸ hrecorded.mapping mapping m hmapping
    | completed bundle handle s hsubmission hbundle =>
      refine ⟨by simp, ?_, by simp⟩
      rintro _ _ _ ⟨⟩ -
      exact ⟨hbundle ▸ hrecorded.submission handle s hsubmission, s, hsubmission, rfl⟩

/-- The store after the kernel has let two bundles use one buffer and one device. -/
def twoGrants : Store :=
  let grant (bundle : BundleId) : Call :=
    ⟨kernelBundleId, 0, .linkEdge ⟨none, Canon.symbolToString Canon.canDma, bundle, 7#128, ∅⟩⟩
  (GraphState.reach crates [grant 0xb1#128, grant 0xb2#128]).store

/-- Two bundles map the buffer; each then tries the handles of the other. -/
def guessing : List (Store × DmaCall) :=
  [.map 0xb1#128 7#128 0, .map 0xb2#128 7#128 0, .submit 0xb2#128 7#128 1 64,
    .submit 0xb1#128 7#128 1 64, .wait 0xb2#128 1, .wait 0xb1#128 1].map fun call =>
      (twoGrants, call)

theorem dma_handle_isolation_guessing :
    mappingsTo guessing = [(0xb1#128, 1), (0xb2#128, 2)]
      ∧ submissionsTo guessing = [(0xb1#128, 1)]
      ∧ ((mappingsTo guessing).map Prod.snd).Nodup
      ∧ ((submissionsTo guessing).map Prod.snd).Nodup := by
  have hmappings : mappingsTo guessing = [(0xb1#128, 1), (0xb2#128, 2)] := by decide +kernel
  have hsubmissions : submissionsTo guessing = [(0xb1#128, 1)] := by decide +kernel
  obtain ⟨hdistinct, hdistinct', -⟩ := dma_handle_isolation guessing
    (by rw [hmappings]; decide) (by rw [hsubmissions]; decide)
  exact ⟨hmappings, hsubmissions, hdistinct, hdistinct'⟩

end DmaState

end ThingOS
