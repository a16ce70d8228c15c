import Mathlib

/-!
# Runs of a deterministic machine

A machine is a function `step : σ → ι → σ`; a run feeds it a list of inputs. The rules here are the
ones the kernel developments share: an invariant of every step is an invariant of every run, and a
fact that is false at the start and true at the end became true at some step.
-/

namespace ThingOS

variable {σ ι : Type*} (step : σ → ι → σ)

/-- The state after feeding the inputs in order. -/
def run (s : σ) (inputs : List ι) : σ := inputs.foldl step s

@[simp] lemma run_nil (s : σ) : run step s [] = s := rfl

@[simp] lemma run_cons (s : σ) (i : ι) (inputs : List ι) :
    run step s (i :: inputs) = run step (step s i) inputs := rfl

lemma run_append (s : σ) (xs ys : List ι) :
    run step s (xs ++ ys) = run step (run step s xs) ys :=
  List.foldl_append

lemma run_concat (s : σ) (xs : List ι) (i : ι) :
    run step s (xs ++ [i]) = step (run step s xs) i := by
  rw [run_append, run_cons, run_nil]

/-- What the steps of a run put out, in order. -/
def outputs {β : Type*} (out : σ → ι → List β) : σ → List ι → List β
  | _, [] => []
  | s, i :: inputs => out s i ++ outputs out (step s i) inputs

lemma outputs_append {β : Type*} (out : σ → ι → List β) (s : σ) (xs ys : List ι) :
    outputs step out s (xs ++ ys)
      = outputs step out s xs ++ outputs step out (run step s xs) ys := by
  induction xs generalizing s with
  | nil => rfl
  | cons x xs ih => simp [outputs, ih]

lemma outputs_concat {β : Type*} (out : σ → ι → List β) (s : σ) (xs : List ι) (i : ι) :
    outputs step out s (xs ++ [i]) = outputs step out s xs ++ out (run step s xs) i := by
  rw [outputs_append, outputs, outputs, List.append_nil]

/-- Every step of the run satisfies `R`, a relation between the state a step starts from and its
input. -/
def EachStep (R : σ → ι → Prop) (s : σ) (inputs : List ι) : Prop :=
  ∀ pre i post, inputs = pre ++ i :: post → R (run step s pre) i

variable {step}

variable {R : σ → ι → Prop}

lemma eachStep_nil (s : σ) : EachStep step R s [] := by
  intro pre i post h
  simp at h

variable {s : σ} {inputs : List ι}

lemma eachStep_cons {i : ι} :
    EachStep step R s (i :: inputs) ↔ R s i ∧ EachStep step R (step s i) inputs := by
  constructor
  · intro h
    refine ⟨h [] i inputs rfl, ?_⟩
    rintro pre j post rfl
    exact h (i :: pre) j post rfl
  · rintro ⟨hi, h⟩ pre j post heq
    cases pre with
    | nil =>
      cases heq
      exact hi
    | cons k pre =>
      cases heq
      exact h pre j post rfl

lemma EachStep.of_append {xs ys : List ι}
    (h : EachStep step R s (xs ++ ys)) : EachStep step R s xs := by
  rintro pre i post rfl
  exact h pre i (post ++ ys) (by simp)

lemma EachStep.last {xs : List ι} {i : ι}
    (h : EachStep step R s (xs ++ [i])) : R (run step s xs) i :=
  h xs i [] rfl

variable {P : σ → Prop}

/-- A property that every permitted step preserves holds after every run of permitted steps. -/
lemma run_invariant_of_eachStep (hsteps : EachStep step R s inputs) (hinit : P s)
    (hstep : ∀ s i, R s i → P s → P (step s i)) : P (run step s inputs) := by
  induction inputs using List.reverseRecOn with
  | nil => exact hinit
  | append_singleton xs i ih =>
    rw [run_concat]
    exact hstep _ _ hsteps.last (ih hsteps.of_append)

/-- A property that every step preserves holds after every run. -/
lemma run_invariant (inputs : List ι) (hinit : P s)
    (hstep : ∀ s i, P s → P (step s i)) : P (run step s inputs) :=
  run_invariant_of_eachStep (R := fun _ _ => True) (fun _ _ _ _ => trivial) hinit
    fun s i _ => hstep s i

/-- If, where the invariant `V` holds, a step keeps `P` exactly when it is permitted, then `P` holds
throughout a run exactly when every step of the run is permitted. -/
lemma throughout_iff_eachStep {V : σ → Prop}
    (hV : V s) (hP : P s) (hstepV : ∀ s i, V s → V (step s i))
    (hstep : ∀ s i, V s → P s → (P (step s i) ↔ R s i)) :
    (∀ pre post, inputs = pre ++ post → P (run step s pre)) ↔ EachStep step R s inputs := by
  induction inputs generalizing s with
  | nil => exact iff_of_true (by simpa using hP) (eachStep_nil s)
  | cons i inputs ih =>
    rw [eachStep_cons]
    constructor
    · intro h
      have hnext : P (step s i) := h [i] inputs rfl
      refine ⟨(hstep s i hV hP).mp hnext, (ih (hstepV s i hV) hnext).mp ?_⟩
      rintro pre post rfl
      exact h (i :: pre) post rfl
    · rintro ⟨hi, hrest⟩ pre post heq
      cases pre with
      | nil => exact hP
      | cons j pre =>
        cases heq
        exact (ih (hstepV s i hV) ((hstep s i hV hP).mpr hi)).mpr hrest pre post rfl

/-- A preorder that every permitted input moves up in, the whole run moves up in. -/
lemma run_grows {R : σ → σ → Prop} {P : ι → Prop} (hrefl : ∀ s, R s s)
    (htrans : ∀ s t u, R s t → R t u → R s u) (hstep : ∀ s i, P i → R s (step s i)) (s : σ)
    (hinputs : ∀ i ∈ inputs, P i) : R s (run step s inputs) := by
  induction inputs generalizing s with
  | nil => exact hrefl s
  | cons i inputs ih =>
    exact htrans _ _ _ (hstep s i (hinputs i List.mem_cons_self))
      (ih _ fun j hj => hinputs j (List.mem_cons_of_mem _ hj))

/-- A fact that is false at the start of a run and true at its end became true at some step. -/
lemma exists_step_of_run {Q : σ → Prop} (hinit : ¬ Q s) (hend : Q (run step s inputs)) :
    ∃ pre i post, inputs = pre ++ i :: post ∧ ¬ Q (run step s pre)
      ∧ Q (step (run step s pre) i) := by
  induction inputs using List.reverseRecOn with
  | nil => exact absurd hend hinit
  | append_singleton xs i ih =>
    by_cases hxs : Q (run step s xs)
    · obtain ⟨pre, j, post, rfl, hpre, hj⟩ := ih hxs
      exact ⟨pre, j, post ++ [i], by simp, hpre, hj⟩
    · rw [run_concat] at hend
      exact ⟨xs, i, [], rfl, hxs, hend⟩

/-! ## One more at the end -/

lemma forall_mem_concat {α : Type*} {l : List α} {a : α} {P : α → Prop} :
    (∀ x ∈ l ++ [a], P x) ↔ (∀ x ∈ l, P x) ∧ P a := by
  rw [List.forall_mem_append, List.forall_mem_singleton]

lemma pairwise_concat {α : Type*} {l : List α} {a : α} {R : α → α → Prop} :
    (l ++ [a]).Pairwise R ↔ l.Pairwise R ∧ ∀ x ∈ l, R x a := by
  simp [List.pairwise_append]

end ThingOS
