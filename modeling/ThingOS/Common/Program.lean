import Mathlib

/-!
# Programs that may fail or fault

A program over a state returns a value, gives up with an error, or faults: it panics or does what
has no defined meaning. It always leaves a state behind. Triples say what holds of that state, and
`Faults` says exactly when a program faults.
-/

namespace ThingOS

universe u

/-- How a program ends, and the state it leaves. -/
inductive Outcome (σ ε φ α : Type u) where
  | done (value : α) (state : σ)
  | failed (error : ε) (state : σ)
  | fault (fault : φ) (state : σ)

variable {σ ε φ α β : Type u} {ι : Type*}

def Outcome.state : Outcome σ ε φ α → σ
  | done _ s => s
  | failed _ s => s
  | fault _ s => s

def Outcome.isDone : Outcome σ ε φ α → Bool
  | done _ _ => true
  | _ => false

def Outcome.fault? : Outcome σ ε φ α → Option φ
  | fault f _ => some f
  | _ => none

lemma Outcome.eq_done_of_isDone {o : Outcome σ ε φ α} (h : o.isDone = true) :
    ∃ a, o = done a o.state := by
  cases o with
  | done a s => exact ⟨a, rfl⟩
  | failed e s => cases h
  | fault f s => cases h

/-- `Q` holds of what was returned and the state that is left, or `E` of the state that is left by
a failure or a fault. -/
def Outcome.Ends (Q : α → σ → Prop) (E : σ → Prop) : Outcome σ ε φ α → Prop
  | done a s => Q a s
  | failed _ s => E s
  | fault _ s => E s

/-- Both ended in the same way and with the same value, in states related by `R`. -/
def Outcome.Related (R : σ → σ → Prop) :
    Outcome σ ε φ α → Outcome σ ε φ α → Prop
  | done a s, done b t => a = b ∧ R s t
  | failed e s, failed f t => e = f ∧ R s t
  | fault x s, fault y t => x = y ∧ R s t
  | _, _ => False

def Program (σ ε φ α : Type u) := σ → Outcome σ ε φ α

namespace Program

instance : Monad (Program σ ε φ) where
  pure a := fun s => .done a s
  bind p f := fun s =>
    match p s with
    | .done a t => f a t
    | .failed e t => .failed e t
    | .fault x t => .fault x t

/-- Give up. -/
def fail (e : ε) : Program σ ε φ α := fun s => .failed e s

def read : Program σ ε φ σ := fun s => .done s s

def write (t : σ) : Program σ ε φ PUnit := fun _ => .done .unit t

/-- A computation that does not look at the state and may fault. -/
def lift (x : Except φ α) : Program σ ε φ α := fun s =>
  match x with
  | .ok a => .done a s
  | .error f => .fault f s

/-- Run the body for each element in order, until one fails or faults. -/
def forEach (body : ι → Program σ ε φ PUnit) : List ι → Program σ ε φ PUnit
  | [] => pure .unit
  | i :: l => body i >>= fun _ => forEach body l

@[simp] lemma pure_apply (a : α) (s : σ) : (pure a : Program σ ε φ α) s = .done a s := rfl

variable {p : Program σ ε φ α} {f : α → Program σ ε φ β} {s : σ} {body : ι → Program σ ε φ PUnit}
  {l : List ι} {x : Except φ α} {a : α}

lemma lift_bind_of_ok (h : x = .ok a) (f : α → Program σ ε φ β) (s : σ) :
    (lift x >>= f) s = f a s := by
  rw [h]
  rfl

lemma read_bind_apply (f : σ → Program σ ε φ β) (s : σ) : (read >>= f) s = f s s := rfl

lemma bind_of_done {t : σ} (h : p s = .done a t) (f : α → Program σ ε φ β) :
    (p >>= f) s = f a t := by
  show (match p s with | .done a t => f a t | .failed e t => .failed e t | .fault x t => .fault x t)
    = _
  rw [h]

lemma bind_eq_done {u : σ} {b : β} :
    (p >>= f) s = .done b u ↔ ∃ a t, p s = .done a t ∧ f a t = .done b u := by
  show (match p s with | .done a t => f a t | .failed e t => .failed e t | .fault x t => .fault x t)
    = _ ↔ _
  cases p s <;> simp

/-! ## Triples -/

/-- Started where `P` holds, the program leaves a state where `Q` holds of what it returns, or one
where `E` holds if it fails or faults. -/
structure Triple (P : σ → Prop) (p : Program σ ε φ α) (Q : α → σ → Prop) (E : σ → Prop) : Prop where
  ends : ∀ s, P s → (p s).Ends Q E

namespace Triple

variable {P : σ → Prop} {Q : α → σ → Prop} {R : β → σ → Prop} {E : σ → Prop}

lemma pure (h : ∀ s, P s → Q a s) : Triple P (pure a : Program σ ε φ α) Q E := ⟨h⟩

lemma fail {e : ε} (h : ∀ s, P s → E s) : Triple P (fail e : Program σ ε φ α) Q E := ⟨h⟩

lemma write {Q : PUnit → σ → Prop} {t : σ} (h : ∀ s, P s → Q .unit t) :
    Triple P (write t : Program σ ε φ PUnit) Q E := ⟨h⟩

lemma bind (hp : Triple P p Q E) (hf : ∀ a, Triple (Q a) (f a) R E) : Triple P (p >>= f) R E := by
  refine ⟨fun s hs => ?_⟩
  have h := hp.ends s hs
  show Outcome.Ends R E (match p s with
    | .done a t => f a t | .failed e t => .failed e t | .fault x t => .fault x t)
  cases hps : p s <;> rw [hps] at h
  case done a t => exact (hf a).ends t h
  case failed => exact h
  case fault => exact h

lemma mono {P' : σ → Prop} (h : Triple P p Q E)
    (hP : ∀ s, P' s → P s) : Triple P' p Q E := ⟨fun s hs => h.ends s (hP s hs)⟩

lemma imp {Q' : α → σ → Prop} {E' : σ → Prop} (h : Triple P p Q E)
    (hQ : ∀ a s, Q a s → Q' a s) (hE : ∀ s, E s → E' s) : Triple P p Q' E' := by
  refine ⟨fun s hs => ?_⟩
  have hend := h.ends s hs
  cases hps : p s <;> rw [hps] at hend
  case done => exact hQ _ _ hend
  case failed => exact hE _ hend
  case fault => exact hE _ hend

lemma and {Q' : α → σ → Prop} {E' : σ → Prop} (h : Triple P p Q E)
    (h' : Triple P p Q' E') : Triple P p (fun a s => Q a s ∧ Q' a s) fun s => E s ∧ E' s := by
  refine ⟨fun s hs => ?_⟩
  have hend := h.ends s hs
  have hend' := h'.ends s hs
  cases hps : p s <;> rw [hps] at hend hend' <;> exact ⟨hend, hend'⟩

/-- The value of a computation without effects is known to what follows. -/
lemma lift_bind (h : ∀ a, x = .ok a → Triple P (f a) R E) (he : ∀ s, P s → E s) :
    Triple P (lift x >>= f) R E := by
  refine ⟨fun s hs => ?_⟩
  cases x with
  | ok a => exact (h a rfl).ends s hs
  | error e => exact he s hs

/-- The state is known to what follows when the program has read it. -/
lemma read_bind {f : σ → Program σ ε φ β} (h : ∀ s, P s → Triple (· = s) (f s) R E) :
    Triple P (read >>= f) R E := ⟨fun s hs => (h s hs).ends s rfl⟩

/-- The rule for loops: the invariant speaks about the elements already done. -/
lemma forEach (I : List ι → σ → Prop) (h : ∀ pre i post, l = pre ++ i :: post →
      Triple (I pre) (body i) (fun _ => I (pre ++ [i])) E) :
    Triple (I []) (Program.forEach body l) (fun _ => I l) E := by
  induction l generalizing I with
  | nil => exact pure fun s hs => hs
  | cons i l ih =>
    refine bind (h [] i l rfl) fun _ => ?_
    exact ih (fun pre => I (i :: pre)) fun pre j post hl => h (i :: pre) j post (by rw [hl]; rfl)

/-- The rule for an invariant that does not. -/
lemma forEach_mem (h : ∀ i ∈ l, Triple P (body i) (fun _ => P) E) :
    Triple P (Program.forEach body l) (fun _ => P) E := by
  refine forEach (fun _ => P) fun pre i post hl => h i ?_
  rw [hl]
  exact List.mem_append_right _ List.mem_cons_self

lemma state_of (h : Triple P p (fun _ => E) E) (hs : P s) : E (p s).state := by
  have hend := h.ends s hs
  cases hps : p s <;> rw [hps] at hend <;> exact hend

lemma of_done (h : Triple P p Q E) {t : σ} (hs : P s) (hdone : p s = .done a t) : Q a t := by
  have hend := h.ends s hs
  rw [hdone] at hend
  exact hend

end Triple

/-! ## Faults -/

def Faults (p : Program σ ε φ α) (s : σ) : Prop := ∃ f t, p s = .fault f t

lemma faults_of_fault? {f : φ} (h : (p s).fault? = some f) : Faults p s := by
  unfold Faults
  cases hps : p s with
  | fault f t => exact ⟨f, t, rfl⟩
  | done a t =>
    rw [hps] at h
    cases h
  | failed e t =>
    rw [hps] at h
    cases h

@[simp] lemma not_faults_pure (a : α) (s : σ) : ¬ Faults (pure a : Program σ ε φ α) s := nofun

@[simp] lemma not_faults_fail (e : ε) (s : σ) : ¬ Faults (fail e : Program σ ε φ α) s := nofun

lemma faults_bind : Faults (p >>= f) s ↔ Faults p s ∨ ∃ a t, p s = .done a t ∧ Faults (f a) t := by
  show (∃ x t, (match p s with
    | .done a t => f a t | .failed e t => .failed e t | .fault x t => .fault x t) = .fault x t) ↔ _
  unfold Faults
  cases p s <;> simp

lemma not_faults_bind :
    ¬ Faults (p >>= f) s ↔ ¬ Faults p s ∧ ∀ a t, p s = .done a t → ¬ Faults (f a) t := by
  rw [faults_bind]
  push Not
  exact Iff.rfl

lemma not_faults_lift_bind : ¬ Faults (lift x >>= f) s ↔ ∃ a, x = .ok a ∧ ¬ Faults (f a) s := by
  cases x with
  | ok a =>
    show ¬ Faults (f a) s ↔ _
    simp
  | error e => exact iff_of_false (not_not_intro ⟨e, s, rfl⟩) nofun

lemma faults_read_bind {f : σ → Program σ ε φ β} :
    Faults (read >>= f) s ↔ Faults (f s) s := Iff.rfl

/-- A loop faults where its body does, at the first element that is reached with a fault. -/
lemma faults_forEach :
    Faults (forEach body l) s ↔ ∃ pre i post, l = pre ++ i :: post
      ∧ ∃ t, forEach body pre s = .done .unit t ∧ Faults (body i) t := by
  induction l generalizing s with
  | nil => simp [forEach]
  | cons i l ih =>
    rw [forEach, faults_bind]
    constructor
    · rintro (h | ⟨_, t, hdone, h⟩)
      · exact ⟨[], i, l, rfl, s, rfl, h⟩
      · obtain ⟨pre, j, post, rfl, u, hpre, hj⟩ := ih.mp h
        exact ⟨i :: pre, j, post, rfl, u, (bind_of_done hdone _).trans hpre, hj⟩
    · rintro ⟨pre, j, post, hl, u, hpre, hj⟩
      cases pre with
      | nil =>
        cases hl
        cases hpre
        exact .inl hj
      | cons i' pre =>
        cases hl
        obtain ⟨_, t, hdone, hpre⟩ := bind_eq_done.mp hpre
        exact .inr ⟨_, t, hdone, ih.mpr ⟨pre, j, post, rfl, u, hpre, hj⟩⟩

/-- The rule for loops that do not fail: where the body is done with the good elements and faults on
the others, the loop is done if all are good and faults otherwise. The invariant speaks about the
elements still to come. -/
lemma not_faults_forEach (I : List ι → σ → Prop) {G : ι → Prop}
    (hgood : ∀ i post s, i ∈ l → I (i :: post) s → G i →
      ∃ t, body i s = .done .unit t ∧ I post t)
    (hbad : ∀ i post s, i ∈ l → I (i :: post) s → ¬ Faults (body i) s → G i) (hs : I l s) :
    (¬ Faults (forEach body l) s ↔ ∀ i ∈ l, G i)
      ∧ ((∀ i ∈ l, G i) → ∃ t, forEach body l s = .done .unit t ∧ I [] t) := by
  induction l generalizing s with
  | nil => simpa [forEach] using hs
  | cons i l ih =>
    rw [forEach, not_faults_bind, List.forall_mem_cons]
    have hstep := hgood i l s List.mem_cons_self hs
    have hrest := fun t => ih (fun j post s hj => hgood j post s (List.mem_cons_of_mem _ hj))
      (fun j post s hj => hbad j post s (List.mem_cons_of_mem _ hj)) (s := t)
    refine ⟨⟨fun ⟨hi, hl⟩ => ?_, fun ⟨hi, hl⟩ => ?_⟩, fun ⟨hi, hl⟩ => ?_⟩
    · grind
    · obtain ⟨t, hdone, ht⟩ := hstep hi
      refine ⟨?_, fun _ u hdone' => ?_⟩
      · rintro ⟨f, u, hfault⟩
        cases hdone.symm.trans hfault
      · cases hdone.symm.trans hdone'
        exact (hrest t ht).1.mpr hl
    · obtain ⟨t, hdone, ht⟩ := hstep hi
      rw [bind_of_done hdone]
      exact (hrest t ht).2 hl

/-! ## Runs side by side -/

/-- From related states the program proceeds in the same way and ends in related states. -/
structure Uniform (R : σ → σ → Prop) (p : Program σ ε φ α) : Prop where
  related : ∀ s t, R s t → (p s).Related R (p t)

namespace Uniform

variable {R : σ → σ → Prop} {t u : σ}

lemma pure (a : α) : Uniform R (pure a : Program σ ε φ α) := ⟨fun _ _ h => ⟨rfl, h⟩⟩

lemma lift (x : Except φ α) : Uniform R (lift x : Program σ ε φ α) := by
  refine ⟨fun s t h => ?_⟩
  cases x <;> exact ⟨rfl, h⟩

lemma bind (hp : Uniform R p) (hf : ∀ a, Uniform R (f a)) : Uniform R (p >>= f) := by
  refine ⟨fun s t hst => ?_⟩
  have h := hp.related s t hst
  show Outcome.Related R
    (match p s with | .done a t => f a t | .failed e t => .failed e t | .fault x t => .fault x t)
    (match p t with | .done a t => f a t | .failed e t => .failed e t | .fault x t => .fault x t)
  cases hs : p s <;> cases ht : p t <;> rw [hs, ht] at h <;> try exact h.elim
  case done.done a s' b t' =>
    obtain ⟨rfl, h⟩ := h
    exact (hf a).related s' t' h
  case failed.failed => exact h
  case fault.fault => exact h

lemma read_bind {f : σ → Program σ ε φ β}
    (h : ∀ s t, R s t → (f s s).Related R (f t t)) : Uniform R (read >>= f) := ⟨h⟩

/-- The same computation without effects, before programs that may differ. -/
lemma related_lift_bind {g : α → Program σ ε φ β} (hst : R s t)
    (h : ∀ a, (f a s).Related R (g a t)) :
    ((Program.lift x >>= f) s).Related R ((Program.lift x >>= g) t) := by
  cases x with
  | ok a => exact h a
  | error e => exact ⟨rfl, hst⟩

lemma forEach (h : ∀ i, Uniform R (body i)) (l : List ι) : Uniform R (Program.forEach body l) := by
  induction l with
  | nil => exact pure _
  | cons i l ih => exact bind (h i) fun _ => ih

lemma done (h : Uniform R p) (hst : R s t) (hdone : p s = .done a u) :
    ∃ u', p t = .done a u' ∧ R u u' := by
  have hrel := h.related s t hst
  rw [hdone] at hrel
  cases ht : p t <;> rw [ht] at hrel
  case done b u' =>
    obtain ⟨rfl, hu⟩ := hrel
    exact ⟨u', rfl, hu⟩
  case failed => exact hrel.elim
  case fault => exact hrel.elim

end Uniform

end Program

end ThingOS
