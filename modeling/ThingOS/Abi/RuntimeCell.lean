import ThingOS.Common.Run

/-!
# The runtime cell

`RuntimeCell` of `thing_abi/src/lib.rs`, set and read by any number of threads. Every operation on
the atomic `state` is a step, and so are the write and the read of `value`.
-/

namespace ThingOS

inductive CellState where
  | uninit
  | initing
  | inited

/-- What a thread does next, in the middle of a call. -/
inductive CellPhase (V : Type) where
  | idle
  /-- `set` has exchanged the state, and then written the value. -/
  | write (v : V)
  | publish (v : V)
  /-- `get` has found the cell set. -/
  | read

/-- The thread is not setting the cell. -/
def CellPhase.Reads {V : Type} : CellPhase V → Prop
  | .idle | .read => True
  | _ => False

inductive CellAction (V : Type) where
  | set (v : V)
  | get
  | resume

/-- The cell and the threads, with the values of the `set`s that returned `Ok` and what the `get`s
returned. -/
structure RuntimeCell (V : Type) where
  state : CellState
  value : Option V
  phase : ℕ → CellPhase V
  sets : List V
  gets : List (Option V)

namespace RuntimeCell

open List Function

variable {V : Type}

def new : RuntimeCell V := ⟨.uninit, none, fun _ => .idle, [], []⟩

def step (σ : RuntimeCell V) (i : ℕ × CellAction V) : RuntimeCell V :=
  let enter (phase : CellPhase V) := Function.update σ.phase i.1 phase
  match σ.phase i.1, i.2 with
  | .idle, .set v =>
    match σ.state with
    | .uninit => { σ with state := .initing, phase := enter (.write v) }
    | _ => σ
  | .idle, .get =>
    match σ.state with
    | .inited => { σ with phase := enter .read }
    | _ => { σ with gets := σ.gets ++ [none] }
  | .write v, .resume => { σ with value := some v, phase := enter (.publish v) }
  | .publish v, .resume =>
    { σ with state := .inited, phase := enter .idle, sets := σ.sets ++ [v] }
  | .read, .resume => { σ with phase := enter .idle, gets := σ.gets ++ [σ.value] }
  | _, _ => σ

/-- The three stages: nothing was set, one thread is setting, or a value is set for good. -/
inductive Stage (σ : RuntimeCell V) (m n : ℕ) : Prop
  | uninit (hstate : σ.state = .uninit) (hidle : ∀ i, σ.phase i = .idle) (hsets : σ.sets = [])
      (hgets : σ.gets = replicate m none)
  | initing (t : ℕ) (v : V) (hstate : σ.state = .initing)
      (hphase : σ.phase t = .write v ∨ σ.phase t = .publish v ∧ σ.value = some v)
      (hidle : ∀ i ≠ t, σ.phase i = .idle) (hsets : σ.sets = []) (hgets : σ.gets = replicate m none)
  | inited (v : V) (hstate : σ.state = .inited) (hvalue : σ.value = some v)
      (hphase : ∀ i, (σ.phase i).Reads) (hsets : σ.sets = [v])
      (hgets : σ.gets = replicate m none ++ replicate n (some v))

lemma Stage.step {σ : RuntimeCell V} {m n : ℕ} (h : σ.Stage m n) (i : ℕ × CellAction V) :
    ∃ m n, (σ.step i).Stage m n := by
  obtain ⟨thread, action⟩ := i
  have hsame : ∃ m n, σ.Stage m n := ⟨m, n, h⟩
  cases h with
  | uninit hstate hidle hsets hgets =>
    cases action <;> simp only [RuntimeCell.step, hidle, hstate]
    case set v =>
      exact ⟨m, n, .initing thread v rfl (.inl (update_self ..))
        (fun i hi => (update_of_ne hi ..).trans (hidle i)) hsets hgets⟩
    case get => exact ⟨m + 1, n, .uninit rfl hidle hsets (by rw [hgets, replicate_succ'])⟩
    case resume => exact hsame
  | initing t v hstate hphase hidle hsets hgets =>
    by_cases ht : thread = t
    · -- the thread that sets the cell goes on
      subst ht
      rcases hphase with hphase | ⟨hphase, hvalue⟩ <;> cases action <;>
        simp only [RuntimeCell.step, hphase] <;> try exact hsame
      · exact ⟨m, n, .initing thread v hstate (.inr ⟨update_self .., rfl⟩)
          (fun i hi => (update_of_ne hi ..).trans (hidle i hi)) hsets hgets⟩
      · exact ⟨m, 0, .inited v rfl hvalue ((forall_update_iff σ.phase fun _ => CellPhase.Reads).mpr
          ⟨trivial, fun i hi => (hidle i hi).symm ▸ trivial⟩) (by rw [hsets, nil_append])
          (by rw [hgets, replicate_zero, append_nil])⟩
    · cases action <;> simp only [RuntimeCell.step, hidle thread ht, hstate] <;> try exact hsame
      exact ⟨m + 1, n, .initing t v rfl hphase hidle hsets (by rw [hgets, replicate_succ'])⟩
  | inited v hstate hvalue hphase hsets hgets =>
    have henter {phase : CellPhase V} (h : phase.Reads) :
        ∀ i, (update σ.phase thread phase i).Reads :=
      (forall_update_iff σ.phase fun _ => CellPhase.Reads).mpr ⟨h, fun i _ => hphase i⟩
    have hthread := hphase thread
    cases heq : σ.phase thread <;> cases action <;> rw [heq] at hthread <;>
      simp only [RuntimeCell.step, heq, hstate] <;> try first | exact hsame | cases hthread
    · exact ⟨m, n, .inited v rfl hvalue (henter trivial) hsets hgets⟩
    · refine ⟨m, n + 1, .inited v rfl hvalue (henter trivial) hsets ?_⟩
      rw [hgets, hvalue, replicate_succ', append_assoc]

lemma stage_run (inputs : List (ℕ × CellAction V)) : ∃ m n, (run step new inputs).Stage m n :=
  run_invariant (P := fun σ => ∃ m n, Stage σ m n) inputs
    ⟨0, 0, .uninit rfl (fun _ => rfl) rfl rfl⟩ fun _ i ⟨_, _, h⟩ => h.step i

/-- However the steps of the threads follow one another: one `set` at most returns `Ok`, a `get`
returns its value or nothing, and the value from the first time on, and the value is not read while
it is written. -/
theorem runtime_cell (inputs : List (ℕ × CellAction V)) :
    let σ := run step new inputs
    σ.sets.length ≤ 1 ∧ (∀ v, some v ∈ σ.gets → σ.sets = [v])
      ∧ (σ.gets.Pairwise fun a b => a.isSome → b.isSome)
      ∧ ∀ i j v, σ.phase i = .read → σ.phase j ≠ .write v := by
  intro σ
  obtain ⟨m, n, h⟩ := stage_run inputs
  cases h with
  | uninit hstate hidle hsets hgets =>
    refine ⟨by simp [σ, hsets], by simp [σ, hgets], by simp [σ, hgets, pairwise_replicate], ?_⟩
    intro i j v hread
    cases (hidle i).symm.trans hread
  | initing t v hstate hphase hidle hsets hgets =>
    refine ⟨by simp [σ, hsets], by simp [σ, hgets], by simp [σ, hgets, pairwise_replicate], ?_⟩
    intro i j w hread
    by_cases hi : i = t
    · subst hi
      rcases hphase with hphase | ⟨hphase, -⟩ <;> cases hphase.symm.trans hread
    · cases (hidle i hi).symm.trans hread
  | inited v hstate hvalue hphase hsets hgets =>
    refine ⟨by simp [σ, hsets], ?_, by simp [σ, hgets, pairwise_append, pairwise_replicate], ?_⟩
    · intro w hw
      simp only [σ, hgets, mem_append, mem_replicate, reduceCtorEq, and_false, false_or,
        Option.some_inj] at hw
      rw [hw.2]
      exact hsets
    · intro i j w _ hwrite
      have hreads := hphase j
      rw [hwrite] at hreads
      exact hreads

end RuntimeCell

end ThingOS
