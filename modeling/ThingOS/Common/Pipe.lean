import ThingOS.Common.Run

/-!
# A queue between a writer and a machine

A writer appends to a queue, and a reader takes any amount from its front and feeds it to a machine.
However the two take turns, the machine has put out what it puts out for the first part of all that
was written, and the rest is still in the queue.
-/

namespace ThingOS.Pipe

variable {σ α β : Type*} (step : σ → α → σ) (out : σ → α → List β)

/-- The machine has been fed all of `written` but for what is in the queue. -/
structure Relays (start : σ) (written queue : List α) (machine : σ) (produced : List β) : Prop where
  fed : ∃ taken, taken ++ queue = written ∧ machine = run step start taken
    ∧ produced = outputs step out start taken

variable {step out} {start machine : σ} {written queue record : List α} {produced : List β}

lemma Relays.init : Relays step out start [] [] start [] :=
  ⟨[], rfl, rfl, rfl⟩

section

variable (h : Relays step out start written queue machine produced)
include h

lemma Relays.write (more : List α) :
    Relays step out start (written ++ more) (queue ++ more) machine produced := by
  obtain ⟨taken, hwritten, hmachine, hproduced⟩ := h.fed
  refine ⟨taken, ?_, hmachine, hproduced⟩
  rw [← hwritten, List.append_assoc]

lemma Relays.read (n : ℕ) :
    Relays step out start written (queue.drop n) (run step machine (queue.take n))
      (produced ++ outputs step out machine (queue.take n)) := by
  obtain ⟨taken, hwritten, hmachine, hproduced⟩ := h.fed
  refine ⟨taken ++ queue.take n, ?_, ?_, ?_⟩
  · rw [List.append_assoc, List.take_append_drop, hwritten]
  · rw [run_append, hmachine]
  · rw [outputs_append, hproduced, hmachine]

/-- What was produced depends on how much waits only. -/
lemma Relays.produced_eq :
    produced = outputs step out start (written.take (written.length - queue.length)) := by
  obtain ⟨taken, hwritten, -, hproduced⟩ := h.fed
  have hlength : written.length - queue.length = taken.length := by
    rw [← hwritten, List.length_append, Nat.add_sub_cancel]
  rw [hproduced, hlength, ← hwritten, List.take_left]

end

/-- A machine may record what it is fed. -/
lemma outputs_record (s : σ) (as : List α) : outputs step (fun _ a => [a]) s as = as := by
  induction as generalizing s with
  | nil => rfl
  | cons a as ih => rw [outputs, ih, List.singleton_append]

lemma Relays.append_queue (h : Relays step (fun _ a => [a]) start written queue machine record) :
    record ++ queue = written := by
  obtain ⟨taken, hwritten, -, hrecord⟩ := h.fed
  rw [hrecord, outputs_record, hwritten]

end ThingOS.Pipe
