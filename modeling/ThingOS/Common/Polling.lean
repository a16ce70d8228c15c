import ThingOS.Common.Run

/-!
# Polling a device

A driver that polls reads its device again and again, until a read gives nothing, and feeds each
byte to a machine. So it makes no difference to the machine how what was read is cut into reads, nor
how the reads are cut into polls.
-/

namespace ThingOS.Polling

variable {σ α β : Type*}

/-- What one poll of a device reads; the device would answer `reads`, in order. -/
def polled (reads : List (List α)) : List α := (reads.takeWhile (! ·.isEmpty)).flatten

def readLoop (step : σ → α → σ) : σ → (reads : List (List α)) → σ
  | s, [] => s
  | s, data :: reads => if data.isEmpty then s else readLoop step (run step s data) reads

/-- What the loop puts out. -/
def readOutputs (step : σ → α → σ) (out : σ → α → List β) : σ → (reads : List (List α)) → List β
  | _, [] => []
  | s, data :: reads =>
    if data.isEmpty then []
    else outputs step out s data ++ readOutputs step out (run step s data) reads

variable {step : σ → α → σ} {out : σ → α → List β}

lemma polled_cons (data : List α) (reads : List (List α)) :
    polled (data :: reads) = if data.isEmpty then [] else data ++ polled reads := by
  by_cases hdata : data.isEmpty <;> simp [polled, hdata]

lemma readLoop_eq (s : σ) (reads : List (List α)) :
    readLoop step s reads = run step s (polled reads) := by
  induction reads generalizing s with
  | nil => rfl
  | cons data reads ih =>
    rw [readLoop, polled_cons]
    split
    · rfl
    · rw [ih, run_append]

lemma readOutputs_eq (s : σ) (reads : List (List α)) :
    readOutputs step out s reads = outputs step out s (polled reads) := by
  induction reads generalizing s with
  | nil => rfl
  | cons data reads ih =>
    rw [readOutputs, polled_cons]
    split
    · rfl
    · rw [ih, outputs_append]

/-! ## A part of the state -/

section Part

variable {τ : Type*} {stepAll : τ → α → τ} {outAll : τ → α → List β} (part : τ → σ)
  (hstep : ∀ t a, part (stepAll t a) = step (part t) a)

include hstep

lemma outputs_of_part (hout : ∀ t a, outAll t a = out (part t) a) (t : τ) (as : List α) :
    outputs stepAll outAll t as = outputs step out (part t) as := by
  induction as generalizing t with
  | nil => rfl
  | cons a as ih => rw [outputs, outputs, ih, hstep, hout]

end Part

/-! ## Many polls -/

/-- Polls that feed all they read to one machine put out what it puts out for all of that in one. -/
lemma outputs_of_polls {ι : Type*} {poll : σ → ι → σ} {read : σ → ι → List α}
    {put : σ → ι → List β} (hpoll : ∀ s i, poll s i = run step s (read s i))
    (hput : ∀ s i, put s i = outputs step out s (read s i)) (s : σ) (polls : List ι) :
    outputs poll put s polls = outputs step out s (outputs poll read s polls) := by
  induction polls generalizing s with
  | nil => rfl
  | cons i polls ih => rw [outputs, outputs, outputs_append, ih, hput, hpoll]

end ThingOS.Polling
