import ThingOS.Common.Run

/-!
# A bounded queue that drops its oldest entries

A queue takes arrivals and is emptied from time to time by a reader; beyond its bound the oldest
entry goes. What the reader took so far, followed by what still waits, is the sequence of all
arrivals, cut at the times the reader came, with only the most recent part of every piece.
-/

namespace ThingOS.BoundedQueue

open List

variable {α : Type*} {bound : ℕ}

/-- What happens to a queue. -/
inductive Event (α : Type*) where
  | arrive (a : α)
  | drain

/-- What the reader has taken, in order, and what still waits. -/
structure State (α : Type*) where
  taken : List α
  queue : List α

/-- Append an entry, dropping the oldest one when the queue has grown too long. -/
def push (bound : ℕ) (queue : List α) (a : α) : List α :=
  let queue := queue ++ [a]
  if bound < queue.length then queue.drop 1 else queue

lemma mem_push {queue : List α} {a b : α} (h : b ∈ push bound queue a) : b ∈ queue ∨ b = a := by
  have hmem : b ∈ queue ++ [a] := by
    unfold push at h
    dsimp only at h
    split at h
    · exact mem_of_mem_drop h
    · exact h
  simpa using hmem

def handle (bound : ℕ) (s : State α) : Event α → State α
  | .arrive a => { s with queue := push bound s.queue a }
  | .drain => { taken := s.taken ++ s.queue, queue := [] }

/-- The arrivals, cut where the reader came. There is always a last, open piece. -/
def intervals : List (Event α) → List (List α)
  | [] => [[]]
  | .drain :: events => [] :: intervals events
  | .arrive a :: events =>
    match intervals events with
    | [] => [[a]]
    | piece :: pieces => (a :: piece) :: pieces

def arrivals (events : List (Event α)) : List α := (intervals events).flatten

variable (events : List (Event α))

/-- The reader closes the open piece, an arrival goes to it. -/
lemma intervals_concat :
    ∃ pieces piece, intervals events = pieces ++ [piece]
      ∧ intervals (events ++ [.drain]) = pieces ++ [piece, []]
      ∧ ∀ a, intervals (events ++ [.arrive a]) = pieces ++ [piece ++ [a]] := by
  induction events with
  | nil => exact ⟨[], [], rfl, rfl, fun _ => rfl⟩
  | cons event events ih =>
    obtain ⟨pieces, piece, heq, hdrain, harrive⟩ := ih
    cases event with
    | drain =>
      exact ⟨[] :: pieces, piece, by simp [intervals, heq], by simp [intervals, hdrain],
        fun a => by simp [intervals, harrive]⟩
    | arrive b =>
      cases pieces with
      | nil =>
        exact ⟨[], b :: piece, by simp [intervals, heq], by simp [intervals, hdrain],
          fun a => by simp [intervals, harrive]⟩
      | cons first pieces =>
        exact ⟨(b :: first) :: pieces, piece, by simp [intervals, heq],
          by simp [intervals, hdrain], fun a => by simp [intervals, harrive]⟩

@[simp] lemma arrivals_concat_drain :
    arrivals (events ++ [.drain]) = arrivals events := by
  obtain ⟨pieces, piece, heq, hdrain, -⟩ := intervals_concat events
  simp [arrivals, heq, hdrain]

@[simp] lemma arrivals_concat_arrive (a : α) :
    arrivals (events ++ [.arrive a]) = arrivals events ++ [a] := by
  obtain ⟨pieces, piece, heq, -, harrive⟩ := intervals_concat events
  simp [arrivals, heq, harrive]

/-- Pushing onto the most recent part of a piece gives the most recent part of the longer one. -/
lemma push_rtake (piece : List α) (a : α) (hbound : 0 < bound) :
    push bound (piece.rtake bound) a = (piece ++ [a]).rtake bound := by
  have hlen : (piece.rtake bound).length = min bound piece.length := by
    simp only [List.rtake, length_drop]
    omega
  unfold push
  simp only [length_append, length_singleton, hlen]
  split
  · rename_i hlong
    have hdrop : (piece ++ [a]).length - bound = piece.length - bound + 1 := by
      rw [length_append, length_singleton]
      omega
    rw [List.rtake, List.rtake, hdrop, ← drop_append_of_le_length (by omega), drop_drop]
  · rename_i hshort
    have hall : piece.length - bound = 0 := by omega
    have hall' : (piece ++ [a]).length - bound = 0 := by
      rw [length_append, length_singleton]
      omega
    rw [List.rtake, List.rtake, hall, hall', drop_zero, drop_zero]

/-- After any events, what was taken and what waits are the most recent parts of the closed pieces
and of the open one. -/
lemma run_handle (hbound : 0 < bound) :
    ∃ pieces piece, intervals events = pieces ++ [piece]
      ∧ (run (handle bound) ⟨[], []⟩ events).taken = (pieces.map (List.rtake · bound)).flatten
      ∧ (run (handle bound) ⟨[], []⟩ events).queue = piece.rtake bound := by
  induction events using List.reverseRecOn with
  | nil => exact ⟨[], [], rfl, rfl, by simp [List.rtake]⟩
  | append_singleton events event ih =>
    obtain ⟨pieces, piece, heq, htaken, hqueue⟩ := ih
    obtain ⟨pieces', piece', heq', hdrain, harrive⟩ := intervals_concat events
    obtain ⟨rfl, hpiece⟩ := append_inj' (heq.symm.trans heq') rfl
    cases hpiece
    rw [run_concat]
    cases event with
    | drain =>
      refine ⟨pieces ++ [piece], [], by simpa using hdrain, ?_, by simp [handle, List.rtake]⟩
      simp [handle, htaken, hqueue]
    | arrive a =>
      refine ⟨pieces, piece ++ [a], harrive a, htaken, ?_⟩
      rw [← push_rtake piece a hbound, ← hqueue]
      rfl

/-- Nothing is lost or repeated beyond what the bound cuts off. -/
lemma taken_append_queue (hbound : 0 < bound) :
    (run (handle bound) ⟨[], []⟩ events).taken ++ (run (handle bound) ⟨[], []⟩ events).queue
      = ((intervals events).map (List.rtake · bound)).flatten := by
  obtain ⟨pieces, piece, heq, htaken, hqueue⟩ := run_handle events hbound
  rw [htaken, hqueue, heq]
  simp

lemma length_queue_le (hbound : 0 < bound) :
    (run (handle bound) ⟨[], []⟩ events).queue.length ≤ bound := by
  obtain ⟨-, piece, -, -, hqueue⟩ := run_handle events hbound
  rw [hqueue, List.rtake, length_drop]
  omega

/-- What survives is a part of the arrivals, in their order. -/
lemma kept_sublist_arrivals :
    (((intervals events).map (List.rtake · bound)).flatten).Sublist (arrivals events) := by
  unfold arrivals
  induction intervals events with
  | nil => exact List.Sublist.slnil
  | cons piece pieces ih =>
    simp only [map_cons, flatten_cons]
    exact (drop_sublist _ _).append ih

end ThingOS.BoundedQueue
