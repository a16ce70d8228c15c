import ThingOS.Common.RingQueue

/-!
# The input buffer

`InputBuffer` of `kernel/src/drivers/input.rs`, the ring in which an interrupt handler leaves what a
driver reads later. It is a queue in a ring of cells that is read at `tail` and written at `head`,
with room for all but one of its cells.
-/

namespace ThingOS

open Fifo RingView

/-- The two indices only ever take values below `N`. -/
structure InputBuffer (α : Type*) (N : ℕ) where
  buf : Vector α N
  head : ℕ
  tail : ℕ
  default : α
  head_lt : head < N
  tail_lt : tail < N

namespace InputBuffer

variable {α : Type*} {N : ℕ}

lemma pos (b : InputBuffer α N) : 0 < N := Nat.zero_lt_of_lt b.head_lt

def new (default : α) (hN : 0 < N) : InputBuffer α N where
  buf := Vector.replicate N default
  head := 0
  tail := 0
  default := default
  head_lt := hN
  tail_lt := hN

variable (b : InputBuffer α N)

/-- `push`; `acquired` is the outcome of `try_lock`. -/
def push (acquired : Bool) (value : α) : InputBuffer α N × Except α Unit :=
  let next := (b.head + 1) % N
  if next = b.tail then (b, .error value)
  else if acquired then
    ({ b with
        buf := b.buf.set b.head value b.head_lt
        head := next
        head_lt := Nat.mod_lt _ b.pos }, .ok ())
  else (b, .error value)

def pop : InputBuffer α N × Option α :=
  if b.head = b.tail then (b, none)
  else
    ({ b with tail := (b.tail + 1) % N, tail_lt := Nat.mod_lt _ b.pos },
      some (b.buf.get ⟨b.tail, b.tail_lt⟩))

def clear : InputBuffer α N :=
  { b with
    buf := Vector.replicate N b.default
    head := 0
    tail := 0
    head_lt := b.pos
    tail_lt := b.pos }

def isEmpty : Bool := b.head = b.tail

def len : ℕ := if b.tail ≤ b.head then b.head - b.tail else N - b.tail + b.head

/-- An operation while no other is going on, so that the lock is free. -/
def handle : Request α → InputBuffer α N × Answer α
  | .push value =>
    match b.push true value with
    | (b, .ok ()) => (b, .pushed)
    | (b, .error value) => (b, .refused value)
  | .pop => (b.pop.1, .popped b.pop.2)
  | .clear => (b.clear, .cleared)
  | .len => (b, .len b.len)
  | .isEmpty => (b, .isEmpty b.isEmpty)

def step (request : Request α) : InputBuffer α N := (b.handle request).1

def answers (request : Request α) : List (Answer α) := [(b.handle request).2]

/-! ## The queue that a buffer holds -/

def cell (i : ℕ) : α := b.buf[i]?.getD b.default

/-- The entries, the oldest first. -/
def contents : List α := view b.cell N b.tail b.len

@[simp] lemma length_contents : b.contents.length = b.len := length_view ..

lemma len_eq_distance : b.len = distance N b.tail b.head := rfl

lemma len_lt : b.len < N := distance_lt b.tail_lt b.head_lt

lemma get_tail : b.buf.get ⟨b.tail, b.tail_lt⟩ = b.cell b.tail := by
  simp [cell, Vector.get, b.tail_lt]

/-- The only operation that writes a cell. -/
lemma cell_set (value : α) (i : ℕ) :
    (b.buf.set b.head value b.head_lt)[i]?.getD b.default
      = Function.update b.cell b.head value i := by
  by_cases hi : i = b.head
  · subst hi
    simp [b.head_lt]
  · rw [Function.update_of_ne hi, Vector.getElem?_set_ne b.head_lt (Ne.symm hi)]
    rfl

lemma isEmpty_contents : b.contents.isEmpty = b.isEmpty := by
  have hiff := distance_eq_zero_iff b.tail_lt b.head_lt
  rw [← len_eq_distance, ← length_contents, List.length_eq_zero_iff] at hiff
  rw [Bool.eq_iff_iff, List.isEmpty_iff, hiff, isEmpty, decide_eq_true_iff]

lemma contents_new (default : α) (hN : 0 < N) : (new default hN).contents = [] := by
  simp [contents, view, len, new]

@[simp] lemma contents_clear : b.clear.contents = [] := by simp [contents, view, len, clear]

/-- There is room unless the next cell is the one to read. -/
lemma room_iff : b.contents.length < N - 1 ↔ (b.head + 1) % N ≠ b.tail := by
  have hlt := b.len_lt
  rw [ne_eq, succ_mod_eq_iff b.tail_lt b.head_lt, ← len_eq_distance, length_contents]
  omega

lemma handle_push_of_room (value : α) (hroom : b.contents.length < N - 1) :
    (b.handle (.push value)).2 = .pushed
      ∧ (b.step (.push value)).contents = b.contents ++ [value] := by
  have hnext := b.room_iff.mp hroom
  rw [length_contents] at hroom
  have hlen : distance N b.tail ((b.head + 1) % N) = b.len + 1 :=
    distance_succ b.tail_lt b.head_lt (by rw [← len_eq_distance]; omega)
  refine ⟨by simp [handle, push, hnext], ?_⟩
  have hview := view_update_concat b.cell b.tail (show b.len < N by omega) value
  rw [len_eq_distance, add_distance b.tail_lt b.head_lt, ← len_eq_distance] at hview
  rw [contents, contents, ← hview]
  simp only [step, handle, push, if_neg hnext, if_true, len_eq_distance, hlen]
  rw [← len_eq_distance]
  exact congrArg (view · N b.tail (b.len + 1)) (funext (b.cell_set value))

lemma handle_push_of_full (value : α) (hfull : ¬ b.contents.length < N - 1) :
    b.handle (.push value) = (b, .refused value) := by
  have hnext := (not_congr b.room_iff).mp hfull
  rw [ne_eq, not_not] at hnext
  simp [handle, push, hnext]

lemma handle_pop :
    b.pop.2 = b.contents.head? ∧ b.pop.1.contents = b.contents.tail := by
  by_cases hempty : b.head = b.tail
  · have hnil : b.contents = [] := by
      rw [← List.isEmpty_iff, isEmpty_contents, isEmpty, decide_eq_true_iff]
      exact hempty
    simp [pop, hempty, hnil]
  · have hne : b.len ≠ 0 := fun h => hempty ((distance_eq_zero_iff b.tail_lt b.head_lt).mp h)
    have hlen : distance N ((b.tail + 1) % N) b.head = b.len - 1 :=
      distance_succ_left b.tail_lt b.head_lt hne
    have hcontents : b.contents
        = b.cell b.tail :: view b.cell N ((b.tail + 1) % N) (b.len - 1) := by
      rw [contents, ← view_succ b.cell b.tail_lt, Nat.sub_add_cancel (Nat.pos_of_ne_zero hne)]
    rw [hcontents]
    refine ⟨?_, ?_⟩
    · simp [pop, hempty, get_tail]
    · simp only [pop, if_neg hempty, contents, len_eq_distance, hlen, List.tail_cons]
      rfl

/-- Every operation does to the contents what it does to a queue, and gives its answer. -/
lemma handle_eq (request : Request α) :
    ((b.handle request).1.contents, (b.handle request).2)
      = Fifo.handle (N - 1) b.contents request := by
  cases request with
  | push value =>
    by_cases hroom : b.contents.length < N - 1
    · obtain ⟨hanswer, hcontents⟩ := b.handle_push_of_room value hroom
      rw [Fifo.handle, if_pos hroom, hanswer, ← hcontents]
      rfl
    · rw [Fifo.handle, if_neg hroom, handle_push_of_full b value hroom]
  | pop => rw [Fifo.handle, ← b.handle_pop.1, ← b.handle_pop.2]; rfl
  | clear => simp [handle, Fifo.handle]
  | len => simp [handle, Fifo.handle]
  | isEmpty => simp [handle, Fifo.handle, isEmpty_contents]

/-- In every run of operations, one at a time, the buffer answers as the queue does. -/
theorem answers_eq_fifo (default : α) (hN : 0 < N) (requests : List (Request α)) :
    outputs step answers (new default hN) requests
      = outputs (Fifo.step (N - 1)) (Fifo.answers (N - 1)) [] requests := by
  rw [← contents_new default hN]
  generalize new default hN = b
  induction requests generalizing b with
  | nil => rfl
  | cons request requests ih =>
    have hhandle := b.handle_eq request
    rw [outputs, outputs, ih, answers, Fifo.answers, step, Fifo.step, ← hhandle]

/-- With two cells there is room for one entry. -/
theorem answers_two_cells :
    outputs step answers (new 0 Nat.two_pos)
        [.push 7, .push 8, .len, .pop, .pop, .isEmpty, .push 9, .clear, .len]
      = [.pushed, .refused 8, .len 1, .popped (some 7), .popped none, .isEmpty true, .pushed,
        .cleared, .len 0] :=
  answers_eq_fifo 0 Nat.two_pos
    [.push 7, .push 8, .len, .pop, .pop, .isEmpty, .push 9, .clear, .len]

end InputBuffer

end ThingOS
