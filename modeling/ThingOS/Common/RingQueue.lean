import ThingOS.Common.Run

/-!
# A queue in a ring of cells

The cells of a ring from the place to read at up to the place to write at, around the end if need
be, hold the entries of a queue. When the two places meet the queue is empty, so of `N` cells one
always stays free.

A write to the cell after the last entry appends it (`view_update_concat`), and moving the place to
read at on by one takes off the first entry (`view_succ`).
-/

namespace ThingOS

open Nat

/-! ## The queue -/

namespace Fifo

variable {α : Type*}

/-- What may be asked of a queue. -/
inductive Request (α : Type*) where
  | push (a : α)
  | pop
  | clear
  | len
  | isEmpty

inductive Answer (α : Type*) where
  | pushed
  /-- The entry comes back. -/
  | refused (a : α)
  | popped (a : Option α)
  | cleared
  | len (n : ℕ)
  | isEmpty (b : Bool)

/-- A queue with room for `capacity` entries, the oldest first. -/
def handle (capacity : ℕ) (queue : List α) : Request α → List α × Answer α
  | .push a => if queue.length < capacity then (queue ++ [a], .pushed) else (queue, .refused a)
  | .pop => (queue.tail, .popped queue.head?)
  | .clear => ([], .cleared)
  | .len => (queue, .len queue.length)
  | .isEmpty => (queue, .isEmpty queue.isEmpty)

def step (capacity : ℕ) (queue : List α) (request : Request α) : List α :=
  (handle capacity queue request).1

def answers (capacity : ℕ) (queue : List α) (request : Request α) : List (Answer α) :=
  [(handle capacity queue request).2]

end Fifo

/-! ## The ring -/

namespace RingView

variable {α : Type*} {N tail head count : ℕ} (cell : ℕ → α)

/-- The contents of `count` cells, from `start` on. -/
def view (N start count : ℕ) : List α := (List.range count).map fun i => cell ((start + i) % N)

@[simp] lemma length_view (start : ℕ) : (view cell N start count).length = count := by
  simp [view]

lemma view_concat (start : ℕ) :
    view cell N start (count + 1) = view cell N start count ++ [cell ((start + count) % N)] := by
  simp [view, List.range_succ]

lemma view_succ (htail : tail < N) :
    view cell N tail (count + 1) = cell tail :: view cell N ((tail + 1) % N) count := by
  rw [view, view, List.range_succ_eq_map, List.map_cons, List.map_map, add_zero,
    mod_eq_of_lt htail]
  congr 1
  refine List.map_congr_left fun i _ => congrArg cell ?_
  rw [mod_add_mod, add_assoc, add_comm 1 i]

/-- Distinct cells, as long as one does not go around. -/
lemma add_mod_ne {i j start : ℕ} (hij : i < j) (hj : j < N) :
    (start + i) % N ≠ (start + j) % N := by
  intro h
  have hmod : i ≡ j [MOD N] := Nat.ModEq.add_left_cancel' start h
  rw [Nat.ModEq, mod_eq_of_lt (hij.trans hj), mod_eq_of_lt hj] at hmod
  exact hij.ne hmod

lemma view_update_concat (start : ℕ) (hcount : count < N) (a : α) :
    view (Function.update cell ((start + count) % N) a) N start (count + 1)
      = view cell N start count ++ [a] := by
  rw [view_concat, Function.update_self]
  congr 1
  refine List.map_congr_left fun i hi => Function.update_of_ne ?_ _ _
  exact add_mod_ne (List.mem_range.mp hi) hcount

/-- How far it is from `tail` to `head`. -/
def distance (N tail head : ℕ) : ℕ := if tail ≤ head then head - tail else N - tail + head

lemma distance_self : distance N tail tail = 0 := by simp [distance]

section

variable (htail : tail < N)
include htail

lemma distance_lt (hhead : head < N) : distance N tail head < N := by
  unfold distance
  split <;> omega

lemma add_distance (hhead : head < N) : (tail + distance N tail head) % N = head := by
  unfold distance
  split
  · rw [add_sub_of_le ‹_›, mod_eq_of_lt hhead]
  · rw [← add_assoc, add_sub_of_le htail.le, add_mod_left, mod_eq_of_lt hhead]

/-- It is the only way to get there without going around. -/
lemma distance_add_mod (hcount : count < N) :
    distance N tail ((tail + count) % N) = count := by
  have hN : 0 < N := zero_lt_of_lt htail
  have hhead : (tail + count) % N < N := mod_lt _ hN
  have hsame := add_distance htail hhead
  by_contra hne
  rcases lt_or_gt_of_ne hne with hlt | hgt
  · exact add_mod_ne hlt hcount hsame
  · exact add_mod_ne hgt (distance_lt htail hhead) hsame.symm

lemma distance_eq_zero_iff (hhead : head < N) :
    distance N tail head = 0 ↔ head = tail := by
  constructor
  · intro h
    rw [← add_distance htail hhead, h, add_zero, mod_eq_of_lt htail]
  · rintro rfl
    exact distance_self

/-- Writing moves the place to write at away. -/
lemma distance_succ (hhead : head < N) (hroom : distance N tail head + 1 < N) :
    distance N tail ((head + 1) % N) = distance N tail head + 1 := by
  have hnext : (head + 1) % N = (tail + (distance N tail head + 1)) % N := by
    nth_rewrite 1 [← add_distance htail hhead]
    rw [mod_add_mod, add_assoc]
  rw [hnext, distance_add_mod htail hroom]

/-- The place to write at comes around to the place to read at when one cell is free. -/
lemma succ_mod_eq_iff (hhead : head < N) :
    (head + 1) % N = tail ↔ distance N tail head + 1 = N := by
  have hlt := distance_lt htail hhead
  constructor
  · intro h
    by_contra hne
    have hsucc := distance_succ htail hhead (by omega)
    rw [h, distance_self] at hsucc
    omega
  · intro h
    nth_rewrite 1 [← add_distance htail hhead]
    rw [mod_add_mod, add_assoc, h, add_mod_right, mod_eq_of_lt htail]

/-- Reading moves the place to read at closer. -/
lemma distance_succ_left (hhead : head < N) (hne : distance N tail head ≠ 0) :
    distance N ((tail + 1) % N) head = distance N tail head - 1 := by
  have hN : 0 < N := zero_lt_of_lt htail
  have hlt := distance_lt htail hhead
  have hsplit : tail + distance N tail head = tail + 1 + (distance N tail head - 1) := by omega
  have hreach : head = ((tail + 1) % N + (distance N tail head - 1)) % N := by
    rw [mod_add_mod, ← hsplit, add_distance htail hhead]
  nth_rewrite 1 [hreach]
  exact distance_add_mod (mod_lt _ hN) (by omega)

end

end RingView

end ThingOS
