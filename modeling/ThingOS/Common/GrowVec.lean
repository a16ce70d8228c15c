import Mathlib

/-!
# Growing vectors and pointers into them

A vector owns a block of the heap and moves to another block when it runs out of room. A pointer to
an element names a block and an index, and goes stale when the vector moves away. The block that was
left keeps its contents until the allocator hands it out again.
-/

namespace ThingOS

/-- The address of an element of a block. -/
structure Pointer where
  block : ℕ
  index : ℕ

/-- A vector with the heap it lives on. Blocks are told apart by where they start. -/
structure GrowVec (α : Type*) where
  heap : ℕ → List α
  block : ℕ
  capacity : ℕ

namespace GrowVec

variable {α : Type*} {v : GrowVec α} {p : Pointer} {addr i : ℕ} {x : α} {f : α → α}

def items (v : GrowVec α) : List α := v.heap v.block

/-- A vector that owns nothing yet. -/
def empty : GrowVec α := ⟨fun _ => [], 0, 0⟩

/-- Append an element. A full vector at least doubles and moves to `addr`. -/
def push (v : GrowVec α) (addr : ℕ) (x : α) : GrowVec α :=
  if v.items.length < v.capacity then
    { v with heap := Function.update v.heap v.block (v.items ++ [x]) }
  else
    { heap := Function.update v.heap addr (v.items ++ [x])
      block := addr
      capacity := max 4 (max (2 * v.capacity) (v.items.length + 1)) }

def pointer (v : GrowVec α) (i : ℕ) : Pointer := ⟨v.block, i⟩

def read (v : GrowVec α) (p : Pointer) : Option α := (v.heap p.block)[p.index]?

/-- Change the element behind a pointer, wherever that is. -/
def modify (v : GrowVec α) (p : Pointer) (f : α → α) : GrowVec α :=
  { v with heap := Function.update v.heap p.block ((v.heap p.block).modify p.index f) }

@[simp] lemma items_push : (v.push addr x).items = v.items ++ [x] := by
  unfold push items
  split <;> simp

/-- A vector with room stays where it is, and so does one that the allocator lets grow in place. -/
lemma block_push (h : v.items.length < v.capacity ∨ addr = v.block) :
    (v.push addr x).block = v.block := by
  unfold push
  split
  case isTrue => rfl
  case isFalse hfull => exact h.resolve_left hfull

@[simp] lemma read_pointer : v.read (v.pointer i) = v.items[i]? := rfl

@[simp] lemma items_modify_pointer :
    (v.modify (v.pointer i) f).items = v.items.modify i f := by
  simp [modify, items, pointer]

end GrowVec

end ThingOS
