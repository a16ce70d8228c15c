import Mathlib

/-!
# Checked machine arithmetic

Arithmetic on 64-bit words in a build with overflow checks: a result that does not fit stops the
computation with an error. The computations themselves are taken apart with `bind_eq_ok`.
-/

namespace ThingOS

/-- The number of values of a `u64`. -/
def u64Size : ℕ := 2 ^ 64

namespace Checked

universe u v

variable {ε : Type v} {α β : Type u}

/-- Stop with `e` unless `p` holds. -/
def require (e : ε) (p : Prop) [Decidable p] : Except ε Unit := if p then .ok () else .error e

def add (e : ε) (a b : ℕ) : Except ε ℕ := if a + b < u64Size then .ok (a + b) else .error e

def sub (e : ε) (a b : ℕ) : Except ε ℕ := if b ≤ a then .ok (a - b) else .error e

lemma bind_eq_ok {x : Except ε α} {f : α → Except ε β} {b : β} :
    x >>= f = .ok b ↔ ∃ a, x = .ok a ∧ f a = .ok b := by
  cases x with
  | ok a => exact ⟨fun h => ⟨a, rfl, h⟩, fun ⟨_, h, hf⟩ => by cases h; exact hf⟩
  | error e => exact ⟨nofun, nofun⟩

@[simp] lemma ok_bind (a : α) (f : α → Except ε β) : (Except.ok a >>= f) = f a := rfl

@[simp] lemma error_bind (e : ε) (f : α → Except ε β) : (Except.error e >>= f) = .error e := rfl

lemma require_of {p : Prop} [Decidable p] (e : ε) (h : p) : require e p = .ok () := if_pos h

lemma require_of_not {p : Prop} [Decidable p] (e : ε) (h : ¬ p) : require e p = .error e :=
  if_neg h

lemma of_require {p : Prop} [Decidable p] {e : ε} {u : Unit} (h : require e p = .ok u) : p := by
  by_contra hp
  rw [require_of_not e hp] at h
  cases h

@[simp] lemma add_eq_ok {e : ε} {a b c : ℕ} :
    add e a b = .ok c ↔ a + b < u64Size ∧ a + b = c := by
  unfold add
  split <;> simp_all

@[simp] lemma sub_eq_ok {e : ε} {a b c : ℕ} : sub e a b = .ok c ↔ b ≤ a ∧ a - b = c := by
  unfold sub
  split <;> simp_all

end Checked

end ThingOS
