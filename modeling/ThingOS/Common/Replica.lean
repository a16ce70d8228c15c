import Mathlib

/-!
# Replicas that are patched

A record has an attribute `V i` for each `i : ι`. A message gives a value to an attribute or says
nothing about it, as `read` tells. A replica takes the values that messages give, one after the
other, and keeps the others. It is the record of the last message alone exactly when whatever that
message leaves out was left out before or brought back to its initial value.
-/

namespace ThingOS.Replica

variable {ι Message : Type*} {V : ι → Type*} (read : Message → (i : ι) → Option (V i))

def patch (s : (i : ι) → V i) (x : Message) : (i : ι) → V i := fun i => (read x i).getD (s i)

/-- The value that was given last to an attribute. -/
def lastRead (i : ι) (xs : List Message) : Option (V i) :=
  xs.foldl (fun last x => (read x i).or last) none

variable {read}

lemma lastRead_concat (i : ι) (xs : List Message) (x : Message) :
    lastRead read i (xs ++ [x]) = (read x i).or (lastRead read i xs) := by
  rw [lastRead, List.foldl_append]
  rfl

/-- Each attribute is the value given to it last, or the initial one. -/
lemma foldl_patch (s : (i : ι) → V i) (xs : List Message) (i : ι) :
    xs.foldl (patch read) s i = (lastRead read i xs).getD (s i) := by
  induction xs using List.reverseRecOn with
  | nil => rfl
  | append_singleton xs x ih =>
    rw [List.foldl_append, List.foldl_cons, List.foldl_nil, patch, ih, lastRead_concat]
    cases read x i <;> rfl

/-- The replica is the record of the last message. -/
lemma foldl_patch_concat_eq_iff (s : (i : ι) → V i) (xs : List Message) (x : Message) :
    (xs ++ [x]).foldl (patch read) s = patch read s x
      ↔ ∀ i, read x i = none → ∀ v, lastRead read i xs = some v → v = s i := by
  rw [funext_iff]
  refine forall_congr' fun i => ?_
  rw [foldl_patch, lastRead_concat, patch]
  cases hx : read x i with
  | some v => simp
  | none =>
    cases lastRead read i xs with
    | some v => simp
    | none => simp

end ThingOS.Replica
