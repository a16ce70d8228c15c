import ThingOS.Common.Checked

/-!
# Supplies

A supply hands out one item after the other, until nothing is left or it stops with an error. What
is left is a list that the operation takes apart from the front; any number of calls return its
items in order, each once, and then nothing.
-/

namespace ThingOS

open List

namespace Supply

variable {ι σ α ε : Type}

/-- One call after the other, with what each of them returned. -/
def calls (next : ι → σ → Except ε (Option α × σ)) :
    List ι → σ → Except ε (List (Option α) × σ)
  | [], s => .ok ([], s)
  | i :: inputs, s => do
    let (x, s) ← next i s
    let (xs, s) ← calls next inputs s
    return (x :: xs, s)

variable {next : ι → σ → Except ε (Option α × σ)}

/-- The last of several calls is made in the state the others have left. -/
lemma of_calls_concat {inputs : List ι} {i : ι} {s : σ} {r : List (Option α) × σ}
    (h : calls next (inputs ++ [i]) s = .ok r) :
    ∃ xs t, calls next inputs s = .ok (xs, t) ∧ ∃ r', next i t = .ok r' := by
  induction inputs generalizing s r with
  | nil =>
    obtain ⟨r', hr', -⟩ := Checked.bind_eq_ok.mp h
    exact ⟨[], s, rfl, r', hr'⟩
  | cons j inputs ih =>
    obtain ⟨⟨x, t⟩, hx, h⟩ := Checked.bind_eq_ok.mp h
    obtain ⟨r', hrest, -⟩ := Checked.bind_eq_ok.mp h
    obtain ⟨xs, u, hxs, hlast⟩ := ih hrest
    refine ⟨x :: xs, u, ?_, hlast⟩
    rw [calls, hx, Checked.ok_bind]
    dsimp only
    rw [hxs]
    rfl

/-- If each call hands out the first item that is left or stops for one of the reasons in `Bad`,
then several calls hand out the items in order, or stop for one of these reasons. -/
lemma calls_spec (left : σ → List α) (Input : ι → Prop) (Inv : σ → Prop) (Bad : ε → Prop)
    (hnext : ∀ i s, Input i → Inv s →
      (∃ t, next i s = .ok ((left s).head?, t) ∧ left t = (left s).tail ∧ Inv t)
        ∨ ∃ e, next i s = .error e ∧ Bad e)
    (inputs : List ι) (hinputs : ∀ i ∈ inputs, Input i) {s : σ} (hs : Inv s) :
    (∃ t, calls next inputs s = .ok ((List.range inputs.length).map fun i => (left s)[i]?, t)
        ∧ left t = (left s).drop inputs.length ∧ Inv t)
      ∨ ∃ e, calls next inputs s = .error e ∧ Bad e := by
  induction inputs generalizing s with
  | nil => exact .inl ⟨s, rfl, rfl, hs⟩
  | cons i inputs ih =>
    unfold calls
    rcases hnext i s (hinputs i mem_cons_self) hs with ⟨t, ht, hleft, hinv⟩ | ⟨e, he, hbad⟩
    case inr =>
      rw [he]
      exact .inr ⟨e, rfl, hbad⟩
    rw [ht, Checked.ok_bind]
    dsimp only
    rcases ih (fun j hj => hinputs j (mem_cons_of_mem i hj)) hinv
      with ⟨u, hu, hrest, hlast⟩ | ⟨e, he, hbad⟩
    case inr =>
      rw [he]
      exact .inr ⟨e, rfl, hbad⟩
    refine .inl ⟨u, ?_, ?_, hlast⟩
    · rw [hu, Checked.ok_bind, length_cons, range_succ_eq_map, map_cons,
        map_map, ← head?_eq_getElem?]
      simp only [hleft, getElem?_tail]
      rfl
    · rw [hrest, hleft, drop_tail, length_cons]

end Supply

end ThingOS
