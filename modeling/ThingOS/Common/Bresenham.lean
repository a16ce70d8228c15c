import Mathlib.Tactic

/-!
# The points of a line

The integer algorithm that goes from one point to another and keeps the distance to the ideal line
in an error term. Every turn moves the coordinate with the longer distance by one, and the other one
or not, and neither goes past its end: the loop has as many turns as the longer distance.
-/

namespace ThingOS.Bresenham

/-- The loop's constants: the end, the distances (that of `y` negated) and the directions. -/
structure Line where
  x1 : ℤ
  y1 : ℤ
  dx : ℤ
  dy : ℤ
  sx : ℤ
  sy : ℤ

def line (x0 y0 x1 y1 : ℤ) : Line where
  x1 := x1
  y1 := y1
  dx := |x1 - x0|
  dy := -|y1 - y0|
  sx := if x0 < x1 then 1 else -1
  sy := if y0 < y1 then 1 else -1

namespace Line

variable (l : Line)

/-- The loop's variables after a turn. -/
def next (x y err : ℤ) : ℤ × ℤ × ℤ :=
  let e2 := 2 * err
  let (x, errX) := if l.dy ≤ e2 then (x + l.sx, err + l.dy) else (x, err)
  if e2 ≤ l.dx then (x, y + l.sy, errX + l.dx) else (x, y, errX)

/-- The points that the loop passes, in at most `turns` turns after the first. -/
def pointsFrom : ℕ → ℤ → ℤ → ℤ → List (ℤ × ℤ)
  | turns, x, y, err =>
    (x, y) ::
      if x = l.x1 ∧ y = l.y1 then []
      else
        match turns with
        | 0 => []
        | turns + 1 =>
          let (x, y, err) := l.next x y err
          pointsFrom turns x y err

end Line

def points (x0 y0 x1 y1 : ℤ) : List (ℤ × ℤ) :=
  let l := line x0 y0 x1 y1
  l.pointsFrom (|x1 - x0| + |y1 - y0|).toNat x0 y0 (l.dx + l.dy)

/-! ## The way to the end -/

/-- A coordinate has moved by at most one, towards its end. -/
def Toward (stop v v' : ℤ) : Prop := v' = v ∨ v < stop ∧ v' = v + 1 ∨ stop < v ∧ v' = v - 1

/-- The direction is the one in which the end is. -/
def Aimed (stop v dir : ℤ) : Prop := (v < stop → dir = 1) ∧ (stop < v → dir = -1)

lemma Aimed.move {stop v dir : ℤ} (h : Aimed stop v dir) (hne : 0 < (stop - v).natAbs) :
    Toward stop v (v + dir) ∧ Aimed stop (v + dir) dir
      ∧ ((stop - (v + dir)).natAbs : ℤ) = (stop - v).natAbs - 1 := by
  unfold Aimed Toward at *
  omega

/-- With `p` steps left along the longer distance `a` and `q` along the shorter one `b`, the error
term is where it has to be for another step along the longer one. -/
structure Steady (a b p q err : ℤ) : Prop where
  short : b ≤ a
  major : 0 ≤ p ∧ p ≤ a
  minor : 0 ≤ q ∧ q ≤ b
  err_eq : err = a - b + p * b - q * a
  bounds : -b ≤ 2 * err ∧ 2 * err ≤ 3 * a - 2 * b

namespace Steady

variable {a b p q err : ℤ}

lemma arrived (h : Steady a b 0 q err) : q = 0 := by
  obtain ⟨hshort, -, ⟨hq, hqb⟩, herr, hlow, -⟩ := h
  by_contra hne
  have hprod : 0 ≤ (q - 1) * a := mul_nonneg (by omega) (by omega)
  rw [sub_mul, one_mul] at hprod
  omega

/-- The step along the longer distance alone. -/
lemma straight (h : Steady a b p q err) (hp : 0 < p) (herr : a < 2 * err) :
    Steady a b (p - 1) q (err - b) where
  short := h.short
  major := by have := h.major; omega
  minor := h.minor
  err_eq := by rw [h.err_eq]; ring
  bounds := by have := h.bounds; have := h.minor; omega

/-- The step along both. -/
lemma diagonal (h : Steady a b p q err) (hp : 0 < p) (herr : 2 * err ≤ a) :
    0 < q ∧ Steady a b (p - 1) (q - 1) (err - b + a) := by
  obtain ⟨hshort, ⟨-, hpa⟩, ⟨hq, hqb⟩, heq, hlow, -⟩ := h
  have hpos : 0 < q := by
    by_contra hnot
    obtain rfl : q = 0 := by omega
    have hprod : 0 ≤ (p - 1) * b := mul_nonneg (by omega) hqb
    rw [sub_mul, one_mul] at hprod
    omega
  exact ⟨hpos, hshort, by omega, by omega, by rw [heq]; ring, by omega⟩

end Steady

namespace Line

variable (l : Line)

def after (x y err : ℤ) (n : ℕ) : ℤ × ℤ × ℤ := (fun s => l.next s.1 s.2.1 s.2.2)^[n] (x, y, err)

/-- There are `n` turns left, along `x` or along `y`. -/
structure Left (n : ℕ) (x y err : ℤ) : Prop where
  aimedX : Aimed l.x1 x l.sx
  aimedY : Aimed l.y1 y l.sy
  steady : n = (l.x1 - x).natAbs ∧ Steady l.dx (-l.dy) n (l.y1 - y).natAbs err
    ∨ n = (l.y1 - y).natAbs ∧ Steady (-l.dy) l.dx n (l.x1 - x).natAbs (-err)

lemma head?_pointsFrom (turns : ℕ) (x y err : ℤ) :
    (l.pointsFrom turns x y err).head? = some (x, y) := by
  cases turns <;> rfl

variable {l} {n : ℕ} {x y err : ℤ}

lemma Left.arrived (h : l.Left 0 x y err) : x = l.x1 ∧ y = l.y1 := by
  rcases h.steady with ⟨hn, hsteady⟩ | ⟨hn, hsteady⟩
  all_goals
    have := hsteady.arrived
    omega

lemma Left.next (h : l.Left (n + 1) x y err) :
    l.Left n (l.next x y err).1 (l.next x y err).2.1 (l.next x y err).2.2
      ∧ Toward l.x1 x (l.next x y err).1 ∧ Toward l.y1 y (l.next x y err).2.1 := by
  rcases h.steady with ⟨hn, hsteady⟩ | ⟨hn, hsteady⟩
  · obtain ⟨htoward, haimed, hleft⟩ := h.aimedX.move (by omega)
    have hx : l.dy ≤ 2 * err := by have := hsteady.bounds; omega
    by_cases hy : 2 * err ≤ l.dx
    · obtain ⟨hq, hsteady⟩ := hsteady.diagonal (by omega) hy
      obtain ⟨htoward', haimed', hleft'⟩ := h.aimedY.move (by omega)
      simp only [Line.next, if_pos hx, if_pos hy]
      refine ⟨⟨haimed, haimed', .inl ⟨by omega, ?_⟩⟩, htoward, htoward'⟩
      convert hsteady using 1 <;> push_cast <;> ring
    · have hsteady := hsteady.straight (by omega) (by omega)
      simp only [Line.next, if_pos hx, if_neg hy]
      refine ⟨⟨haimed, h.aimedY, .inl ⟨by omega, ?_⟩⟩, htoward, .inl rfl⟩
      convert hsteady using 1 <;> push_cast <;> ring
  · obtain ⟨htoward, haimed, hleft⟩ := h.aimedY.move (by omega)
    have hy : 2 * err ≤ l.dx := by have := hsteady.bounds; omega
    by_cases hx : l.dy ≤ 2 * err
    · obtain ⟨hq, hsteady⟩ := hsteady.diagonal (by omega) (by omega)
      obtain ⟨htoward', haimed', hleft'⟩ := h.aimedX.move (by omega)
      simp only [Line.next, if_pos hx, if_pos hy]
      refine ⟨⟨haimed', haimed, .inr ⟨by omega, ?_⟩⟩, htoward', htoward⟩
      convert hsteady using 1 <;> push_cast <;> ring
    · have hsteady := hsteady.straight (by omega) (by omega)
      simp only [Line.next, if_neg hx, if_pos hy]
      refine ⟨⟨h.aimedX, haimed, .inr ⟨by omega, ?_⟩⟩, .inl rfl, htoward⟩
      convert hsteady using 1 <;> push_cast <;> ring

/-- The loop ends after the turns that are left, and every turn goes towards the end. -/
lemma Left.pointsFrom (h : l.Left n x y err) {turns : ℕ} (hturns : n ≤ turns) :
    (l.pointsFrom turns x y err).length = n + 1
      ∧ (l.pointsFrom turns x y err).getLast? = some (l.x1, l.y1)
      ∧ (l.pointsFrom turns x y err).IsChain
        fun p q => Toward l.x1 p.1 q.1 ∧ Toward l.y1 p.2 q.2 := by
  induction n generalizing turns x y err with
  | zero =>
    obtain ⟨rfl, rfl⟩ := h.arrived
    unfold Line.pointsFrom
    simp
  | succ n ih =>
    obtain ⟨turns, rfl⟩ := Nat.exists_eq_add_of_lt hturns
    have hne : ¬ (x = l.x1 ∧ y = l.y1) := by
      rcases h.steady with ⟨hn, -⟩ | ⟨hn, -⟩ <;> omega
    obtain ⟨hleft, htoward⟩ := h.next
    obtain ⟨hlength, hlast, hchain⟩ := ih hleft (Nat.le_add_right n turns)
    rw [Line.pointsFrom, if_neg hne]
    dsimp only
    refine ⟨by rw [List.length_cons, hlength], ?_, ?_⟩
    · rw [List.getLast?_cons, hlast]
      rfl
    · refine List.isChain_cons.mpr ⟨fun p hp => ?_, hchain⟩
      rw [head?_pointsFrom] at hp
      cases hp
      exact htoward

lemma Left.after (h : l.Left n x y err) {k : ℕ} (hk : k ≤ n) :
    l.Left (n - k) (l.after x y err k).1 (l.after x y err k).2.1 (l.after x y err k).2.2 := by
  induction k with
  | zero => exact h
  | succ k ih =>
    have hleft := ih (Nat.le_of_succ_le hk)
    rw [show n - k = n - (k + 1) + 1 by omega] at hleft
    rw [Line.after, Function.iterate_succ_apply']
    exact hleft.next.1

/-- How far the loop's variables can get. -/
lemma Left.bounds (h : l.Left n x y err) :
    (l.x1 - x).natAbs ≤ l.dx ∧ (l.y1 - y).natAbs ≤ -l.dy
      ∧ |2 * err| ≤ 3 * max l.dx (-l.dy) := by
  rw [abs_le]
  rcases h.steady with ⟨hn, hsteady⟩ | ⟨hn, hsteady⟩
  all_goals
    obtain ⟨hshort, hmajor, hminor, -, hbounds⟩ := hsteady
    omega

end Line

lemma left_line (x0 y0 x1 y1 : ℤ) :
    (line x0 y0 x1 y1).Left (max (x1 - x0).natAbs (y1 - y0).natAbs) x0 y0
      ((line x0 y0 x1 y1).dx + (line x0 y0 x1 y1).dy) := by
  have haimed (v0 v1 : ℤ) : Aimed v1 v0 (if v0 < v1 then 1 else -1) := by
    unfold Aimed
    split_ifs <;> omega
  refine ⟨haimed x0 x1, haimed y0 y1, ?_⟩
  dsimp only [line]
  rw [Int.abs_eq_natAbs, Int.abs_eq_natAbs]
  rcases le_total (y1 - y0).natAbs (x1 - x0).natAbs with hle | hle
  · rw [max_eq_left hle]
    exact .inl ⟨rfl, by omega, by omega, by omega, by ring, by omega⟩
  · rw [max_eq_right hle]
    exact .inr ⟨rfl, by omega, by omega, by omega, by ring, by omega⟩

end ThingOS.Bresenham
