import Mathlib.Data.List.Basic
import Mathlib.Data.List.Induction
import Mathlib.Tactic.Common

/-!
# Drawing on a canvas

A canvas is a grid of pixels kept row after row in a list. Drawing is a list of marks, each of which
changes one pixel, so that the pixel at a place is what the marks at that place make of the one that
was there. Two drawings look alike at a place if they have the same marks there.
-/

namespace ThingOS

open List

structure Canvas (α : Type*) where
  width : ℕ
  height : ℕ
  storage : List α
  size : storage.length = width * height

/-- A pixel and what becomes of it. -/
structure Mark (α : Type*) where
  x : ℕ
  y : ℕ
  change : α → α

namespace Canvas

variable {α : Type*} (c : Canvas α)

def pixel (x y : ℕ) : Option α :=
  if x < c.width then c.storage[y * c.width + x]? else none

/-- One colour everywhere. -/
def fill (a : α) : Canvas α where
  width := c.width
  height := c.height
  storage := List.replicate c.storage.length a
  size := by rw [length_replicate, c.size]

def plot (m : Mark α) : Canvas α where
  width := c.width
  height := c.height
  storage := c.storage.modify (m.y * c.width + m.x) m.change
  size := by rw [length_modify, c.size]

def draw (marks : List (Mark α)) : Canvas α := marks.foldl plot c

variable (m : Mark α) (marks : List (Mark α))

@[simp] lemma plot_width : (c.plot m).width = c.width := rfl

@[simp] lemma draw_nil : c.draw [] = c := rfl

@[simp] lemma draw_cons :
    c.draw (m :: marks) = (c.plot m).draw marks := rfl

@[simp] lemma draw_width : (c.draw marks).width = c.width := by
  induction marks generalizing c with
  | nil => rfl
  | cons m marks ih => exact ih (c.plot m)

@[simp] lemma draw_height : (c.draw marks).height = c.height := by
  induction marks generalizing c with
  | nil => rfl
  | cons m marks ih => exact ih (c.plot m)

lemma isSome_pixel_iff (x y : ℕ) : (c.pixel x y).isSome ↔ x < c.width ∧ y < c.height := by
  unfold pixel
  split
  case isTrue hx =>
    rw [isSome_getElem?, c.size]
    constructor
    · intro h
      refine ⟨hx, ?_⟩
      by_contra hy
      have : c.height * c.width ≤ y * c.width := Nat.mul_le_mul_right _ (Nat.le_of_not_lt hy)
      rw [Nat.mul_comm c.height] at this
      omega
    · rintro ⟨-, hy⟩
      have : (y + 1) * c.width ≤ c.height * c.width := Nat.mul_le_mul_right _ hy
      rw [Nat.mul_comm c.height, Nat.succ_mul] at this
      omega
  case isFalse hx => simp [hx]

/-- The rows do not overlap. -/
lemma index_inj {w x y x' y' : ℕ} (hx : x < w) (hx' : x' < w) (h : y * w + x = y' * w + x') :
    x = x' ∧ y = y' := by
  have hw : 0 < w := Nat.zero_lt_of_lt hx
  have hmod := congrArg (· % w) h
  have hdiv := congrArg (· / w) h
  simp only [Nat.mul_add_mod_self_right, Nat.mod_eq_of_lt hx, Nat.mod_eq_of_lt hx'] at hmod
  simp only [Nat.mul_comm _ w, Nat.mul_add_div hw, Nat.div_eq_of_lt hx, Nat.div_eq_of_lt hx',
    Nat.add_zero] at hdiv
  exact ⟨hmod, hdiv⟩

lemma pixel_plot {m : Mark α} (hm : m.x < c.width) (x y : ℕ) :
    (c.plot m).pixel x y
      = if m.x = x ∧ m.y = y then (c.pixel x y).map m.change else c.pixel x y := by
  unfold pixel
  rw [plot_width]
  split
  case isTrue hx =>
    rw [plot, getElem?_modify]
    by_cases heq : m.x = x ∧ m.y = y
    · obtain ⟨rfl, rfl⟩ := heq
      simp
    · have hne : m.y * c.width + m.x ≠ y * c.width + x := fun h => heq (index_inj hm hx h)
      simp [heq, hne]
  case isFalse hx => simp

def marksAt (marks : List (Mark α)) (x y : ℕ) : List (Mark α) :=
  marks.filter fun m => m.x = x ∧ m.y = y

/-- What the marks make of a pixel at a place. -/
def retouch (marks : List (Mark α)) (x y : ℕ) (a : α) : α :=
  (marksAt marks x y).foldl (fun a m => m.change a) a

lemma retouch_cons (x y : ℕ) (a : α) :
    retouch (m :: marks) x y a
      = retouch marks x y (if m.x = x ∧ m.y = y then m.change a else a) := by
  by_cases heq : m.x = x ∧ m.y = y <;> simp [retouch, marksAt, heq]

variable {marks} {x y : ℕ}

/-- The marks are on the columns of the canvas. -/
lemma pixel_draw (hmarks : ∀ m ∈ marks, m.x < c.width) (x y : ℕ) :
    (c.draw marks).pixel x y = (c.pixel x y).map (retouch marks x y) := by
  induction marks generalizing c with
  | nil => exact Option.map_id_apply.symm
  | cons m marks ih =>
    rw [draw_cons, ih (c.plot m) fun m' hm' => hmarks m' (mem_cons_of_mem _ hm'),
      c.pixel_plot (hmarks m mem_cons_self)]
    cases c.pixel x y with
    | none => split <;> rfl
    | some a => split <;> simp [retouch_cons, *]

lemma retouch_eq_self (h : ∀ m ∈ marks, ¬ (m.x = x ∧ m.y = y)) : retouch marks x y = id := by
  funext a
  rw [retouch, marksAt, filter_eq_nil_iff.mpr (by simpa using h)]
  rfl

/-- Marks that leave one colour leave it at their places. -/
lemma retouch_eq_of_const {k : α} (hk : ∀ m ∈ marks, m.change = fun _ => k)
    (h : ∃ m ∈ marks, m.x = x ∧ m.y = y) (a : α) : retouch marks x y a = k := by
  induction marks using List.reverseRecOn with
  | nil =>
    obtain ⟨m, hm, -⟩ := h
    cases hm
  | append_singleton marks m ih =>
    by_cases heq : m.x = x ∧ m.y = y
    · simp [retouch, marksAt, heq, hk m (by simp)]
    · obtain ⟨m', hm', hplace⟩ := h
      have hlt : m' ∈ marks := by
        rcases mem_append.mp hm' with hm' | hm'
        · exact hm'
        · exact absurd (mem_singleton.mp hm' ▸ hplace) heq
      have := ih (fun m hm => hk m (mem_append_left _ hm)) ⟨m', hlt, hplace⟩
      simpa [retouch, marksAt, heq] using this

lemma pixel_draw_of_forall_ne (hmarks : ∀ m ∈ marks, m.x < c.width)
    (h : ∀ m ∈ marks, ¬ (m.x = x ∧ m.y = y)) : (c.draw marks).pixel x y = c.pixel x y := by
  rw [c.pixel_draw hmarks, retouch_eq_self h, Option.map_id_apply]

/-- Two drawings with the same marks at a place look alike there. -/
lemma pixel_draw_congr {c c' : Canvas α} {marks' : List (Mark α)}
    (hmarks : ∀ m ∈ marks, m.x < c.width) (hmarks' : ∀ m ∈ marks', m.x < c'.width)
    (hpixel : c.pixel x y = c'.pixel x y) (h : marksAt marks x y = marksAt marks' x y) :
    (c.draw marks).pixel x y = (c'.draw marks').pixel x y := by
  have hmarksAt : retouch marks x y = retouch marks' x y := by
    funext a
    rw [retouch, retouch, h]
  rw [c.pixel_draw hmarks, c'.pixel_draw hmarks', hpixel, hmarksAt]

lemma pixel_fill (a : α) (x y : ℕ) : (c.fill a).pixel x y = (c.pixel x y).map fun _ => a := by
  unfold pixel fill
  simp only
  split
  · by_cases h : y * c.width + x < c.storage.length <;> simp [h]
  · rfl

end Canvas

/-! ## Loops -/

/-- The marks of a loop over rows `y0..y1` and columns `x0..x1`, where each turn may leave the pixel
alone. -/
def scan {α : Type*} (x0 x1 y0 y1 : ℕ) (f : ℕ → ℕ → Option (α → α)) : List (Mark α) :=
  (List.range' y0 (y1 - y0)).flatMap fun y =>
    (List.range' x0 (x1 - x0)).filterMap fun x => (f x y).map (Mark.mk x y)

lemma mem_scan {α : Type*} {x0 x1 y0 y1 : ℕ} {f : ℕ → ℕ → Option (α → α)} {m : Mark α} :
    m ∈ scan x0 x1 y0 y1 f
      ↔ (x0 ≤ m.x ∧ m.x < x1) ∧ (y0 ≤ m.y ∧ m.y < y1) ∧ f m.x m.y = some m.change := by
  simp only [scan, mem_flatMap, mem_filterMap, mem_range'_1, Option.map_eq_some_iff]
  constructor
  · rintro ⟨y, hy, x, hx, change, hchange, rfl⟩
    exact ⟨⟨hx.1, by dsimp only; omega⟩, ⟨hy.1, by dsimp only; omega⟩, hchange⟩
  · rintro ⟨hx, hy, hchange⟩
    exact ⟨m.y, by omega, m.x, by omega, m.change, hchange, rfl⟩

lemma filter_flatMap_key {ι β : Type*} [DecidableEq ι] {l : List ι} (hl : l.Nodup)
    {f : ι → List β} {key : β → ι} (hkey : ∀ i, ∀ b ∈ f i, key b = i) (i : ι) :
    ((l.flatMap f).filter fun b => key b = i) = if i ∈ l then f i else [] := by
  induction l with
  | nil => rfl
  | cons j l ih =>
    obtain ⟨hj, hl⟩ := nodup_cons.mp hl
    rw [flatMap_cons, filter_append, ih hl]
    by_cases heq : j = i
    · subst heq
      have hself : (f j).filter (fun b => key b = j) = f j :=
        filter_eq_self.mpr fun b hb => by simpa using hkey j b hb
      simp [hself, hj]
    · have hnone : (f j).filter (fun b => key b = i) = [] :=
        filter_eq_nil_iff.mpr fun b hb => by simpa [hkey j b hb] using heq
      simp [hnone, Ne.symm heq]

/-- A loop comes to each place once. -/
lemma marksAt_scan {α : Type*} (x0 x1 y0 y1 : ℕ) (f : ℕ → ℕ → Option (α → α)) (x y : ℕ) :
    Canvas.marksAt (scan x0 x1 y0 y1 f) x y
      = if (x0 ≤ x ∧ x < x1) ∧ y0 ≤ y ∧ y < y1 then ((f x y).map (Mark.mk x y)).toList else [] := by
  have hrow : ∀ y', ((List.range' x0 (x1 - x0)).filterMap fun x => (f x y').map (Mark.mk x y'))
      = (List.range' x0 (x1 - x0)).flatMap fun x => ((f x y').map (Mark.mk x y')).toList :=
    fun y' => filterMap_eq_flatMap_toList ..
  have hand : (fun m : Mark α => decide (m.x = x ∧ m.y = y))
      = fun m => decide (m.x = x) && decide (m.y = y) := by
    funext m
    simp
  rw [Canvas.marksAt, hand, ← filter_filter, scan,
    filter_flatMap_key (nodup_range') fun y' m hm => ?_]
  · by_cases hy : y0 ≤ y ∧ y < y1
    · have hmem : y ∈ List.range' y0 (y1 - y0) := by
        rw [mem_range'_1]
        omega
      rw [if_pos hmem, hrow, filter_flatMap_key (nodup_range') fun x' m hm => ?_]
      · grind
      · obtain ⟨change, -, rfl⟩ := Option.map_eq_some_iff.mp (Option.mem_toList.mp hm)
        rfl
    · grind
  · obtain ⟨x', -, hm⟩ := mem_filterMap.mp hm
    obtain ⟨change, -, rfl⟩ := Option.map_eq_some_iff.mp hm
    rfl

/-- What the body of a loop does first: `continue`, `break`, or go on. -/
inductive Visit where
  | skip
  | stop
  | enter
deriving DecidableEq

/-- The turns in which the body of a loop goes on. -/
def visited {ι : Type*} (visit : ι → Visit) : List ι → List ι
  | [] => []
  | i :: is =>
    match visit i with
    | .skip => visited visit is
    | .stop => []
    | .enter => i :: visited visit is

lemma mem_of_mem_visited {ι : Type*} {visit : ι → Visit} {is : List ι} {i : ι}
    (h : i ∈ visited visit is) : i ∈ is ∧ visit i = .enter := by
  induction is with
  | nil => cases h
  | cons j is ih =>
    unfold visited at h
    split at h
    · exact ⟨mem_cons_of_mem _ (ih h).1, (ih h).2⟩
    · cases h
    case h_3 hj =>
      grind

/-- A loop that never goes on after a `break` would have gone on is one over the turns that go
on. -/
lemma flatMap_visited {ι β : Type*} {visit : ι → Visit} {is : List ι} {f : ι → List β}
    (h : is.Pairwise fun i j => visit i = .stop → visit j ≠ .enter) :
    (visited visit is).flatMap f = is.flatMap fun i => if visit i = .enter then f i else [] := by
  induction is with
  | nil => rfl
  | cons i is ih =>
    obtain ⟨hi, his⟩ := pairwise_cons.mp h
    rw [visited, flatMap_cons]
    cases hvisit : visit i with
    | skip => simpa [hvisit] using ih his
    | enter => simp [ih his]
    | stop =>
      have hrest : is.flatMap (fun i => if visit i = .enter then f i else []) = [] :=
        flatMap_eq_nil_iff.mpr fun j hj => if_neg (hi j hj hvisit)
      simp [hrest]

end ThingOS
