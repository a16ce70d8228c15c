import ThingOS.Compositor.Modes

/-!
# The active window

Every window has a mark that says whether it is the active one, and the compositor has the id of the
active window besides. `set_active_window` keeps the two in step. `ingest_surface` overwrites the
mark with what the graph has at the time. As long as the graph has the mark of exactly the active
window whenever a surface comes in, there is one active window; otherwise there can be two, or one
that is not marked.
-/

namespace ThingOS.Compositor

open Ui Host Option

variable {σ : ModeState} {id : Uuid}

namespace ModeState

/-- Exactly the active window is marked. -/
def Marked (σ : ModeState) : Prop :=
  ∀ k, flags σ.windows k = some true ↔ σ.activeWindow = some k

/-- At most one window is marked as active, and the active window is. -/
def SingleActive (σ : ModeState) : Prop :=
  (∀ (a b : Uuid) (ea eb : WindowSurface), σ.windows[a]? = some ea → σ.windows[b]? = some eb →
      ea.window.active = true → eb.window.active = true → a = b)
    ∧ ∀ id, σ.activeWindow = some id →
      ∃ entry, σ.windows[id]? = some entry ∧ entry.window.active = true

lemma flags_eq_true_iff {windows : Windows} {k : Uuid} :
    flags windows k = some true
      ↔ ∃ entry, windows[k]? = some entry ∧ entry.window.active = true := by
  rw [flags, map_eq_some_iff]

lemma Marked.singleActive (h : σ.Marked) : σ.SingleActive := by
  constructor
  · intro a b ea eb ha hb hea heb
    have hactive := (h a).mp (flags_eq_true_iff.mpr ⟨ea, ha, hea⟩)
    have hactive' := (h b).mp (flags_eq_true_iff.mpr ⟨eb, hb, heb⟩)
    exact some_inj.mp (hactive.symm.trans hactive')
  · intro id hid
    exact flags_eq_true_iff.mp ((h id).mpr hid)

/-! ## What keeps the mark -/

/-- `set_active_window` puts the marks right if only the former active window and the new one are
marked. -/
lemma marked_setActiveWindow {windowId : Option Uuid} (hne : σ.activeWindow ≠ windowId)
    (hknown : ∀ id, windowId = some id → flags σ.windows id ≠ none)
    (hmarks : ∀ k, flags σ.windows k = some true → windowId = some k ∨ σ.activeWindow = some k) :
    (σ.setActiveWindow windowId).Marked := by
  intro k
  have hactive : (σ.setActiveWindow windowId).activeWindow = windowId := by
    rw [setActiveWindow, if_neg hne]
    cases windowId <;> rfl
  rw [flags_setActiveWindow σ hne, hactive]
  split
  case isTrue hk =>
    obtain ⟨mark, hmark⟩ := ne_none_iff_exists'.mp (hknown k hk)
    simp [hmark, hk]
  case isFalse hk =>
    refine iff_of_false ?_ hk
    split
    · simp
    case isFalse hprev =>
      intro htrue
      exact (hmarks k htrue).elim hk hprev

lemma Marked.setActiveWindow (h : σ.Marked) {windowId : Option Uuid}
    (hknown : ∀ id, windowId = some id → flags σ.windows id ≠ none) :
    (σ.setActiveWindow windowId).Marked := by
  by_cases hsame : σ.activeWindow = windowId
  · rwa [ModeState.setActiveWindow, if_pos hsame]
  · exact marked_setActiveWindow hsame hknown fun k hk => .inr ((h k).mp hk)

/-- A window Thing marks its window or not, and the active window follows. -/
lemma Marked.activated {τ : ModeState} (h : σ.Marked) {window : Ui.Window} (isNew : Bool)
    (hflags : flags τ.windows = Function.update (flags σ.windows) window.id (some window.active))
    (hactive : τ.activeWindow = σ.activeWindow) : (τ.activated window isNew).Marked := by
  have hself : flags τ.windows window.id = some window.active := by
    rw [hflags, Function.update_self]
  have hother (k : Uuid) (hk : k ≠ window.id) :
      flags τ.windows k = some true ↔ τ.activeWindow = some k := by
    rw [hflags, Function.update_of_ne hk, hactive]
    exact h k
  -- if the active window is `window` just when it is marked, nothing is left to do
  have hright (hmark : window.active = true ↔ τ.activeWindow = some window.id) : τ.Marked := by
    intro k
    by_cases hk : k = window.id
    · rw [hk, hself, some_inj]
      exact hmark
    · exact hother k hk
  unfold ModeState.activated
  split
  case isTrue hmark =>
    by_cases hsame : τ.activeWindow = some window.id
    · rw [ModeState.setActiveWindow, if_pos hsame]
      exact hright (iff_of_true hmark hsame)
    · refine marked_setActiveWindow hsame ?_ ?_
      · rintro id ⟨⟩
        simp [hself]
      · intro k hk
        by_cases heq : k = window.id
        · exact .inl (by rw [heq])
        · exact .inr ((hother k heq).mp hk)
  case isFalse hmark =>
    split
    case isTrue hsame =>
      refine marked_setActiveWindow (by simp [hsame]) (by simp) fun k hk => .inr ?_
      by_cases heq : k = window.id
      · rw [heq, hsame]
      · exact (hother k heq).mp hk
    case isFalse hsame =>
      have hτ : τ.Marked := hright (iff_of_false hmark hsame)
      split
      · exact hτ
      · exact hτ

lemma Marked.ingestWindow (h : σ.Marked) (env : ScreenEnv) (window : Ui.Window) :
    (σ.ingestWindow env window).Marked := by
  intro k
  have hactivated := h.activated (!σ.windows.contains (atLeast window).id)
    (flags_received env σ (atLeast window)) rfl k
  obtain ⟨hflags, -, hactive⟩ := flags_maybeAutoTileWindows env
    (((σ.received env (atLeast window)).activated (atLeast window)
      (!σ.windows.contains (atLeast window).id)).clampScrollFor env (atLeast window).id)
  rw [ModeState.ingestWindow, hflags, hactive, flags_clampScrollFor]
  exact hactivated

lemma mem_orderedWindowIds (h : id ∈ σ.orderedWindowIds) :
    flags σ.windows id ≠ none := by
  have hvisible := (List.mem_filter.mp h).2
  intro hnone
  rw [flags, map_eq_none_iff] at hnone
  simp [hnone] at hvisible

lemma findFrom_mem {x y : ℤ} {ids : List Uuid} (h : σ.findFrom x y ids = some id) : id ∈ ids := by
  induction ids with
  | nil => cases h
  | cons first ids ih =>
    unfold findFrom at h
    split at h
    · cases h
    · grind

lemma Marked.onPointerDown (h : σ.Marked) (x y : ℤ) : (σ.onPointerDown x y).Marked := by
  refine h.setActiveWindow fun id hid => mem_orderedWindowIds ?_
  exact List.mem_reverse.mp (findFrom_mem hid)

lemma foldl_higher_mem {best : Option (Uuid × WindowSurface)}
    {entries : List (Uuid × WindowSurface)} {top : Uuid × WindowSurface}
    (h : entries.foldl higher best = some top) : best = some top ∨ top ∈ entries := by
  induction entries generalizing best with
  | nil => exact .inl h
  | cons entry entries ih =>
    rcases ih h with hbest | hlater
    · unfold higher at hbest
      split at hbest
      · cases hbest
        exact .inr List.mem_cons_self
      · split at hbest
        · cases hbest
          exact .inr List.mem_cons_self
        · exact .inl hbest
    · exact .inr (List.mem_cons_of_mem _ hlater)

lemma topmost_mem {entries : List (Uuid × WindowSurface)}
    (h : topmost entries = some id) : ∃ entry, (id, entry) ∈ entries := by
  obtain ⟨⟨key, entry⟩, htop, rfl⟩ := map_eq_some_iff.mp h
  exact ⟨entry, (foldl_higher_mem htop).resolve_left (by simp)⟩

lemma Marked.ensureActiveWindow (h : σ.Marked) : σ.ensureActiveWindow.Marked := by
  unfold ModeState.ensureActiveWindow
  split
  · exact h
  case isFalse hvisible =>
    dsimp only
    split
    case h_1 id htop =>
      -- a visible window with the mark is the active window, which is not visible
      obtain ⟨entry, hentry⟩ := topmost_mem htop
      obtain ⟨hmem, hmarks⟩ := List.mem_filter.mp hentry
      rw [Std.ExtTreeMap.mem_toList_iff_getElem?_eq_some] at hmem
      obtain ⟨hmark, hshown⟩ := Bool.and_eq_true_iff.mp hmarks
      have hactive := (h id).mp (flags_eq_true_iff.mpr ⟨entry, hmem, hmark⟩)
      have hshown : entry.window.visible = true := hshown
      exact absurd (by simp [hactive, hmem, hshown]) hvisible
    case h_2 =>
      refine h.setActiveWindow fun id hid => mem_orderedWindowIds ?_
      exact List.mem_of_getLast? hid

lemma Marked.tick (h : σ.Marked) (env : ScreenEnv) : (σ.tick env).Marked := by
  unfold ModeState.tick
  split
  · exact h
  · have hcovered : (σ.coverScreen env).Marked := by
      intro k
      rw [flags_coverScreen]
      exact h k
    intro k
    rw [flags_updateScrollbars]
    exact hcovered.ensureActiveWindow k

/-! ## Whole runs -/

/-- The graph has the window of a surface marked exactly if it is the active window. -/
def MarksActive (σ : ModeState) : ModeStep → Prop
  | .surface s thing => ∀ id, surfaceWindow thing = some id →
      ((loadedWindow s id).active = true ↔ σ.activeWindow = some id)
  | .window _ | .press _ _ | .tick | .setMode _ | .defineMode _ _ => True

lemma Marked.step (h : σ.Marked) (env : ScreenEnv) {s : ModeStep}
    (hs : σ.MarksActive s) : (σ.step env s).Marked := by
  cases s with
  | window window => exact h.ingestWindow env window
  | press x y => exact h.onPointerDown x y
  | tick => exact h.tick env
  | setMode i => exact h
  | defineMode i place => exact h
  | surface store thing =>
    intro k
    show flags (env.ingestSurface store σ.windows thing) k = some true ↔ σ.activeWindow = some k
    rw [flags_ingestSurface]
    cases hwindow : surfaceWindow thing with
    | none => exact h k
    | some id =>
      dsimp only
      by_cases hk : k = id
      · rw [hk, Function.update_self, some_inj]
        exact hs id hwindow
      · rw [Function.update_of_ne hk]
        exact h k

lemma marked_start (placeOf : Fin 12 → Option Uuid) : (start placeOf).Marked := by
  intro k
  simp [start, flags]

/-- After every tick at most one window is marked as active, and the active window is, in every run
in which the graph has the window of a surface marked exactly if it is the active window. -/
theorem single_active_of_marksActive (env : ScreenEnv) (placeOf : Fin 12 → Option Uuid)
    (steps : List ModeStep) (hsteps : EachStep (step env) MarksActive (start placeOf) steps)
    (pre post : List ModeStep) (htick : steps = pre ++ .tick :: post) :
    (run (step env) (start placeOf) (pre ++ [.tick])).SingleActive := by
  have hall : EachStep (step env) MarksActive (start placeOf) (pre ++ [.tick] ++ post) := by
    simpa [htick] using hsteps
  exact (run_invariant_of_eachStep (P := Marked) hall.of_append (marked_start placeOf)
    fun σ s hs hσ => hσ.step env hs).singleActive

/-- A graph with a window that is marked as active. -/
def markedInGraph (windowId : Uuid) : InMemoryGraphStore :=
  { InMemoryGraphStore.new with
    things := (∅ : Things).insert windowId
      ⟨windowId, Canon.window, ∅, (∅ : Map).insert Canon.active (.bool true), 0, 0⟩ }

def markedWindow : Ui.Window := { defaultWindow 1 with active := true }

theorem single_active_of_marksActive_one : (run (step plainScreen) (start fun _ => none)
      [.window markedWindow, .surface (markedInGraph 1) (surfaceOf 1), .tick]).SingleActive := by
  refine single_active_of_marksActive plainScreen (fun _ => none)
    [.window markedWindow, .surface (markedInGraph 1) (surfaceOf 1), .tick] ?_
    [.window markedWindow, .surface (markedInGraph 1) (surfaceOf 1)] [] rfl
  rw [eachStep_cons, eachStep_cons, eachStep_cons]
  refine ⟨trivial, ?_, trivial, eachStep_nil _⟩
  intro id hid
  have hone : surfaceWindow (surfaceOf 1) = some 1 := by decide +kernel
  obtain rfl := some_inj.mp (hone.symm.trans hid)
  exact iff_of_true (by decide +kernel) (by decide +kernel)

/-- While window 1 is active, a surface comes in for window 2, which the graph has marked as active:
now both are. -/
theorem two_active :
    ¬(run (step plainScreen) (start fun _ => none)
      [.window markedWindow, .surface (markedInGraph 2) (surfaceOf 2), .tick]).SingleActive := by
  intro h
  have hone : flags (run (step plainScreen) (start fun _ => none)
      [.window markedWindow, .surface (markedInGraph 2) (surfaceOf 2), .tick]).windows 1
      = some true := by decide +kernel
  have htwo : flags (run (step plainScreen) (start fun _ => none)
      [.window markedWindow, .surface (markedInGraph 2) (surfaceOf 2), .tick]).windows 2
      = some true := by decide +kernel
  obtain ⟨ea, ha, hea⟩ := flags_eq_true_iff.mp hone
  obtain ⟨eb, hb, heb⟩ := flags_eq_true_iff.mp htwo
  exact absurd (h.1 1 2 ea eb ha hb hea heb) (by decide)

end ModeState

end ThingOS.Compositor
