import ThingOS.Compositor.Desk
import ThingOS.Compositor.Layout
import ThingOS.Compositor.Surfaces
import ThingOS.Compositor.WriteBack

/-!
# The windows of the modes

How windows come to the compositor (`ingest_surface` and `ingest_window` of
`compositor/src/compositor.rs`), into which mode they go, and which of them is the active one.
`ingest_window` puts a window into a mode only when it is not known yet, but `ingest_surface` makes
a window known without a mode. Such a window is in no mode for good, as is one whose mode does not
exist and a root window that another one replaces.

The dirty flags, what is written to the graph and the widgets of a window's chrome are left out.
-/

namespace ThingOS.Compositor

open Ui Host Function Option WindowSurface

/-- `ModeSlot`, as its fields are set one by one. -/
structure Slot where
  rootWindow : Option Uuid
  windows : List Uuid
  placeId : Option Uuid

/-- What the windows depend on besides: the screen, and the id of the scrollbar that a window gets
when its content has become too high for it. -/
structure ScreenEnv extends SurfaceEnv where
  width : ℕ
  height : ℕ
  newScrollbar : WindowSurface → Option Uuid

/-- The parts of `Compositor` that say which windows there are. -/
structure ModeState where
  windows : Windows
  modes : Fin 12 → Slot
  activeMode : Fin 12
  activePlace : Option Uuid
  activeWindow : Option Uuid
  autoLayoutDone : Bool

/-- `get_mut`. -/
def modifyWindow (windows : Windows) (id : Uuid) (f : WindowSurface → WindowSurface) : Windows :=
  match windows[id]? with
  | some entry => windows.insert id (f entry)
  | none => windows

def WindowSurface.mapWindow (f : Ui.Window → Ui.Window) (entry : WindowSurface) : WindowSurface :=
  { entry with window := f entry.window }

/-! ## Stacking -/

def maxWindowZ (windows : Windows) : ℤ :=
  ((mapValues windows).map fun surface => surface.window.z).max?.getD 0

/-- `z.saturating_add(1)`. -/
def nextZ (z : ℤ) : ℤ := min (z + 1) (2 ^ 63 - 1)

def ensureUniqueZ (windows : Windows) (id : Uuid) (prevMaxZ : ℤ) : Windows :=
  modifyWindow windows id (mapWindow fun window =>
    if prevMaxZ < window.z then window else { window with z := nextZ prevMaxZ })

variable (modes : Fin 12 → Slot)

/-- `bump_window`: the window goes to the end of the first mode that has it. -/
def bumpWindow (id : Uuid) : Fin 12 → Slot :=
  match (List.finRange 12).find? fun i => id ∈ (modes i).windows with
  | some i =>
    update modes i { modes i with windows := (modes i).windows.erase id ++ [id] }
  | none => modes

namespace ModeState

def mode (σ : ModeState) : Slot := σ.modes σ.activeMode

def orderedWindowIds (σ : ModeState) : List Uuid :=
  (σ.mode.rootWindow.toList ++ σ.mode.windows).filter fun id =>
    σ.windows[id]?.any fun surface => surface.window.visible

/-! ## The active window -/

def setActiveWindow (σ : ModeState) (windowId : Option Uuid) : ModeState :=
  if σ.activeWindow = windowId then σ
  else
    let cleared :=
      match σ.activeWindow with
      | some prev =>
        modifyWindow σ.windows prev (mapWindow fun window =>
          { window with active := false })
      | none => σ.windows
    match windowId with
    | some id =>
      let newZ := nextZ (maxWindowZ cleared)
      { σ with
        windows := modifyWindow cleared id (mapWindow fun window =>
          { window with active := true, z := newZ })
        activeWindow := some id
        modes := bumpWindow σ.modes id }
    | none => { σ with windows := cleared, activeWindow := none }

/-- The higher of two entries, the later one if they are equally high. -/
def higher (best : Option (Uuid × WindowSurface)) (entry : Uuid × WindowSurface) :
    Option (Uuid × WindowSurface) :=
  match best with
  | none => some entry
  | some top => if top.2.window.z ≤ entry.2.window.z then some entry else some top

/-- `max_by_key`. -/
def topmost (entries : List (Uuid × WindowSurface)) : Option Uuid :=
  (entries.foldl higher none).map Prod.fst

def ensureActiveWindow (σ : ModeState) : ModeState :=
  if σ.activeWindow.any fun id => σ.windows[id]?.any fun surface => surface.window.visible then σ
  else
    let candidates := σ.windows.toList.filter fun entry =>
      entry.2.window.active && entry.2.window.visible
    match topmost candidates with
    | some id => { σ with activeWindow := some id }
    | none => σ.setActiveWindow σ.orderedWindowIds.getLast?

/-! ## Windows and surfaces come in -/

/-- Where a window that is not known yet goes: the mode, whether it becomes the root window there,
and the place that the mode is given. -/
def assignment (σ : ModeState) (window : Ui.Window) : Option (Fin 12 × Bool × Option Uuid) :=
  let foundMode := window.placeId.bind fun place =>
    (List.finRange 12).find? fun i => (σ.modes i).placeId = some place
  match foundMode with
  | some i => some (i, window.isPlaceRoot, none)
  | none =>
    let targetMode := window.modeIndex.getD σ.activeMode
    if h : targetMode < 12 then
      some (⟨targetMode, h⟩, window.isRoot, if window.isPlaceRoot then window.placeId else none)
    else none

end ModeState

def Slot.put (slot : Slot) (id : Uuid) (asRoot : Bool) (place : Option Uuid) : Slot where
  rootWindow := if asRoot then some id else slot.rootWindow
  windows := if asRoot then slot.windows else slot.windows ++ [id]
  placeId := place.or slot.placeId

namespace ModeState

def assigned (σ : ModeState) (window : Ui.Window) : Fin 12 → Slot :=
  match σ.assignment window with
  | some (i, asRoot, place) => update σ.modes i ((σ.modes i).put window.id asRoot place)
  | none => σ.modes

/-- The number of columns of a grid for so many windows. -/
def gridCols (count : ℕ) : ℕ :=
  ((List.range (count + 1)).find? fun cols => 0 < cols ∧ count ≤ cols * cols).getD 1

/-- The rectangle that a window is tiled to. -/
def tileTo (rect : Rect) (window : Ui.Window) : Ui.Window :=
  { window with
    x := rect.x.toNat, y := rect.y.toNat, width := max rect.width 140,
    height := max rect.height 100 }

def layoutWindowsInArea (windows : Windows) (area : Rect) (ids : List Uuid) : Windows :=
  if ids = [] ∨ area.width = 0 ∨ area.height = 0 then windows
  else
    let cols := gridCols ids.length
    let rows := (ids.length + cols - 1) / cols
    let items := ids.map fun id => (⟨id, 140, 100, none, none, 0⟩ : LayoutItem)
    (gridLayout area rows cols items 8).foldl (fun windows (id, rect) =>
      modifyWindow windows id (mapWindow (tileTo rect))) windows

variable (env : ScreenEnv)

/-- `maybe_auto_tile_windows`: once there are ten windows with surfaces, they are tiled. -/
def maybeAutoTileWindows (σ : ModeState) : ModeState :=
  let visible := σ.orderedWindowIds.filter fun id =>
    σ.windows[id]?.any fun surface => surface.surfaceId.isSome
  let availableHeight := (env.height : ℤ) - 48
  if σ.autoLayoutDone ∨ visible.length < 10 ∨ availableHeight ≤ 0 then σ
  else
    { σ with
      windows := layoutWindowsInArea σ.windows ⟨0, 48, env.width, availableHeight.toNat⟩ visible
      autoLayoutDone := true }

/-- The entry of a window with what the window Thing says. -/
def entered (windows : Windows) (window : Ui.Window) : Windows :=
  windows.insert window.id
    (match windows[window.id]? with
    | some entry => { entry with window }
    | none => env.newSurface window window.id)

/-- The entry and the modes with what the window Thing says, before a window is made the active
one. -/
def received (σ : ModeState) (window : Ui.Window) : ModeState :=
  let isNew := !σ.windows.contains window.id
  let windows := entered env σ.windows window
  let windows := if isNew then ensureUniqueZ windows window.id (maxWindowZ σ.windows) else windows
  { σ with
    windows := match window.target with
      | some target => modifyWindow windows window.id fun entry =>
          { entry with surfaceId := some target }
      | none => windows
    modes := if isNew then σ.assigned window else σ.modes }

/-- A window that is marked as active becomes the active one, one that is no longer marked ceases to
be it, and a new one is moved to the end of its mode. -/
def activated (σ : ModeState) (window : Ui.Window) (isNew : Bool) : ModeState :=
  if window.active then σ.setActiveWindow (some window.id)
  else if σ.activeWindow = some window.id then σ.setActiveWindow none
  else if isNew then { σ with modes := bumpWindow σ.modes window.id }
  else σ

def clampScrollFor (σ : ModeState) (id : Uuid) : ModeState :=
  { σ with windows := modifyWindow σ.windows id env.clampScroll }

def atLeast (window : Ui.Window) : Ui.Window :=
  { window with width := max window.width 140, height := max window.height 100 }

def ingestWindow (σ : ModeState) (window : Ui.Window) : ModeState :=
  let window := atLeast window
  let isNew := !σ.windows.contains window.id
  let σ := σ.received env window
  let σ := σ.activated window isNew
  let σ := σ.clampScrollFor env window.id
  σ.maybeAutoTileWindows env

def surfaceWindow (thing : GraphThing) : Option Uuid :=
  (Surface.load thing).bind fun surface =>
    surface.window.or (thing.field Canon.src Value.asUuid)

def ingestSurface (env : ScreenEnv) (σ : ModeState) (s : InMemoryGraphStore) (thing : GraphThing) :
    ModeState :=
  { σ with
    windows := env.ingestSurface s σ.windows thing
    modes := match surfaceWindow thing with
      | some id => bumpWindow σ.modes id
      | none => σ.modes }

/-! ## Pointer and ticks -/

def findFrom (σ : ModeState) (x y : ℤ) : List Uuid → Option Uuid
  | [] => none
  | id :: ids =>
    match σ.windows[id]? with
    | none => none
    | some surface =>
      if surface.window.visible ∧ HasPoint surface.window x y then some id else findFrom σ x y ids

/-- `on_pointer_down`, as far as the active window is concerned: the window under the pointer, or
none. -/
def onPointerDown (σ : ModeState) (x y : ℤ) : ModeState :=
  σ.setActiveWindow (σ.findFrom x y σ.orderedWindowIds.reverse)

def coverScreen (σ : ModeState) : ModeState :=
  { σ with windows := (enforcePlaceLayout σ.activePlace env.width env.height σ.windows).1 }

def updateScrollbars (σ : ModeState) : ModeState :=
  { σ with
    windows := σ.windows.map fun _ surface =>
      { surface with
        scrollbarWidgetId := surface.scrollbarWidgetId.or (env.newScrollbar surface) } }

/-- `tick`, up to the painting. -/
def tick (σ : ModeState) : ModeState :=
  if env.width = 0 ∨ env.height = 0 then σ
  else ((σ.coverScreen env).ensureActiveWindow).updateScrollbars env

end ModeState

inductive ModeStep where
  | surface (s : InMemoryGraphStore) (thing : GraphThing)
  | window (window : Ui.Window)
  | press (x y : ℤ)
  | tick
  | setMode (i : Fin 12)
  | defineMode (i : Fin 12) (place : Uuid)

namespace ModeState

def step (env : ScreenEnv) (σ : ModeState) : ModeStep → ModeState
  | .surface s thing => σ.ingestSurface env s thing
  | .window window => σ.ingestWindow env window
  | .press x y => σ.onPointerDown x y
  | .tick => σ.tick env
  | .setMode i => { σ with activeMode := i, activePlace := (σ.modes i).placeId }
  | .defineMode i place =>
    { σ with
      modes := update σ.modes i { σ.modes i with placeId := some place }
      activePlace := if i = σ.activeMode then some place else σ.activePlace }

/-- A new compositor, whose modes have places or not. -/
def start (placeOf : Fin 12 → Option Uuid) : ModeState where
  windows := ∅
  modes := fun i => ⟨none, [], placeOf i⟩
  activeMode := firstMode
  activePlace := placeOf firstMode
  activeWindow := none
  autoLayoutDone := false

end ModeState

/-! ## Which windows are known, and which are marked as active -/

def flags (windows : Windows) (id : Uuid) : Option Bool :=
  windows[id]?.map fun entry => entry.window.active

variable {id : Uuid}

lemma flags_eq_none_iff {windows : Windows} :
    flags windows id = none ↔ id ∉ windows := by
  rw [flags, map_eq_none_iff, Std.ExtTreeMap.mem_iff_isSome_getElem?]
  simp

variable (env : ScreenEnv) (s : ModeStep) (windows : Windows)

lemma flags_insert (id : Uuid) (entry : WindowSurface) :
    flags (windows.insert id entry)
      = update (flags windows) id (some entry.window.active) := by
  funext k
  by_cases hk : k = id
  · simp [flags, hk]
  · simp [flags, update_of_ne hk, getElem?_insert_of_ne (Ne.symm hk)]

lemma getElem?_modifyWindow (id : Uuid) (f : WindowSurface → WindowSurface) (k : Uuid) :
    (modifyWindow windows id f)[k]? = if k = id then windows[k]?.map f else windows[k]? := by
  unfold modifyWindow
  cases hentry : windows[id]? with
  | some entry => grind [getElem?_insert_of_ne]
  | none => grind

lemma flags_modifyWindow (id : Uuid) (f : WindowSurface → WindowSurface) :
    flags (modifyWindow windows id f)
      = update (flags windows) id (windows[id]?.map fun e => (f e).window.active) := by
  funext k
  by_cases hk : k = id
  · simp [flags, getElem?_modifyWindow, hk, comp_def]
  · simp [flags, getElem?_modifyWindow, hk]

lemma flags_modifyWindow_of_keeps {windows : Windows}
    {f : WindowSurface → WindowSurface} (hf : ∀ e, (f e).window.active = e.window.active) :
    flags (modifyWindow windows id f) = flags windows := by
  rw [flags_modifyWindow, update_eq_self_iff]
  simp only [hf, flags]

lemma flags_mark (id : Uuid) (mark : Bool) {f : Ui.Window → Ui.Window}
    (hf : ∀ w, (f w).active = mark) :
    flags (modifyWindow windows id (mapWindow f))
      = update (flags windows) id ((flags windows id).map fun _ => mark) := by
  rw [flags_modifyWindow]
  simp only [flags, map_map, mapWindow, hf]
  rfl

lemma flags_map {f : Uuid → WindowSurface → WindowSurface}
    (hf : ∀ id e, (f id e).window.active = e.window.active) :
    flags (windows.map f) = flags windows := by
  funext k
  simp only [flags, Std.ExtTreeMap.getElem?_map, map_map, comp_def, hf]

lemma SurfaceEnv.applyWindowRectHint_window (env : SurfaceEnv) (e : WindowSurface) :
    (env.applyWindowRectHint e).window = e.window := by
  unfold SurfaceEnv.applyWindowRectHint
  split
  · rfl
  · dsimp only
    split
    · rfl
    · split
      · rfl
      · split <;> rfl

/-- The window as the graph has it when a surface for it comes in. -/
def loadedWindow (s : InMemoryGraphStore) (id : Uuid) : Ui.Window :=
  (s.things[id]?.bind Window.load).getD (defaultWindow id)

lemma flags_ingestSurface (env : SurfaceEnv) (s : InMemoryGraphStore) (windows : Windows)
    (thing : GraphThing) :
    flags (env.ingestSurface s windows thing)
      = match ModeState.surfaceWindow thing with
        | some id => update (flags windows) id (some (loadedWindow s id).active)
        | none => flags windows := by
  unfold SurfaceEnv.ingestSurface ModeState.surfaceWindow
  cases Surface.load thing with
  | none => rfl
  | some surface =>
    dsimp only [bind_some]
    cases surface.window.or (thing.field Canon.src Value.asUuid) with
    | none => rfl
    | some id =>
      rw [flags_insert, SurfaceEnv.applyWindowRectHint_window]
      rfl

namespace ModeState

lemma flags_layoutWindowsInArea (area : Rect) (ids : List Uuid) :
    flags (layoutWindowsInArea windows area ids) = flags windows := by
  unfold layoutWindowsInArea
  split
  · rfl
  · dsimp only
    generalize gridLayout area _ _ _ _ = rects
    induction rects generalizing windows with
    | nil => rfl
    | cons entry rects ih =>
      rw [List.foldl_cons, ih]
      exact flags_modifyWindow_of_keeps fun _ => rfl

lemma flags_maybeAutoTileWindows (σ : ModeState) :
    flags (σ.maybeAutoTileWindows env).windows = flags σ.windows
      ∧ (σ.maybeAutoTileWindows env).modes = σ.modes
      ∧ (σ.maybeAutoTileWindows env).activeWindow = σ.activeWindow := by
  unfold maybeAutoTileWindows
  dsimp only
  split
  · exact ⟨rfl, rfl, rfl⟩
  · exact ⟨flags_layoutWindowsInArea _ _ _, rfl, rfl⟩

lemma flags_entered (window : Ui.Window) :
    flags (entered env windows window)
      = update (flags windows) window.id (some window.active) := by
  rw [entered, flags_insert]
  cases windows[window.id]? <;> rfl

lemma flags_received (σ : ModeState) (window : Ui.Window) :
    flags (σ.received env window).windows
      = update (flags σ.windows) window.id (some window.active) := by
  have hz (windows : Windows) (z : ℤ) :
      flags (ensureUniqueZ windows window.id z) = flags windows := by
    refine flags_modifyWindow_of_keeps fun e => ?_
    unfold mapWindow
    dsimp only
    split <;> rfl
  have htarget (windows : Windows) : flags (match window.target with
      | some target => modifyWindow windows window.id fun entry =>
          { entry with surfaceId := some target }
      | none => windows) = flags windows := by
    split
    · exact flags_modifyWindow_of_keeps fun _ => rfl
    · rfl
  rw [received]
  rw [htarget]
  split
  · rw [hz, flags_entered]
  · exact flags_entered env σ.windows window

/-- The marks after `set_active_window`: that of the former active window goes, that of the new one
comes. -/
lemma flags_setActiveWindow (σ : ModeState) {windowId : Option Uuid}
    (hne : σ.activeWindow ≠ windowId) (k : Uuid) :
    flags (σ.setActiveWindow windowId).windows k
      = if windowId = some k then (flags σ.windows k).map fun _ => true
        else if σ.activeWindow = some k then (flags σ.windows k).map fun _ => false
        else flags σ.windows k := by
  have hcleared : ∀ k, flags (match σ.activeWindow with
      | some prev => modifyWindow σ.windows prev (mapWindow fun window =>
          { window with active := false })
      | none => σ.windows) k
      = if σ.activeWindow = some k then (flags σ.windows k).map fun _ => false
        else flags σ.windows k := by
    intro k
    cases hactive : σ.activeWindow with
    | none => rfl
    | some prev =>
      rw [flags_mark _ _ false fun _ => rfl]
      by_cases hk : k = prev
      · simp [hk]
      · simp [hk, Ne.symm hk]
  rw [setActiveWindow, if_neg hne]
  cases windowId with
  | none => simpa using hcleared k
  | some id =>
    rw [flags_mark _ _ true fun _ => rfl]
    by_cases hk : k = id
    · subst hk
      rw [update_self, hcleared, if_pos rfl, if_neg hne]
    · have hother : ¬some id = some k := fun heq => hk (some_inj.mp heq).symm
      rw [update_of_ne hk, hcleared, if_neg hother]

end ModeState

/-! ## In which modes a window is -/

def Slot.occurrences (slot : Slot) (id : Uuid) : ℕ :=
  (if slot.rootWindow = some id then 1 else 0) + slot.windows.count id

/-- How often it stands in all of them. -/
def occurrences (modes : Fin 12 → Slot) (id : Uuid) : ℕ := ∑ i, (modes i).occurrences id

lemma occurrences_update (i : Fin 12) (slot : Slot) (id : Uuid) :
    occurrences (update modes i slot) id + (modes i).occurrences id
      = occurrences modes id + slot.occurrences id := by
  have hafter := Finset.add_sum_erase Finset.univ
    (fun j => (update modes i slot j).occurrences id) (Finset.mem_univ i)
  have hbefore := Finset.add_sum_erase Finset.univ (fun j => (modes j).occurrences id)
    (Finset.mem_univ i)
  have hothers : ∑ j ∈ Finset.univ.erase i, (update modes i slot j).occurrences id
      = ∑ j ∈ Finset.univ.erase i, (modes j).occurrences id :=
    Finset.sum_congr rfl fun j hj => by rw [update_of_ne (Finset.ne_of_mem_erase hj)]
  simp only [update_self] at hafter
  unfold occurrences
  omega

lemma Slot.occurrences_le (i : Fin 12) (id : Uuid) :
    (modes i).occurrences id ≤ Compositor.occurrences modes id :=
  Finset.single_le_sum (f := fun j => (modes j).occurrences id) (fun _ _ => Nat.zero_le _)
    (Finset.mem_univ i)

/-- Moving a window to the end of its slot does not change where it is. -/
lemma occurrences_bumpWindow (k id : Uuid) :
    occurrences (bumpWindow modes k) id = occurrences modes id := by
  unfold bumpWindow
  split
  case h_2 => rfl
  case h_1 i hi =>
    have hsame : Slot.occurrences { modes i with windows := (modes i).windows.erase k ++ [k] } id
        = (modes i).occurrences id := by
      have hcount : ((modes i).windows.erase k ++ [k]).count id = (modes i).windows.count id := by
        grind
      rw [Slot.occurrences, hcount, Slot.occurrences]
    have hupdate := occurrences_update modes i
      { modes i with windows := (modes i).windows.erase k ++ [k] } id
    omega

/-- A new window in a slot comes in addition, or takes the place of the root window. -/
lemma Slot.occurrences_put (slot : Slot) (id : Uuid) (asRoot : Bool) (place : Option Uuid)
    (k : Uuid) :
    (slot.put id asRoot place).occurrences k
        + (if asRoot ∧ slot.rootWindow = some k then 1 else 0)
      = slot.occurrences k + if k = id then 1 else 0 := by
  cases asRoot with
  | false =>
    simp only [Slot.put, Slot.occurrences, Bool.false_eq_true, if_false, false_and,
      List.count_append, List.count_singleton, beq_iff_eq, eq_comm (a := id)]
    omega
  | true =>
    simp only [Slot.put, Slot.occurrences, if_true, true_and, some_inj, eq_comm (a := id)]
    omega

def Slot.Has (slot : Slot) (id : Uuid) : Prop := slot.rootWindow = some id ∨ id ∈ slot.windows

/-- It is the root window of the slot or else stands once in the list. -/
def Slot.HasOnce (slot : Slot) (id : Uuid) : Prop :=
  (slot.rootWindow = some id ∧ id ∉ slot.windows)
    ∨ (slot.rootWindow ≠ some id ∧ slot.windows.count id = 1)

/-- The window belongs to exactly one mode, and has one place in it. -/
def InOneMode (id : Uuid) : Prop :=
  ∃ i, (modes i).HasOnce id ∧ ∀ j, j ≠ i → ¬(modes j).Has id

lemma Slot.occurrences_eq_zero_iff {slot : Slot} :
    slot.occurrences id = 0 ↔ ¬slot.Has id := by
  unfold Slot.occurrences Slot.Has
  by_cases hroot : slot.rootWindow = some id <;> simp [hroot, List.count_eq_zero]

lemma Slot.occurrences_eq_one_iff {slot : Slot} :
    slot.occurrences id = 1 ↔ slot.HasOnce id := by
  unfold Slot.occurrences Slot.HasOnce
  by_cases hroot : slot.rootWindow = some id <;> simp [hroot, List.count_eq_zero]

lemma inOneMode_iff {modes : Fin 12 → Slot} :
    InOneMode modes id ↔ occurrences modes id = 1 := by
  have hsplit (i : Fin 12) : (modes i).occurrences id
      + ∑ j ∈ Finset.univ.erase i, (modes j).occurrences id = occurrences modes id :=
    Finset.add_sum_erase Finset.univ (fun j => (modes j).occurrences id) (Finset.mem_univ i)
  have hothers (i : Fin 12) : ∑ j ∈ Finset.univ.erase i, (modes j).occurrences id = 0
      ↔ ∀ j, j ≠ i → ¬(modes j).Has id := by
    rw [Finset.sum_eq_zero_iff]
    simp [Slot.occurrences_eq_zero_iff]
  constructor
  · rintro ⟨i, honce, hrest⟩
    have hi := Slot.occurrences_eq_one_iff.mpr honce
    have hzero := (hothers i).mpr hrest
    have hsum := hsplit i
    omega
  · intro hone
    have hexists : ∃ i, (modes i).occurrences id ≠ 0 := by
      by_contra hnone
      push Not at hnone
      have hzero : occurrences modes id = 0 := Finset.sum_eq_zero fun i _ => hnone i
      omega
    obtain ⟨i, hi⟩ := hexists
    have hsum := hsplit i
    exact ⟨i, Slot.occurrences_eq_one_iff.mp (by omega), (hothers i).mp (by omega)⟩

/-! ## What a step does to the places of windows -/

variable {σ : ModeState}

namespace ModeState

section

variable (σ : ModeState)

/-- Making a window the active one changes neither which windows are known nor where they are. -/
lemma setActiveWindow_places (windowId : Option Uuid) (k : Uuid) :
    (flags (σ.setActiveWindow windowId).windows k = none ↔ flags σ.windows k = none)
      ∧ occurrences (σ.setActiveWindow windowId).modes k = occurrences σ.modes k := by
  by_cases hsame : σ.activeWindow = windowId
  · rw [setActiveWindow, if_pos hsame]
    exact ⟨Iff.rfl, rfl⟩
  · constructor
    · rw [flags_setActiveWindow σ hsame]
      split
      · exact map_eq_none_iff
      · split
        · exact map_eq_none_iff
        · exact Iff.rfl
    · rw [setActiveWindow, if_neg hsame]
      cases windowId with
      | none => rfl
      | some id => exact occurrences_bumpWindow σ.modes id k

lemma ensureActiveWindow_places (k : Uuid) :
    (flags σ.ensureActiveWindow.windows k = none ↔ flags σ.windows k = none)
      ∧ occurrences σ.ensureActiveWindow.modes k = occurrences σ.modes k := by
  unfold ensureActiveWindow
  split
  · exact ⟨Iff.rfl, rfl⟩
  · dsimp only
    split
    · exact ⟨Iff.rfl, rfl⟩
    · exact σ.setActiveWindow_places _ k

lemma flags_coverScreen :
    flags (σ.coverScreen env).windows = flags σ.windows := by
  unfold coverScreen enforcePlaceLayout
  split
  · rfl
  · refine flags_map σ.windows fun id e => ?_
    split <;> rfl

lemma flags_updateScrollbars :
    flags (σ.updateScrollbars env).windows = flags σ.windows :=
  flags_map σ.windows fun _ _ => rfl

lemma flags_clampScrollFor (id : Uuid) :
    flags (σ.clampScrollFor env id).windows = flags σ.windows :=
  flags_modifyWindow_of_keeps fun _ => rfl

lemma tick_places (k : Uuid) : (flags (σ.tick env).windows k = none ↔ flags σ.windows k = none)
      ∧ occurrences (σ.tick env).modes k = occurrences σ.modes k := by
  unfold tick
  split
  · exact ⟨Iff.rfl, rfl⟩
  · rw [flags_updateScrollbars, ← flags_coverScreen env σ]
    exact (σ.coverScreen env).ensureActiveWindow_places k

lemma activated_places (window : Ui.Window) (isNew : Bool) (k : Uuid) :
    (flags (σ.activated window isNew).windows k = none ↔ flags σ.windows k = none)
      ∧ occurrences (σ.activated window isNew).modes k = occurrences σ.modes k := by
  unfold activated
  split
  · exact σ.setActiveWindow_places _ k
  · split
    · exact σ.setActiveWindow_places _ k
    · split
      · exact ⟨Iff.rfl, occurrences_bumpWindow σ.modes window.id k⟩
      · exact ⟨Iff.rfl, rfl⟩

/-- A window Thing makes its window known; if it was not, the window gets its place. -/
lemma ingestWindow_places (window : Ui.Window) (k : Uuid) :
    (flags (σ.ingestWindow env window).windows k = none ↔ flags σ.windows k = none ∧ k ≠ window.id)
      ∧ occurrences (σ.ingestWindow env window).modes k
        = occurrences (if window.id ∈ σ.windows then σ.modes else σ.assigned window) k := by
  have hreceived : flags (σ.received env (atLeast window)).windows k = none
      ↔ flags σ.windows k = none ∧ k ≠ window.id := by
    rw [flags_received]
    by_cases hk : k = window.id
    · simp [hk, atLeast]
    · simp [hk, update_of_ne, atLeast]
  have hmodes : (σ.received env (atLeast window)).modes
      = if window.id ∈ σ.windows then σ.modes else σ.assigned window := by
    by_cases hknown : window.id ∈ σ.windows
    · simp [received, hknown, atLeast]
    · simp only [received, atLeast, hknown, if_false, Std.ExtTreeMap.contains_iff_mem,
        Bool.not_eq_true', ← Bool.not_eq_true]
      simp
      rfl
  obtain ⟨hflags, htiled, -⟩ := flags_maybeAutoTileWindows env
    (((σ.received env (atLeast window)).activated (atLeast window)
      (!σ.windows.contains (atLeast window).id)).clampScrollFor env (atLeast window).id)
  obtain ⟨hknown, hplaces⟩ := (σ.received env (atLeast window)).activated_places (atLeast window)
    (!σ.windows.contains (atLeast window).id) k
  rw [← hreceived, ← hmodes, ← hknown, ← hplaces, ingestWindow, hflags, htiled,
    flags_clampScrollFor]
  exact ⟨Iff.rfl, rfl⟩

/-- A surface makes its window known and moves it, but gives it no place. -/
lemma ingestSurface_places (s : InMemoryGraphStore) (thing : GraphThing) (k : Uuid) :
    (flags (σ.ingestSurface env s thing).windows k = none
        ↔ flags σ.windows k = none ∧ surfaceWindow thing ≠ some k)
      ∧ occurrences (σ.ingestSurface env s thing).modes k = occurrences σ.modes k := by
  unfold ingestSurface
  rw [flags_ingestSurface]
  cases surfaceWindow thing with
  | none => simp
  | some id =>
    refine ⟨?_, occurrences_bumpWindow σ.modes id k⟩
    by_cases hk : k = id
    · simp [hk]
    · simp [update_of_ne hk, Ne.symm hk]

/-- A new window stands in one place more; the root window whose place it takes in one less. -/
lemma occurrences_assigned {window : Ui.Window} {i : Fin 12} {asRoot : Bool}
    {place : Option Uuid} (h : σ.assignment window = some (i, asRoot, place)) (k : Uuid) :
    occurrences (σ.assigned window) k
        + (if asRoot ∧ (σ.modes i).rootWindow = some k then 1 else 0)
      = occurrences σ.modes k + if k = window.id then 1 else 0 := by
  have hupdate := occurrences_update σ.modes i ((σ.modes i).put window.id asRoot place) k
  have hput := (σ.modes i).occurrences_put window.id asRoot place k
  rw [assigned, h]
  dsimp only
  omega

end

/-! ## Whole runs -/

def OnlyKnown (σ : ModeState) : Prop := ∀ k, flags σ.windows k = none → occurrences σ.modes k = 0

/-- No window stands in two places. -/
def AtMostOnce (σ : ModeState) : Prop := ∀ k, occurrences σ.modes k ≤ 1

/-- Every window that is known belongs to exactly one mode. -/
def AllPlaced (σ : ModeState) : Prop := ∀ id ∈ σ.windows, InOneMode σ.modes id

lemma allPlaced_iff :
    σ.AllPlaced ↔ ∀ k, flags σ.windows k ≠ none → occurrences σ.modes k = 1 := by
  simp only [AllPlaced, inOneMode_iff, ne_eq, flags_eq_none_iff, not_not]

/-- A surface is for a window that is known, and a new window has a mode to go to and does not take
the place of a root window. -/
def Keeps (σ : ModeState) : ModeStep → Prop
  | .surface _ thing => ∀ id, surfaceWindow thing = some id → id ∈ σ.windows
  | .window window =>
    window.id ∈ σ.windows ∨ ∃ i asRoot place, σ.assignment window = some (i, asRoot, place)
      ∧ (asRoot = true → (σ.modes i).rootWindow = none)
  | .press _ _ | .tick | .setMode _ | .defineMode _ _ => True

/-- A step other than the arrival of a surface or a window. -/
def Quiet : ModeStep → Prop
  | .surface _ _ | .window _ => False
  | .press _ _ | .tick | .setMode _ | .defineMode _ _ => True

lemma step_places (σ : ModeState) {s : ModeStep} (hs : Quiet s) (k : Uuid) :
    (flags (σ.step env s).windows k = none ↔ flags σ.windows k = none)
      ∧ occurrences (σ.step env s).modes k = occurrences σ.modes k := by
  cases s with
  | surface => exact hs.elim
  | window => exact hs.elim
  | press x y => exact σ.setActiveWindow_places _ k
  | tick => exact σ.tick_places env k
  | setMode i => exact ⟨Iff.rfl, rfl⟩
  | defineMode i place =>
    have hupdate := occurrences_update σ.modes i ⟨(σ.modes i).rootWindow, (σ.modes i).windows,
      some place⟩ k
    have hsame : Slot.occurrences ⟨(σ.modes i).rootWindow, (σ.modes i).windows, some place⟩ k
        = (σ.modes i).occurrences k := rfl
    rw [hsame] at hupdate
    exact ⟨Iff.rfl, Nat.add_right_cancel hupdate⟩

lemma onlyKnown_step (h : σ.OnlyKnown) : (σ.step env s).OnlyKnown := by
  intro k hk
  by_cases hquiet : Quiet s
  · obtain ⟨hknown, hplaces⟩ := σ.step_places env hquiet k
    exact hplaces.trans (h k (hknown.mp hk))
  cases s with
  | press | tick | setMode | defineMode => exact absurd trivial hquiet
  | surface store thing =>
    obtain ⟨hknown, hplaces⟩ := σ.ingestSurface_places env store thing k
    exact hplaces.trans (h k (hknown.mp hk).1)
  | window window =>
    obtain ⟨hknown, hplaces⟩ := σ.ingestWindow_places env window k
    obtain ⟨hbefore, hne⟩ := hknown.mp hk
    have hzero := h k hbefore
    refine hplaces.trans ?_
    split
    · exact hzero
    · cases hassignment : σ.assignment window with
      | none => rwa [assigned, hassignment]
      | some target =>
        have hassigned := σ.occurrences_assigned hassignment k
        rw [if_neg hne] at hassigned
        omega

/-- A surface keeps every window in one mode exactly when its window is known. -/
lemma allPlaced_ingestSurface_iff (store : InMemoryGraphStore)
    (thing : GraphThing) (hknown : σ.OnlyKnown) (hplaced : σ.AllPlaced) :
    (σ.ingestSurface env store thing).AllPlaced
      ↔ ∀ id, surfaceWindow thing = some id → id ∈ σ.windows := by
  have hstep := σ.ingestSurface_places env store thing
  rw [allPlaced_iff] at hplaced ⊢
  constructor
  · intro h id hid
    by_contra hunknown
    -- a window that the surface made known stands nowhere
    have hone := h id ((hstep id).1.not.mpr (by simp [hid]))
    have hzero := hknown id (flags_eq_none_iff.mpr hunknown)
    rw [(hstep id).2, hzero] at hone
    exact absurd hone (by decide)
  · intro h k hk
    rw [ne_eq, (hstep k).1] at hk
    refine (hstep k).2.trans (hplaced k fun hnone => hk ⟨hnone, fun hid => ?_⟩)
    exact flags_eq_none_iff.mp hnone (h k hid)

/-- A window that is not known keeps every window in one mode exactly when there is a mode for it
whose root window it does not replace. -/
lemma allPlaced_ingestWindow_iff (window : Ui.Window)
    (hknown : σ.OnlyKnown) (hplaced : σ.AllPlaced) (hnew : window.id ∉ σ.windows) :
    (σ.ingestWindow env window).AllPlaced
      ↔ ∃ i asRoot place, σ.assignment window = some (i, asRoot, place)
        ∧ (asRoot = true → (σ.modes i).rootWindow = none) := by
  have hstep := σ.ingestWindow_places env window
  have hzero := hknown window.id (flags_eq_none_iff.mpr hnew)
  rw [if_neg hnew] at hstep
  rw [allPlaced_iff] at hplaced ⊢
  constructor
  · intro h
    have hone := h window.id ((hstep window.id).1.not.mpr (by simp))
    rw [(hstep window.id).2] at hone
    cases hassignment : σ.assignment window with
    | none =>
      rw [assigned, hassignment, hzero] at hone
      exact absurd hone (by decide)
    | some target =>
      obtain ⟨i, asRoot, place⟩ := target
      refine ⟨i, asRoot, place, rfl, fun hroot => ?_⟩
      -- the root window that was there would stand nowhere any more
      by_contra hsome
      obtain ⟨root, hrootWindow⟩ := ne_none_iff_exists'.mp hsome
      have hfound : 0 < (σ.modes i).occurrences root := by simp [Slot.occurrences, hrootWindow]
      have htotal := Slot.occurrences_le σ.modes i root
      have hrootKnown : flags σ.windows root ≠ none := fun hnone => by
        have := hknown root hnone
        omega
      have hne : root ≠ window.id := by
        rintro rfl
        exact hrootKnown (flags_eq_none_iff.mpr hnew)
      have hafter := h root ((hstep root).1.not.mpr fun hnone => hrootKnown hnone.1)
      have hassigned := σ.occurrences_assigned hassignment root
      rw [if_pos ⟨hroot, hrootWindow⟩, if_neg hne, hplaced root hrootKnown] at hassigned
      rw [(hstep root).2] at hafter
      omega
  · rintro ⟨i, asRoot, place, hassignment, hroot⟩ k hk
    have hassigned := σ.occurrences_assigned hassignment k
    have hnone : ¬(asRoot = true ∧ (σ.modes i).rootWindow = some k) := by
      rintro ⟨hasRoot, hsome⟩
      rw [hroot hasRoot] at hsome
      cases hsome
    rw [if_neg hnone] at hassigned
    rw [(hstep k).2]
    rw [ne_eq, (hstep k).1] at hk
    by_cases hid : k = window.id
    · rw [if_pos hid, hid, hzero] at hassigned
      rw [hid]
      omega
    · have hbefore := hplaced k fun hnone => hk ⟨hnone, hid⟩
      rw [if_neg hid] at hassigned
      omega

/-- A step keeps every window in one mode exactly when it meets the condition. -/
lemma allPlaced_step_iff (hknown : σ.OnlyKnown)
    (hplaced : σ.AllPlaced) : (σ.step env s).AllPlaced ↔ σ.Keeps s := by
  by_cases hquiet : Quiet s
  · rw [allPlaced_iff] at hplaced ⊢
    refine iff_of_true (fun k hk => ?_) ?_
    · obtain ⟨hsame, hplaces⟩ := σ.step_places env hquiet k
      exact hplaces.trans (hplaced k (hsame.not.mp hk))
    · cases s <;> first | exact hquiet.elim | trivial
  cases s with
  | press | tick | setMode | defineMode => exact absurd trivial hquiet
  | surface store thing => exact allPlaced_ingestSurface_iff env store thing hknown hplaced
  | window window =>
    by_cases hnew : window.id ∈ σ.windows
    · refine iff_of_true ?_ (.inl hnew)
      have hstep := σ.ingestWindow_places env window
      rw [if_pos hnew] at hstep
      rw [allPlaced_iff] at hplaced ⊢
      intro k hk
      refine (hstep k).2.trans (hplaced k fun hnone => ?_)
      refine (hstep k).1.not.mp hk ⟨hnone, ?_⟩
      rintro rfl
      exact flags_eq_none_iff.mp hnone hnew
    · exact (allPlaced_ingestWindow_iff env window hknown hplaced hnew).trans
        (or_iff_right hnew).symm

/-- Whatever happens, no window comes to stand in two places. -/
lemma atMostOnce_step (hknown : σ.OnlyKnown) (h : σ.AtMostOnce) : (σ.step env s).AtMostOnce := by
  intro k
  have hk := h k
  by_cases hquiet : Quiet s
  · exact (σ.step_places env hquiet k).2.trans_le hk
  cases s with
  | press | tick | setMode | defineMode => exact absurd trivial hquiet
  | surface store thing => exact (σ.ingestSurface_places env store thing k).2.trans_le hk
  | window window =>
    refine (σ.ingestWindow_places env window k).2.trans_le ?_
    split
    · exact hk
    case isFalse hnew =>
      cases hassignment : σ.assignment window with
      | none => rwa [assigned, hassignment]
      | some target =>
        have hassigned := σ.occurrences_assigned hassignment k
        by_cases hid : k = window.id
        · have hzero := hknown k (flags_eq_none_iff.mpr (hid ▸ hnew))
          rw [if_pos hid] at hassigned
          omega
        · rw [if_neg hid] at hassigned
          omega

lemma onlyKnown_start (placeOf : Fin 12 → Option Uuid) : (start placeOf).OnlyKnown := by
  intro k _
  exact Finset.sum_eq_zero fun i _ => rfl

lemma allPlaced_start (placeOf : Fin 12 → Option Uuid) : (start placeOf).AllPlaced := by
  intro id hid
  exact absurd hid Std.ExtTreeMap.not_mem_empty

lemma AtMostOnce.apart (h : σ.AtMostOnce) {i : Fin 12} {root : Uuid}
    (hroot : (σ.modes i).rootWindow = some root) : root ∉ (σ.modes i).windows := by
  have honce := h root
  have htotal := Slot.occurrences_le σ.modes i root
  rw [Slot.occurrences, if_pos hroot] at htotal
  exact List.count_eq_zero.mp (by omega)

/-- Every known window belongs to exactly one mode throughout a run, as its root window or once in
its list, exactly when every surface is for a known window, and every new window has a mode to go to
and does not take the place of a root window. -/
theorem mode_membership_iff (placeOf : Fin 12 → Option Uuid) (steps : List ModeStep) :
    (∀ pre post, steps = pre ++ post → (run (step env) (start placeOf) pre).AllPlaced)
      ↔ EachStep (step env) Keeps (start placeOf) steps :=
  throughout_iff_eachStep (onlyKnown_start placeOf) (allPlaced_start placeOf)
    (fun _ s h => onlyKnown_step env s h) fun _ s hknown hplaced =>
      allPlaced_step_iff env s hknown hplaced

end ModeState

/-- A screen without fonts and bitmaps. -/
def plainScreen : ScreenEnv where
  toSurfaceEnv := plainEnv
  width := 640
  height := 480
  newScrollbar _ := none

def surfaceOf (windowId : Uuid) : GraphThing where
  id := 0
  kind := Canon.surface
  labels := ∅
  fields := (∅ : Map).insert Canon.src (.uuid windowId)
  owner := 0
  revision := 0

/-- Window 1 becomes known by its surface, and its own Thing comes too late. -/
theorem surface_first_unplaced :
    ¬(run (ModeState.step plainScreen) (ModeState.start fun _ => none)
      [.surface .new (surfaceOf 1), .window (defaultWindow 1)]).AllPlaced := by
  intro h
  have hone := ModeState.allPlaced_iff.mp h 1 (by decide +kernel)
  exact absurd hone (by decide +kernel)

end ThingOS.Compositor
