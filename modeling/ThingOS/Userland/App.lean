import ThingOS.Userland.GraphWrites
import ThingOS.Userland.Identity
import ThingOS.Userland.UiGraph

/-!
# Apps and the text of their windows

`AppContext` of `userland/src/app.rs`. What an app draws in a tick is collected in a buffer for each
window; `flush` publishes a surface for every window with a buffer, a bitmap or properties. The
buffers are cleared before every tick and after every flush. The properties of a window stay, and
every later tick publishes the window again, with its text only if the tick drew any. `create_app`
runs the app's `init` without a flush.
-/

namespace ThingOS.Ui

open Std.ExtTreeMap

/-- `WindowProps`. -/
structure WindowProps where
  isMono : Bool
  textColor : Option (BitVec 32)
  bgColor : Option (BitVec 32)

def WindowProps.default : WindowProps := ⟨false, none, none⟩

/-- `AppState`, without the ids of the app and of the compositor. -/
structure AppState where
  buffers : Std.ExtTreeMap Uuid String compare
  bitmaps : Std.ExtTreeMap Uuid (List UInt8) compare
  windowPixmaps : Std.ExtTreeMap Uuid Uuid compare
  windowProps : Std.ExtTreeMap Uuid WindowProps compare
  windowCounter : BitVec 64

/-- What an app calls. A window is named by its id, which the app has from `create_window`. -/
inductive AppCall where
  | createWindow (window : ThingOS.Window)
  | clearWindow (win : Uuid)
  | drawText (win : Uuid) (text : String)
  | drawBitmap (win : Uuid) (data : List UInt8)
  | setFontMono (win : Uuid) (isMono : Bool)
  | setTextColor (win : Uuid) (color : BitVec 32)
  | setBgColor (win : Uuid) (color : BitVec 32)

namespace AppCall

def window : AppCall → Option Uuid
  | createWindow _ => none
  | clearWindow win | drawText win _ | drawBitmap win _ | setFontMono win _ | setTextColor win _
  | setBgColor win _ => some win

def SetsProps (win : Uuid) : AppCall → Prop
  | setFontMono w _ | setTextColor w _ | setBgColor w _ => w = win
  | _ => False

def DrawsBitmap (win : Uuid) : AppCall → Prop
  | drawBitmap w _ => w = win
  | _ => False

/-- The text in a window after a call, if the window was cleared or drawn to. -/
def produce (win : Uuid) (text : Option String) : AppCall → Option String
  | clearWindow w => if w = win then some "" else text
  | drawText w s => if w = win then some (text.getD "" ++ s) else text
  | _ => text

end AppCall

/-- The text that calls produce in a window, if they clear it or draw to it. -/
def producedText (win : Uuid) (calls : List AppCall) : Option String :=
  calls.foldl (AppCall.produce win) none

namespace AppState

def new : AppState where
  buffers := ∅
  bitmaps := ∅
  windowPixmaps := ∅
  windowProps := ∅
  windowCounter := 0

/-- `window_props.entry(win).or_default()`, changed. -/
def modifyProps (st : AppState) (win : Uuid) (f : WindowProps → WindowProps) : AppState :=
  { st with windowProps := st.windowProps.insert win (f (st.windowProps[win]?.getD .default)) }

/-- A call, and what it declares. -/
def call (st : AppState) : AppCall → AppState × List Declaration
  | .createWindow window =>
    let index := st.windowCounter
    let id := simpleUuid (windowName window.title index)
    let pixmap := simpleUuid (pixmapName window.title index)
    ({ st with
        windowPixmaps := st.windowPixmaps.insert id pixmap, windowCounter := index + 1 },
      [⟨id, Canon.window, windowFields window index⟩])
  | .clearWindow win => ({ st with buffers := st.buffers.insert win "" }, [])
  | .drawText win text =>
    ({ st with buffers := st.buffers.insert win (st.buffers[win]?.getD "" ++ text) }, [])
  | .drawBitmap win data => ({ st with bitmaps := st.bitmaps.insert win data }, [])
  | .setFontMono win isMono => (st.modifyProps win ({ · with isMono }), [])
  | .setTextColor win color => (st.modifyProps win ({ · with textColor := some color }), [])
  | .setBgColor win color => (st.modifyProps win ({ · with bgColor := some color }), [])

def callAll (st : AppState) (calls : List AppCall) : AppState :=
  calls.foldl (fun st c => (st.call c).1) st

def declarations (st : AppState) (calls : List AppCall) : List Declaration :=
  outputs (fun st c => (call st c).1) (fun st c => (call st c).2) st calls

/-- The windows that `flush` looks at. -/
def updates (st : AppState) : List Uuid :=
  let ids := st.buffers.keys
  let ids := ids ++ st.bitmaps.keys.filter fun id => id ∉ ids
  ids ++ st.windowProps.keys.filter fun id => id ∉ ids

def propsFields (props : WindowProps) (payload : Map) : Map :=
  let payload := payload.insert Canon.isMono (.bool props.isMono)
  let payload :=
    match props.textColor with
    | some c => payload.insert Canon.textColor (.u64 c.toNat)
    | none => payload
  match props.bgColor with
  | some c => payload.insert Canon.bgColor (.u64 c.toNat)
  | none => payload

/-- The surface of a window as `flush` publishes it. -/
def payload (st : AppState) (tick : ℕ) (win pixmap : Uuid) : Map :=
  let payload := (((∅ : Map).insert Canon.src (.uuid win)).insert Canon.target
    (.uuid pixmap)).insert Canon.revision (.u64 tick)
  let payload :=
    match st.buffers[win]? with
    | some text => payload.insert Canon.text (.bytes text.toUTF8.data.toList)
    | none => payload
  let payload :=
    match st.windowProps[win]? with
    | some props => propsFields props payload
    | none => payload
  let payload := (payload.insert Canon.dirty (.bool true)).insert Canon.visible (.bool true)
  match st.bitmaps[win]? with
  | some bmp => payload.insert Canon.bitmap (.bytes bmp)
  | none => payload

/-- One window of `flush`: the bitmap is used up. -/
def flushWindow (tick : ℕ) (st : AppState) (win : Uuid) : AppState × List Declaration :=
  match st.windowPixmaps[win]? with
  | some pixmap =>
    ({ st with bitmaps := st.bitmaps.erase win },
      [⟨pixmap, Canon.surface, st.payload tick win pixmap⟩])
  | none => (st, [])

/-- `flush`, without the edges from the windows to their surfaces. -/
def flush (st : AppState) (tick : ℕ) : AppState × List Declaration :=
  let windows := st.updates
  ({ windows.foldl (fun st win => (flushWindow tick st win).1) st with buffers := ∅ },
    outputs (fun st win => (flushWindow tick st win).1) (fun st win => (flushWindow tick st win).2)
      st windows)

/-- `tick` of a hosted app that makes these calls, in its `on_event` and its own `tick`. -/
def tick (st : AppState) (number : ℕ) (calls : List AppCall) : AppState × List Declaration :=
  let st := { st with buffers := ∅ }
  let (next, surfaces) := (st.callAll calls).flush number
  (next, st.declarations calls ++ surfaces)

/-! ## The calls of a tick -/

variable {st : AppState} {win : Uuid} {calls : List AppCall}

lemma buffers_call (st : AppState) (c : AppCall) (win : Uuid) :
    (st.call c).1.buffers[win]? = c.produce win st.buffers[win]? := by
  cases c with
  | clearWindow w | drawText w s =>
    by_cases h : w = win
    · subst h
      simp [call, AppCall.produce]
    · simp [call, AppCall.produce, getElem?_insert, h]
  | _ => rfl

lemma buffers_callAll (hbuffers : st.buffers = ∅) (calls : List AppCall) (win : Uuid) :
    (st.callAll calls).buffers[win]? = producedText win calls := by
  induction calls using List.reverseRecOn with
  | nil => simp [callAll, producedText, hbuffers]
  | append_singleton calls c ih =>
    rw [callAll, producedText, List.foldl_append, List.foldl_append]
    exact (buffers_call _ c win).trans (congrArg (AppCall.produce win · c) ih)

lemma windowProps_call (st : AppState) (c : AppCall) (win : Uuid) :
    win ∈ (st.call c).1.windowProps ↔ win ∈ st.windowProps ∨ c.SetsProps win := by
  cases c with
  | setFontMono w b | setTextColor w b | setBgColor w b =>
    simp [call, modifyProps, AppCall.SetsProps, or_comm]
  | _ => simp [call, AppCall.SetsProps]

lemma windowProps_callAll (st : AppState) (calls : List AppCall) (win : Uuid) :
    win ∈ (st.callAll calls).windowProps
      ↔ win ∈ st.windowProps ∨ ∃ c ∈ calls, c.SetsProps win := by
  induction calls generalizing st with
  | nil => simp [callAll]
  | cons c calls ih =>
    refine (ih (st.call c).1).trans ?_
    rw [windowProps_call, List.exists_mem_cons_iff, or_assoc]

lemma bitmaps_call (st : AppState) (c : AppCall) (win : Uuid) :
    win ∈ (st.call c).1.bitmaps ↔ win ∈ st.bitmaps ∨ c.DrawsBitmap win := by
  cases c with
  | drawBitmap w data => simp [call, AppCall.DrawsBitmap, or_comm]
  | _ => simp [call, modifyProps, AppCall.DrawsBitmap]

/-- A window has a bitmap to show if it had one or was given one. -/
lemma bitmaps_callAll (st : AppState) (calls : List AppCall) (win : Uuid) :
    win ∈ (st.callAll calls).bitmaps ↔ win ∈ st.bitmaps ∨ ∃ c ∈ calls, c.DrawsBitmap win := by
  induction calls generalizing st with
  | nil => simp [callAll]
  | cons c calls ih =>
    refine (ih (st.call c).1).trans ?_
    rw [bitmaps_call, List.exists_mem_cons_iff, or_assoc]

/-- Which windows there are depends on the windows before and on the calls alone. -/
lemma windowPixmaps_callAll_congr {st st' : AppState}
    (hpix : st.windowPixmaps = st'.windowPixmaps)
    (hcount : st.windowCounter = st'.windowCounter) (calls : List AppCall) :
    (st.callAll calls).windowPixmaps = (st'.callAll calls).windowPixmaps
      ∧ (st.callAll calls).windowCounter = (st'.callAll calls).windowCounter := by
  induction calls generalizing st st' with
  | nil => exact ⟨hpix, hcount⟩
  | cons c calls ih =>
    have hpix' : (st.call c).1.windowPixmaps = (st'.call c).1.windowPixmaps := by
      cases c <;> simp [call, modifyProps, hpix, hcount]
    have hcount' : (st.call c).1.windowCounter = (st'.call c).1.windowCounter := by
      cases c <;> simp [call, modifyProps, hcount]
    exact ih hpix' hcount'

lemma windowPixmaps_call_mono (c : AppCall) (h : win ∈ st.windowPixmaps) :
    win ∈ (st.call c).1.windowPixmaps := by
  cases c with
  | createWindow window => exact mem_insert.mpr (.inr h)
  | _ => exact h

lemma windowPixmaps_callAll_mono (calls : List AppCall) (h : win ∈ st.windowPixmaps) :
    win ∈ (st.callAll calls).windowPixmaps := by
  induction calls generalizing st with
  | nil => exact h
  | cons c calls ih => exact ih (windowPixmaps_call_mono c h)

lemma callAll_append (st : AppState) (xs ys : List AppCall) :
    st.callAll (xs ++ ys) = (st.callAll xs).callAll ys := List.foldl_append

/-! ## What a flush publishes -/

/-- A flush shows the window: it has something to show and a surface to show it on. -/
def Shown (st : AppState) (win : Uuid) : Prop :=
  win ∈ st.windowPixmaps ∧ (win ∈ st.buffers ∨ win ∈ st.bitmaps ∨ win ∈ st.windowProps)
deriving Decidable

lemma mem_updates (st : AppState) (win : Uuid) :
    win ∈ st.updates ↔ win ∈ st.buffers ∨ win ∈ st.bitmaps ∨ win ∈ st.windowProps := by
  simp only [updates, List.mem_append, List.mem_filter, mem_keys,
    decide_eq_true_eq]
  tauto

lemma flushWindow_eq (tick : ℕ) (st : AppState) (win : Uuid) :
    (flushWindow tick st win).1.buffers = st.buffers
      ∧ (flushWindow tick st win).1.windowPixmaps = st.windowPixmaps
      ∧ (flushWindow tick st win).1.windowProps = st.windowProps
      ∧ (flushWindow tick st win).1.windowCounter = st.windowCounter := by
  unfold flushWindow
  cases st.windowPixmaps[win]? <;> exact ⟨rfl, rfl, rfl, rfl⟩

lemma flushWindows_eq (tick : ℕ) (st : AppState) (windows : List Uuid) :
    (windows.foldl (fun st win => (flushWindow tick st win).1) st).buffers = st.buffers
      ∧ (windows.foldl (fun st win => (flushWindow tick st win).1) st).windowPixmaps
        = st.windowPixmaps
      ∧ (windows.foldl (fun st win => (flushWindow tick st win).1) st).windowProps
        = st.windowProps
      ∧ (windows.foldl (fun st win => (flushWindow tick st win).1) st).windowCounter
        = st.windowCounter := by
  induction windows generalizing st with
  | nil => exact ⟨rfl, rfl, rfl, rfl⟩
  | cons w windows ih =>
    obtain ⟨hb, hp, hq, hc⟩ := flushWindow_eq tick st w
    obtain ⟨hb', hp', hq', hc'⟩ := ih (flushWindow tick st w).1
    exact ⟨hb'.trans hb, hp'.trans hp, hq'.trans hq, hc'.trans hc⟩

@[simp] lemma flush_windowPixmaps (st : AppState) (tick : ℕ) :
    (st.flush tick).1.windowPixmaps = st.windowPixmaps := (flushWindows_eq tick st _).2.1

@[simp] lemma flush_windowProps (st : AppState) (tick : ℕ) :
    (st.flush tick).1.windowProps = st.windowProps := (flushWindows_eq tick st _).2.2.1

@[simp] lemma flush_windowCounter (st : AppState) (tick : ℕ) :
    (st.flush tick).1.windowCounter = st.windowCounter := (flushWindows_eq tick st _).2.2.2

lemma bitmaps_flushWindows (tick : ℕ) (st : AppState) (windows : List Uuid) (win : Uuid) :
    win ∈ (windows.foldl (fun st win => (flushWindow tick st win).1) st).bitmaps
      ↔ win ∈ st.bitmaps ∧ (win ∈ windows → win ∉ st.windowPixmaps) := by
  induction windows generalizing st with
  | nil => simp
  | cons w windows ih =>
    rw [List.foldl_cons, ih, (flushWindow_eq tick st w).2.1, List.mem_cons]
    cases hw : st.windowPixmaps[w]? with
    | none =>
      have hnot : w ∉ st.windowPixmaps := by
        rw [mem_iff_isSome_getElem?, hw]
        simp
      simp only [flushWindow, hw]
      constructor
      · rintro ⟨hmem, h⟩
        refine ⟨hmem, ?_⟩
        rintro (rfl | hwin)
        · exact hnot
        · exact h hwin
      · rintro ⟨hmem, h⟩
        exact ⟨hmem, fun hwin => h (.inr hwin)⟩
    | some pixmap =>
      have hin : w ∈ st.windowPixmaps := by
        rw [mem_iff_isSome_getElem?, hw]
        rfl
      simp only [flushWindow, hw, mem_erase, Ne, Std.LawfulEqCmp.compare_eq_iff_eq]
      constructor
      · grind
      · rintro ⟨hmem, h⟩
        refine ⟨⟨?_, hmem⟩, fun hwin => h (.inr hwin)⟩
        rintro rfl
        exact h (.inl rfl) hin

lemma bitmaps_flush (st : AppState) (tick : ℕ) (win : Uuid) :
    win ∈ (st.flush tick).1.bitmaps ↔ win ∈ st.bitmaps ∧ win ∉ st.windowPixmaps := by
  refine (bitmaps_flushWindows tick st st.updates win).trans (and_congr_right fun hmem => ?_)
  exact ⟨fun h => h ((mem_updates st win).mpr (.inr (.inl hmem))), fun h _ => h⟩

end AppState

end ThingOS.Ui
