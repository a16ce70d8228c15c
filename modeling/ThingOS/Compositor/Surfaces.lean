import ThingOS.Compositor.Window
import ThingOS.Userland.App

/-!
# The text of a window, from the app to the compositor

`ingest_surface` of `compositor/src/compositor.rs` takes a surface without a text for one whose text
is empty. An app publishes a window whenever it has something to show in it, and that may be a
colour alone. Together the two lose the text of a window at the next tick that does not draw it,
once the app has set a property of the window. The text that `init` draws is never published.
-/

namespace ThingOS.Compositor

open Ui Host AppState List Value Option Std.ExtTreeMap
open Ui.Declaration (declareAll)

/-! ## The compositor's side -/

/-- What scrolling needs of `ContentMetrics`. -/
structure ScrollMetrics where
  viewportHeight : ℤ
  maxScroll : ℤ
  scrollOffset : ℤ

/-- What `ingest_surface` takes from elsewhere: the ids of the window's chrome, the decoder of
bitmaps and the metrics of the content, which depend on the fonts. -/
structure SurfaceEnv where
  titleBarId : Uuid → Uuid
  closeButtonId : Uuid → Uuid
  decodeBmp : List UInt8 → Option Bitmap
  metrics : WindowSurface → Option ScrollMetrics

variable (env : SurfaceEnv)

/-- The entry of a window that is not known yet. -/
def SurfaceEnv.newSurface (window : Ui.Window) (windowId : Uuid) : WindowSurface where
  window := window
  surfaceId := none
  text := ""
  bitmap := none
  scrollY := 0
  scrollbarWidgetId := none
  caret := .default
  titleBarId := some (env.titleBarId windowId)
  closeButtonId := env.closeButtonId windowId
  closeButtonPressed := false
  repeat_ := false
  isMono := false
  textColor := none
  bgColor := none

def SurfaceEnv.clampScroll (surface : WindowSurface) : WindowSurface :=
  { surface with
    scrollY := match env.metrics surface with
      | some metrics => metrics.scrollOffset
      | none => 0 }

def i32Max : ℤ := 2 ^ 31 - 1

/-- The scroll position that brings the hinted rectangle into view, if it is not. -/
def scrollToRect (rect : WindowRect) (metrics : ScrollMetrics) (current : ℤ) : Option ℤ :=
  let rectTop := clampI32 (max 0 (min rect.y i32Max)) 0 i32Max
  let rectHeight := clampI32 (min (max rect.height 0) i32Max) fontHeight i32Max
  let rectBottom := min (rectTop + rectHeight) i32Max
  if rectTop < current then some (clampI32 rectTop 0 metrics.maxScroll)
  else if current + metrics.viewportHeight < rectBottom then
    some (clampI32 (rectBottom - metrics.viewportHeight) 0 metrics.maxScroll)
  else none

def SurfaceEnv.applyWindowRectHint (surface : WindowSurface) : WindowSurface :=
  match surface.window.windowRect with
  | none => { surface with caret := { surface.caret with visible := false } }
  | some rect =>
    let surface := { surface with
      caret := ⟨asI32 rect.x, asI32 rect.y, 2, asI32 rect.height, rect.visible⟩ }
    match env.metrics surface with
    | none => surface
    | some metrics =>
      if metrics.viewportHeight ≤ 0 then surface
      else
        match scrollToRect rect metrics surface.scrollY with
        | some scrollY => { surface with scrollY }
        | none => surface

/-- What a surface Thing changes in the entry of its window. -/
def SurfaceEnv.takeSurface (entry : WindowSurface) (window : Ui.Window) (surface : Surface)
    (thing : GraphThing) : WindowSurface :=
  { entry with
    window
    surfaceId := some surface.id
    text := surface.text
    repeat_ := (window.tileMode.or (thing.field Canon.tileMode asBool)).getD entry.repeat_
    isMono := (thing.field Canon.isMono asBool).getD false
    textColor := (thing.field Canon.textColor asU64).map fun n => asU32 n
    bgColor := (thing.field Canon.bgColor asU64).map fun n => asU32 n
    bitmap := (surface.bitmap.bind env.decodeBmp).or entry.bitmap }

def SurfaceEnv.ingestSurface (s : InMemoryGraphStore) (windows : Windows) (thing : GraphThing) :
    Windows :=
  match Surface.load thing with
  | none => windows
  | some surface =>
    match surface.window.or (thing.field Canon.src asUuid) with
    | none => windows
    | some windowId =>
      let window := (s.things[windowId]?.bind Window.load).getD (defaultWindow windowId)
      let entry := windows[windowId]?.getD (env.newSurface window windowId)
      windows.insert windowId (env.applyWindowRectHint
        (env.clampScroll (env.takeSurface entry window surface thing)))

/-- What the compositor watches surfaces with. -/
def surfacePattern : NodePattern :=
  ⟨[Canon.surface], (∅ : Map).insert Canon.dirty (.bool true)⟩

/-- Things come to the compositor. -/
def SurfaceEnv.ingestThings (s : InMemoryGraphStore) (windows : Windows)
    (things : List GraphThing) : Windows :=
  things.foldl (fun windows thing =>
    if patternMatches thing surfacePattern then env.ingestSurface s windows thing else windows)
    windows

def textOf (windows : Windows) (win : Uuid) : String :=
  (windows[win]?.map WindowSurface.text).getD ""

/-! ## The whole way -/

def deliveredBy : InMemoryGraphStore → List Declaration → List GraphThing :=
  outputs Declaration.declare fun s d => [(s.fiat d.request).2]

structure TextPipeline where
  app : AppState
  store : InMemoryGraphStore
  windows : Windows

namespace TextPipeline

def start (store : InMemoryGraphStore) (windows : Windows) (init : List AppCall) :
    TextPipeline where
  app := new.callAll init
  store := declareAll store (new.declarations init)
  windows := windows

/-- A tick is made, flushed and ingested. -/
def tick (σ : TextPipeline) (input : ℕ × List AppCall) : TextPipeline :=
  let (app, declarations) := σ.app.tick input.1 input.2
  let store := declareAll σ.store declarations
  { app, store,
    windows := env.ingestThings store σ.windows (deliveredBy σ.store declarations) }

end TextPipeline

/-- The text of the most recent `init` or tick that cleared the window or drew to it. -/
def expectedText (win : Uuid) (init : List AppCall) (ticks : List (List AppCall)) : String :=
  ((init :: ticks).filterMap (producedText win)).getLast?.getD ""

/-! ## What is ingested -/

section Ingest

variable {env} {windows : Windows} {s : InMemoryGraphStore} {thing : GraphThing} {win : Uuid}

@[simp] lemma clampScroll_text (surface : WindowSurface) :
    (env.clampScroll surface).text = surface.text := rfl

@[simp] lemma applyWindowRectHint_text (surface : WindowSurface) :
    (env.applyWindowRectHint surface).text = surface.text := by
  unfold SurfaceEnv.applyWindowRectHint
  cases surface.window.windowRect with
  | none => rfl
  | some rect =>
    simp only
    split
    · rfl
    · split
      · rfl
      · split <;> rfl

/-- The text that a declaration shows in a window, if it is a surface of the window. -/
def shownText (win : Uuid) (d : Declaration) : Option String :=
  if d.kind = Canon.surface ∧ d.fields[Canon.dirty]? = some (.bool true)
      ∧ d.fields[Canon.src]? = some (.uuid win) then
    some ((d.fields[Canon.text]?.bind extractText).getD "")
  else none

lemma patternMatches_declared (d : Declaration) (revision : ℕ) :
    patternMatches (InMemoryGraphStore.fiatThing d.id d.request revision) surfacePattern = true
      ↔ d.kind = Canon.surface ∧ d.fields[Canon.dirty]? = some (.bool true) := by
  have hprops : ((∅ : Map).insert Canon.dirty (.bool true)).toList
      = [(Canon.dirty, .bool true)] := by decide +kernel
  rw [patternMatches, surfacePattern, hprops]
  simp [InMemoryGraphStore.fiatThing, Declaration.request, InMemoryGraphStore.fiatLabels]

lemma textOf_ingestSurface (hkind : thing.kind = Canon.surface) (win : Uuid) :
    textOf (env.ingestSurface s windows thing) win
      = if thing.fields[Canon.src]? = some (.uuid win) then
          (thing.fields[Canon.text]?.bind extractText).getD ""
        else textOf windows win := by
  have hload : Surface.load thing = some {
      id := thing.id
      window := thing.field Canon.src asUuid
      dirty := (thing.field Canon.dirty asBool).getD false
      text := (thing.field Canon.text extractText).getD ""
      bitmap := thing.field Canon.bitmap asBytes } := by
    rw [Surface.load, if_neg (not_not_intro hkind)]
  have hsrc : thing.fields[Canon.src]? = some (.uuid win)
      ↔ thing.field Canon.src asUuid = some win := by
    rw [GraphThing.field]
    cases thing.fields[Canon.src]? with
    | none => simp
    | some v => cases v <;> simp [asUuid]
  simp only [SurfaceEnv.ingestSurface, hload, Option.or_self]
  cases hwindow : thing.field Canon.src asUuid with
  | none => simp [hsrc, hwindow]
  | some other =>
    simp only [hsrc, hwindow, Option.some_inj, textOf, Std.ExtTreeMap.getElem?_insert,
      Std.LawfulEqCmp.compare_eq_iff_eq]
    split
    · rw [Option.map_some, applyWindowRectHint_text, clampScroll_text]
      rfl
    · rfl

lemma textOf_ingestThing (d : Declaration) (revision : ℕ) (win : Uuid) :
    textOf (if patternMatches (InMemoryGraphStore.fiatThing d.id d.request revision) surfacePattern
        then env.ingestSurface s windows (InMemoryGraphStore.fiatThing d.id d.request revision)
        else windows) win
      = (shownText win d).getD (textOf windows win) := by
  by_cases hmatch : d.kind = Canon.surface ∧ d.fields[Canon.dirty]? = some (.bool true)
  · have hkind : (InMemoryGraphStore.fiatThing d.id d.request revision).kind = Canon.surface :=
      hmatch.1
    rw [if_pos ((patternMatches_declared d revision).mpr hmatch), textOf_ingestSurface hkind]
    have hfields : (InMemoryGraphStore.fiatThing d.id d.request revision).fields = d.fields := rfl
    rw [hfields, shownText]
    by_cases hsrc : d.fields[Canon.src]? = some (.uuid win)
    · rw [if_pos hsrc, if_pos ⟨hmatch.1, hmatch.2, hsrc⟩, getD_some]
    · rw [if_neg hsrc, if_neg fun h => hsrc h.2.2, getD_none]
  · rw [if_neg fun h => hmatch ((patternMatches_declared d revision).mp h), shownText,
      if_neg fun h => hmatch ⟨h.1, h.2.1⟩, getD_none]

/-- The text of a window after declarations have come is the one shown last. -/
lemma textOf_ingestThings (t : InMemoryGraphStore) (ds : List Declaration) (win : Uuid) :
    textOf (env.ingestThings s windows (deliveredBy t ds)) win
      = (ds.filterMap (shownText win)).getLast?.getD (textOf windows win) := by
  induction ds using List.reverseRecOn with
  | nil => rfl
  | append_singleton ds d ih =>
    rw [deliveredBy, outputs_concat, SurfaceEnv.ingestThings, foldl_append]
    refine (textOf_ingestThing d _ win).trans ?_
    rw [filterMap_append, filterMap_cons, filterMap_nil]
    rw [SurfaceEnv.ingestThings, deliveredBy] at ih
    cases shownText win d with
    | some text => simp
    | none => simpa using ih

end Ingest

/-! ## What is published -/

section Publish

variable {st : AppState} {win : Uuid}

lemma shownText_declarations (st : AppState) (calls : List AppCall) (win : Uuid) :
    (st.declarations calls).filterMap (shownText win) = [] := by
  rw [filterMap_eq_nil_iff]
  induction calls generalizing st with
  | nil => simp [declarations, outputs]
  | cons c calls ih =>
    intro d hd
    rcases mem_append.mp hd with hd | hd
    · cases c with
      | createWindow window =>
        rw [mem_singleton.mp hd, shownText, if_neg]
        rintro ⟨hkind, -⟩
        exact absurd (show Canon.window = Canon.surface from hkind) (by decide)
      | _ => cases hd
    · exact ih _ d hd

/-- The properties are fields of their own. -/
lemma propsFields_of_ne (props : WindowProps) (payload : Map) {key : Symbol}
    (hmono : key ≠ Canon.isMono) (htext : key ≠ Canon.textColor) (hbg : key ≠ Canon.bgColor) :
    (propsFields props payload)[key]? = payload[key]? := by
  unfold propsFields
  cases props.textColor <;> cases props.bgColor <;>
    simp only [getElem?_insert_of_ne hmono.symm, getElem?_insert_of_ne htext.symm,
      getElem?_insert_of_ne hbg.symm]

section

variable (st : AppState) (tick : ℕ)

/-- The fields of a surface that say whose it is, that it is new and what its text is. -/
lemma payload_fields (w pixmap : Uuid) : (st.payload tick w pixmap)[Canon.src]? = some (.uuid w)
      ∧ (st.payload tick w pixmap)[Canon.dirty]? = some (.bool true)
      ∧ (st.payload tick w pixmap)[Canon.text]?
        = st.buffers[w]?.map fun text => .bytes text.toUTF8.data.toList := by
  unfold payload
  cases st.buffers[w]? <;> cases st.windowProps[w]? <;> cases st.bitmaps[w]? <;>
    simp (disch := decide) only [getElem?_insert_self, getElem?_insert_of_ne,
      propsFields_of_ne, map_none, Option.map_some, getElem?_empty, and_self]

/-- The surface of a window shows what was drawn, or nothing. -/
lemma shownText_payload (w pixmap win : Uuid) :
    shownText win ⟨pixmap, Canon.surface, st.payload tick w pixmap⟩
      = if w = win then some (st.buffers[w]?.getD "") else none := by
  obtain ⟨hsrc, hdirty, htext⟩ := payload_fields st tick w pixmap
  simp only [shownText, hsrc, hdirty, htext, true_and, Option.some_inj, uuid.injEq]
  cases st.buffers[w]? with
  | none => rfl
  | some text =>
    rw [Option.map_some, bind_some, extractText, fromUtf8_toUtf8]

lemma shownText_flushWindows (windows : List Uuid) (win : Uuid) :
    ((outputs (fun st win => (flushWindow tick st win).1)
        (fun st win => (flushWindow tick st win).2) st windows).filterMap
        (shownText win)).getLast?
      = if win ∈ windows ∧ win ∈ st.windowPixmaps then some (st.buffers[win]?.getD "")
        else none := by
  induction windows using List.reverseRecOn with
  | nil => simp [outputs]
  | append_singleton windows w ih =>
    rw [outputs_concat, filterMap_append]
    obtain ⟨hbuffers, hpixmaps, -⟩ := flushWindows_eq tick st windows
    rw [run]
    generalize windows.foldl (fun st win => (flushWindow tick st win).1) st = last
      at hbuffers hpixmaps
    cases hw : last.windowPixmaps[w]? with
    | none =>
      have hmem : win ∈ windows ++ [w] ∧ win ∈ st.windowPixmaps
          ↔ win ∈ windows ∧ win ∈ st.windowPixmaps := by
        grind
      have hnothing : (flushWindow tick last w).2 = [] := by
        simp only [flushWindow, hw]
      simp only [hnothing, filterMap_nil, append_nil, ih, hmem]
    | some pixmap =>
      have hin : w ∈ st.windowPixmaps := by
        rw [← hpixmaps, mem_iff_isSome_getElem?, hw]
        rfl
      have hsurface : (flushWindow tick last w).2
          = [⟨pixmap, Canon.surface, last.payload tick w pixmap⟩] := by
        simp only [flushWindow, hw]
      rw [hsurface, filterMap_cons, filterMap_nil, shownText_payload]
      by_cases hwin : w = win
      · subst hwin
        simp [hin, hbuffers]
      · simp only [if_neg hwin, append_nil, ih, mem_append, mem_singleton,
          Ne.symm hwin, or_false]

/-- A flush shows the text of the windows that it publishes. -/
lemma shownText_flush (win : Uuid) : ((st.flush tick).2.filterMap (shownText win)).getLast?
      = if st.Shown win then some (st.buffers[win]?.getD "") else none := by
  refine (shownText_flushWindows st tick st.updates win).trans ?_
  simp only [mem_updates, AppState.Shown, and_comm]

end

lemma textOf_tick (env : SurfaceEnv) (σ : TextPipeline) (input : ℕ × List AppCall) (win : Uuid) :
    textOf (σ.tick env input).windows win
      = if (callAll { σ.app with buffers := ∅ } input.2).Shown win then
          (producedText win input.2).getD ""
        else textOf σ.windows win := by
  have hdeclared : (σ.app.tick input.1 input.2).2
      = declarations { σ.app with buffers := ∅ } input.2
        ++ ((callAll { σ.app with buffers := ∅ } input.2).flush input.1).2 := rfl
  refine (textOf_ingestThings σ.store (σ.app.tick input.1 input.2).2 win).trans ?_
  rw [hdeclared, filterMap_append, shownText_declarations, nil_append,
    shownText_flush, buffers_callAll rfl]
  split <;> rfl

end Publish

/-! ## Persistence -/

/-- Every call that names the window comes after the one that created it: an app has the handle of a
window from `create_window` alone. -/
def Handled (win : Uuid) (calls : List AppCall) : Prop :=
  ∀ pre c post, calls = pre ++ c :: post → c.window = some win →
    win ∈ (new.callAll pre).windowPixmaps

/-- The tick draws the window, or there is no text to keep, or it is not the first tick and nothing
makes it publish the window: no property was ever set and no bitmap is drawn. -/
def KeepsText (win : Uuid) (init : List AppCall) (earlier : List (List AppCall))
    (calls : List AppCall) : Prop :=
  producedText win calls ≠ none ∨ expectedText win init earlier = ""
    ∨ (earlier ≠ [] ∧ (∀ c ∈ init ++ earlier.flatten ++ calls, ¬ c.SetsProps win)
      ∧ ∀ c ∈ calls, ¬ c.DrawsBitmap win)

section Persistence

variable {env} {win : Uuid} {init calls : List AppCall} {s : InMemoryGraphStore} {windows : Windows}

lemma expectedText_concat (win : Uuid) (init : List AppCall) (ticks : List (List AppCall))
    (calls : List AppCall) :
    expectedText win init (ticks ++ [calls])
      = (producedText win calls).getD (expectedText win init ticks) := by
  rw [expectedText, expectedText, ← cons_append, filterMap_append]
  generalize (init :: ticks).filterMap (producedText win) = texts
  cases hcalls : producedText win calls with
  | some text => simp [hcalls]
  | none => simp [hcalls]

lemma producedText_eq_none (h : ∀ c ∈ calls, c.window ≠ some win) :
    producedText win calls = none := by
  induction calls using List.reverseRecOn with
  | nil => rfl
  | append_singleton calls c ih =>
    have hlast := ih fun d hd => h d (mem_append_left _ hd)
    have hc := h c (by simp)
    rw [producedText] at hlast
    rw [producedText, foldl_append, hlast]
    cases c with
    | clearWindow w | drawText w text =>
      rw [AppCall.window, Ne, Option.some_inj] at hc
      simp [AppCall.produce, hc]
    | _ => rfl

lemma Handled.created {past : List AppCall} (h : Handled win (past ++ calls)) {c : AppCall}
    (hc : c ∈ calls) (hwindow : c.window = some win) :
    win ∈ (new.callAll (past ++ calls)).windowPixmaps := by
  obtain ⟨pre, post, rfl⟩ := append_of_mem hc
  have hpre := h (past ++ pre) c post (by simp) hwindow
  rw [← append_assoc, callAll_append]
  exact windowPixmaps_callAll_mono _ hpre

lemma Handled.of_append {past : List AppCall} (h : Handled win (past ++ calls)) :
    Handled win past := by
  rintro pre c post rfl hwindow
  exact h pre c (post ++ calls) (by simp) hwindow

/-- All calls after the one that creates the window are fine. -/
lemma Handled.of_created {c : AppCall} (hc : c.window = none)
    (hcreated : win ∈ (new.call c).1.windowPixmaps) : Handled win (c :: calls) := by
  intro pre d post heq hwindow
  cases pre with
  | nil =>
    obtain ⟨rfl, -⟩ := List.cons.inj heq
    cases hc.symm.trans hwindow
  | cons first pre =>
    obtain ⟨rfl, -⟩ := List.cons.inj heq
    exact windowPixmaps_callAll_mono pre hcreated

lemma window_of_drawsBitmap {c : AppCall} (h : c.DrawsBitmap win) : c.window = some win := by
  cases c with
  | drawBitmap w data => exact congrArg some h
  | _ => cases h

lemma window_of_setsProps {c : AppCall} (h : c.SetsProps win) : c.window = some win := by
  cases c with
  | setFontMono w b | setTextColor w b | setBgColor w b => exact congrArg some h
  | _ => cases h

/-- What is known of the app between two ticks: its windows and their properties come from the calls
so far, and a bitmap waits only before the first tick. -/
structure Known (win : Uuid) (init : List AppCall) (earlier : List (List AppCall))
    (app : AppState) : Prop where
  pixmaps : app.windowPixmaps = (new.callAll (init ++ earlier.flatten)).windowPixmaps
  counter : app.windowCounter = (new.callAll (init ++ earlier.flatten)).windowCounter
  props : win ∈ app.windowProps ↔ ∃ c ∈ init ++ earlier.flatten, c.SetsProps win
  bitmaps : win ∈ app.bitmaps → earlier = [] ∧ win ∈ app.windowPixmaps

lemma Known.start (h : Handled win init) :
    Known win init [] (TextPipeline.start s windows init).app where
  pixmaps := by simp [TextPipeline.start]
  counter := by simp [TextPipeline.start]
  props := by
    simp only [TextPipeline.start, windowProps_callAll, flatten_nil, append_nil]
    simp [new]
  bitmaps hmem := by
    refine ⟨rfl, ?_⟩
    rcases (bitmaps_callAll _ _ _).mp hmem with hmem | ⟨c, hc, hdraws⟩
    · simp [new] at hmem
    · exact (show Handled win ([] ++ init) from h).created hc (window_of_drawsBitmap hdraws)

variable {earlier : List (List AppCall)} {app : AppState}

lemma Known.pixmaps_callAll (h : Known win init earlier app) (calls : List AppCall) :
    (callAll { app with buffers := ∅ } calls).windowPixmaps
        = (new.callAll (init ++ earlier.flatten ++ calls)).windowPixmaps
      ∧ (callAll { app with buffers := ∅ } calls).windowCounter
        = (new.callAll (init ++ earlier.flatten ++ calls)).windowCounter := by
  rw [callAll_append]
  refine windowPixmaps_callAll_congr ?_ ?_ calls
  · exact h.pixmaps
  · exact h.counter

lemma Known.tick (h : Known win init earlier app)
    (hhandled : Handled win (init ++ earlier.flatten ++ calls)) (number : ℕ) :
    Known win init (earlier ++ [calls]) (app.tick number calls).1 := by
  have hhistory : init ++ (earlier ++ [calls]).flatten = init ++ earlier.flatten ++ calls := by
    simp
  obtain ⟨hpixmaps, hcounter⟩ := h.pixmaps_callAll calls
  constructor
  · rw [hhistory, ← hpixmaps]
    exact flush_windowPixmaps _ number
  · rw [hhistory, ← hcounter]
    exact flush_windowCounter _ number
  · have hprops : (app.tick number calls).1.windowProps
        = (callAll { app with buffers := ∅ } calls).windowProps :=
      flush_windowProps _ number
    rw [hprops, windowProps_callAll, h.props, hhistory]
    simp only [mem_append, or_and_right, exists_or]
  · intro hmem
    obtain ⟨hbefore, hnot⟩ := (bitmaps_flush _ number win).mp hmem
    exfalso
    apply hnot
    rcases (bitmaps_callAll _ _ _).mp hbefore with hold | ⟨c, hc, hdraws⟩
    · exact windowPixmaps_callAll_mono calls (h.bitmaps hold).2
    · rw [hpixmaps]
      exact hhandled.created hc (window_of_drawsBitmap hdraws)

/-- A tick shows the window if it draws to it, if a property was ever set, or if a bitmap waits. -/
lemma Known.shown_iff (h : Known win init earlier app)
    (hhandled : Handled win (init ++ earlier.flatten ++ calls)) :
    (callAll { app with buffers := ∅ } calls).Shown win
      ↔ producedText win calls ≠ none ∨ (win ∈ app.bitmaps ∨ ∃ c ∈ calls, c.DrawsBitmap win)
        ∨ ∃ c ∈ init ++ earlier.flatten ++ calls, c.SetsProps win := by
  have hbuffers : win ∈ (callAll { app with buffers := ∅ } calls).buffers
      ↔ producedText win calls ≠ none := by
    rw [mem_iff_isSome_getElem?, buffers_callAll rfl,
      isSome_iff_ne_none]
  have hprops : win ∈ (callAll { app with buffers := ∅ } calls).windowProps
      ↔ ∃ c ∈ init ++ earlier.flatten ++ calls, c.SetsProps win := by
    rw [windowProps_callAll, h.props]
    simp only [mem_append, or_and_right, exists_or]
  rw [AppState.Shown, hbuffers, bitmaps_callAll, hprops, (h.pixmaps_callAll calls).1]
  refine and_iff_right_of_imp ?_
  -- whatever there is to show, the window has been created before
  rintro (htext | (hold | ⟨c, hc, hdraws⟩) | ⟨c, hc, hsets⟩)
  · by_contra hnot
    exact htext (producedText_eq_none fun c hc hwindow => hnot (hhandled.created hc hwindow))
  · rw [← (h.pixmaps_callAll calls).1]
    exact windowPixmaps_callAll_mono calls (h.bitmaps hold).2
  · exact hhandled.created hc (window_of_drawsBitmap hdraws)
  · have hall : Handled win ([] ++ (init ++ earlier.flatten ++ calls)) := hhandled
    exact hall.created hc (window_of_setsProps hsets)

/-- The text after a tick is the expected one exactly when the tick keeps it, if it was so before or
the tick is the first. -/
lemma textOf_tick_iff {σ : TextPipeline} (h : Known win init earlier σ.app)
    (hhandled : Handled win (init ++ earlier.flatten ++ calls)) (number : ℕ)
    (hfirst : earlier = [] → textOf σ.windows win = "")
    (hlater : earlier ≠ [] → textOf σ.windows win = expectedText win init earlier) :
    textOf (σ.tick env (number, calls)).windows win = expectedText win init (earlier ++ [calls])
      ↔ KeepsText win init earlier calls := by
  have hshown := h.shown_iff hhandled
  rw [textOf_tick, expectedText_concat, KeepsText]
  cases htext : producedText win calls with
  | some text =>
    rw [if_pos (hshown.mpr (.inl (by simp [htext])))]
    simp
  | none =>
    simp only [ne_eq, not_true_eq_false, false_or, getD_none]
    by_cases hearlier : earlier = []
    · grind
    · have hwaits : win ∉ σ.app.bitmaps := fun hmem => hearlier (h.bitmaps hmem).1
      simp only [htext, ne_eq, not_true_eq_false, hwaits, false_or] at hshown
      rw [hlater hearlier]
      split
      · grind
      · rename_i hneg
        rw [hshown] at hneg
        push Not at hneg
        exact iff_of_true rfl (.inr ⟨hearlier, hneg.2, hneg.1⟩)

/-- What holds at every position of a list with one more item holds at every position of the list
and at the last. -/
lemma forall_split_concat {α : Type*} {P : List α → α → Prop} {xs : List α} {x : α} :
    (∀ pre i post, xs ++ [x] = pre ++ i :: post → P pre i)
      ↔ (∀ pre i post, xs = pre ++ i :: post → P pre i) ∧ P xs x := by
  constructor
  · intro h
    refine ⟨?_, h xs x [] rfl⟩
    rintro pre i post rfl
    exact h pre i (post ++ [x]) (by simp)
  · rintro ⟨h, hlast⟩ pre i post heq
    rcases eq_nil_or_concat post with rfl | ⟨post, last, rfl⟩
    · obtain ⟨rfl, hi⟩ := append_inj' heq rfl
      obtain rfl := singleton_inj.mp hi
      exact hlast
    · rw [concat_eq_append, ← cons_append, ← append_assoc] at heq
      exact h pre i post (append_inj' heq rfl).1

/-- After every tick the compositor has the text of the most recent `init` or tick that cleared the
window or drew to it, exactly when every tick keeps the text. -/
theorem text_persists_iff (env : SurfaceEnv) (s : InMemoryGraphStore) (windows : Windows)
    (win : Uuid) (init : List AppCall) (ticks : List (ℕ × List AppCall))
    (hhandled : Handled win (init ++ (ticks.map Prod.snd).flatten))
    (hempty : textOf windows win = "") :
    (∀ pre tick post, ticks = pre ++ tick :: post →
        textOf (run (TextPipeline.tick env) (TextPipeline.start s windows init)
          (pre ++ [tick])).windows win
          = expectedText win init ((pre ++ [tick]).map Prod.snd))
      ↔ ∀ pre tick post, ticks = pre ++ tick :: post →
        KeepsText win init (pre.map Prod.snd) tick.2 := by
  have hknown : ∀ pre post, ticks = pre ++ post → Known win init (pre.map Prod.snd)
      (run (TextPipeline.tick env) (TextPipeline.start s windows init) pre).app := by
    intro pre
    induction pre using List.reverseRecOn with
    | nil =>
      intro post _
      exact Known.start (Handled.of_append hhandled)
    | append_singleton pre tick ih =>
      rintro post rfl
      rw [run_concat, map_append]
      have hall : Handled win (init ++ (pre.map Prod.snd).flatten ++ tick.2
          ++ (post.map Prod.snd).flatten) := by
        simpa using hhandled
      exact (ih (tick :: post) (by simp)).tick hall.of_append tick.1
  induction ticks using List.reverseRecOn with
  | nil => simp
  | append_singleton ticks tick ih =>
    have hsplit : Handled win (init ++ (ticks.map Prod.snd).flatten ++ tick.2) := by
      simpa using hhandled
    have ih := ih (Handled.of_append hsplit)
      fun pre post heq => hknown pre (post ++ [tick]) (by simp [heq])
    refine (forall_split_concat (P := fun pre tick => textOf (run (TextPipeline.tick env)
      (TextPipeline.start s windows init) (pre ++ [tick])).windows win
        = expectedText win init ((pre ++ [tick]).map Prod.snd))).trans (Iff.trans ?_
      (forall_split_concat (P := fun pre tick =>
        KeepsText win init (pre.map Prod.snd) tick.2)).symm)
    refine (and_congr_left' ih).trans (and_congr_right fun hkeeps => ?_)
    rw [run_concat, map_append]
    refine textOf_tick_iff (hknown ticks [tick] rfl) hsplit tick.1 ?_ ?_
    · intro hnil
      obtain rfl := map_eq_nil_iff.mp hnil
      exact hempty
    · intro hne
      obtain ⟨pre, last, rfl⟩ := (eq_nil_or_concat ticks).resolve_left
        fun hnil => hne (by rw [hnil]; rfl)
      have htexts := ih.mpr hkeeps
      rw [concat_eq_append] at htexts ⊢
      exact htexts pre last [] (by simp)

end Persistence

/-- A compositor without fonts and bitmaps. -/
def plainEnv : SurfaceEnv where
  titleBarId id := id
  closeButtonId id := id
  decodeBmp _ := none
  metrics _ := none

/-- The first window that an app opens under the title `a`. -/
def windowA : Uuid := simpleUuid (windowName "a" 0)

def openA : AppCall := .createWindow ⟨"a", 0, 0, ∅⟩

theorem text_persists_iff_openA :
    textOf (run (TextPipeline.tick plainEnv) (TextPipeline.start .new ∅ [openA])
      [(1, [.drawText windowA "hi"]), (2, [])]).windows windowA = "hi" := by
  refine ((text_persists_iff plainEnv .new ∅ windowA [openA]
    [(1, [.drawText windowA "hi"]), (2, [])] ?_ rfl).mpr ?_ [(1, [.drawText windowA "hi"])] (2, [])
    [] rfl).trans ?_
  · exact Handled.of_created rfl (by decide +kernel)
  · intro pre tick post heq
    rcases pre with _ | ⟨first, _ | ⟨second, pre⟩⟩
    · obtain ⟨rfl, -⟩ := List.cons.inj heq
      exact .inl (by decide +kernel)
    · obtain ⟨rfl, hrest⟩ := List.cons.inj heq
      obtain ⟨rfl, -⟩ := List.cons.inj hrest
      exact .inr (.inr ⟨by simp, by simp [openA, AppCall.SetsProps], by simp⟩)
    · simp at heq
  · decide +kernel

/-- The text goes when the app once made the window's font mono and draws nothing in a tick; a text
drawn in `init` never comes. -/
theorem text_lost : (textOf (run (TextPipeline.tick plainEnv)
        (TextPipeline.start .new ∅ [openA, .setFontMono windowA true])
        [(1, [.drawText windowA "hi"]), (2, [])]).windows windowA = ""
      ∧ expectedText windowA [openA, .setFontMono windowA true] [[.drawText windowA "hi"], []]
        = "hi")
    ∧ (textOf (run (TextPipeline.tick plainEnv)
        (TextPipeline.start .new ∅ [openA, .drawText windowA "hi"]) [(1, [])]).windows windowA = ""
      ∧ expectedText windowA [openA, .drawText windowA "hi"] [[]] = "hi") := by
  decide +kernel

end ThingOS.Compositor
