import ThingOS.Common.Run

/-!
# Resizing the host's framebuffer

`request_resize`, `check_and_apply_resize`, `get_size` and `get_framebuffer_bytes` of
`thing_host/src/lib.rs`, and the loop in `compositor/src/main.rs` that sends frames to a page. The
requested and the current size are two atomics each, and a page takes the bytes of a frame under the
lock and the size of it without.

Any number of threads make any of the calls. Every load and store of an atomic is a step, and so is
every access to the framebuffer under its lock. Of the framebuffer only the length is kept. Sizes
are words of 64 bits; pages ask for them, and are told of them, in words of 32 bits.
-/

namespace ThingOS.Host

/-- How far a thread is in its call. -/
inductive ResizePhase where
  | idle
  /-- `request_resize` has stored the width. -/
  | requesting (width height : ℕ)
  /-- `check_and_apply_resize` has loaded the requested width, then both, then the current width. -/
  | checking (rw : ℕ)
  | checkingBoth (rw rh : ℕ)
  | comparing (rw rh cw : ℕ)
  /-- The sizes differ, and the lock is to be taken. -/
  | waiting
  | locked
  | reloadedWidth (rw : ℕ)
  | reloaded (rw rh : ℕ)
  | resized (rw rh : ℕ)
  | widthStored (rw rh : ℕ)
  | heightStored
  /-- A page has the bytes, then the width. -/
  | sending (bytes : ℕ)
  | sendingWidth (bytes width : ℕ)
deriving DecidableEq

namespace ResizePhase

@[simp] def Holds : ResizePhase → Prop
  | .locked | .reloadedWidth _ | .reloaded _ _ | .resized _ _ | .widthStored _ _
  | .heightStored => True
  | _ => False

/-- The framebuffer has its new length and the size is not yet stored. -/
@[simp] def Applying : ResizePhase → Prop
  | .resized _ _ | .widthStored _ _ => True
  | _ => False

/-- A page has taken the bytes and not yet the height. -/
@[simp] def Sends : ResizePhase → Prop
  | .sending _ | .sendingWidth _ _ => True
  | _ => False

/-- The sizes fit into the words of a message. -/
def Small : ResizePhase → Prop
  | .requesting w h | .reloaded w h | .resized w h | .widthStored w h => w < 2 ^ 32 ∧ h < 2 ^ 32
  | .reloadedWidth w | .sendingWidth _ w => w < 2 ^ 32
  | _ => True

lemma Applying.holds {phase : ResizePhase} (happlying : phase.Applying) : phase.Holds := by
  cases phase <;> trivial

end ResizePhase

/-- What is sent to a page, with the number of its bytes for pixels. -/
structure FrameMessage where
  width : BitVec 32
  height : BitVec 32
  bytes : ℕ
deriving DecidableEq

structure ResizeState where
  width : ℕ
  height : ℕ
  reqWidth : ℕ
  reqHeight : ℕ
  framebuffer : ℕ
  /-- The thread that has the framebuffer locked. -/
  lock : Option ℕ
  phase : ℕ → ResizePhase
  /-- Ghost: the sizes requested. -/
  requested : List (ℕ × ℕ)
  /-- Ghost: the sizes applied. -/
  applied : List (ℕ × ℕ)
  sent : List FrameMessage

/-- A thread begins a call or goes on with one. -/
inductive ResizeAction where
  | request (width height : BitVec 64)
  | check
  | send
  | resume

variable {i : ℕ × ResizeAction}

namespace ResizeState

def new : ResizeState where
  width := 1024
  height := 768
  reqWidth := 1024
  reqHeight := 768
  framebuffer := 1024 * 768
  lock := none
  phase _ := .idle
  requested := []
  applied := []
  sent := []

variable (σ : ResizeState)

def enter (thread : ℕ) (phase : ResizePhase) : ResizeState :=
  { σ with phase := Function.update σ.phase thread phase }

/-- The next step of a call. A thread that waits for the lock stays where it is. -/
def advance (thread : ℕ) : ResizeState :=
  match σ.phase thread with
  | .idle => σ
  | .requesting _ height => { σ.enter thread .idle with reqHeight := height }
  | .checking rw => σ.enter thread (.checkingBoth rw σ.reqHeight)
  | .checkingBoth rw rh => σ.enter thread (.comparing rw rh σ.width)
  | .comparing rw rh cw =>
    σ.enter thread (if rw ≠ cw ∨ rh ≠ σ.height then .waiting else .idle)
  | .waiting => if σ.lock = none then { σ.enter thread .locked with lock := some thread } else σ
  | .locked => σ.enter thread (.reloadedWidth σ.reqWidth)
  | .reloadedWidth rw => σ.enter thread (.reloaded rw σ.reqHeight)
  | .reloaded rw rh =>
    { σ.enter thread (.resized rw rh) with
      framebuffer := rw * rh % 2 ^ 64
      applied := σ.applied ++ [(rw, rh)] }
  | .resized rw rh => { σ.enter thread (.widthStored rw rh) with width := rw }
  | .widthStored _ rh => { σ.enter thread .heightStored with height := rh }
  | .heightStored => { σ.enter thread .idle with lock := none }
  | .sending bytes => σ.enter thread (.sendingWidth bytes σ.width)
  | .sendingWidth bytes width =>
    { σ.enter thread .idle with
      sent := σ.sent ++ [⟨BitVec.ofNat 32 width, BitVec.ofNat 32 σ.height, bytes⟩] }

/-- One step of a thread. A thread in the middle of a call begins no other. -/
def step (i : ℕ × ResizeAction) : ResizeState :=
  match i.2 with
  | .resume => σ.advance i.1
  | .request width height =>
    if σ.phase i.1 = .idle then
      { σ.enter i.1 (.requesting width.toNat height.toNat) with
        reqWidth := width.toNat
        requested := σ.requested ++ [(width.toNat, height.toNat)] }
    else σ
  | .check => if σ.phase i.1 = .idle then σ.enter i.1 (.checking σ.reqWidth) else σ
  | .send =>
    if σ.phase i.1 = .idle ∧ σ.lock = none then σ.enter i.1 (.sending (4 * σ.framebuffer)) else σ

/-! ## The condition -/

/-- No request is between its two stores. -/
def Calm : Prop := ∀ thread w h, σ.phase thread ≠ .requesting w h

/-- No thread is between its two loads of the requested size under the lock. -/
def Unread : Prop := ∀ thread rw, σ.phase thread ≠ .reloadedWidth rw

/-- No page is between taking the bytes and loading the height. -/
def Unsent : Prop := ∀ thread, ¬ (σ.phase thread).Sends

/-- Requests are made one at a time, not between the two loads under the lock, and of sizes that a
message can hold; the first of these loads is made while no request is between its stores; and the
framebuffer is resized while no page is between taking the bytes and loading the size. -/
def Apart (i : ℕ × ResizeAction) : Prop :=
  match i.2 with
  | .request width height =>
    σ.Calm ∧ σ.Unread ∧ width.toNat < 2 ^ 32 ∧ height.toNat < 2 ^ 32
  | .resume =>
    (σ.phase i.1 = .locked → σ.Calm) ∧ ∀ rw rh, σ.phase i.1 = .reloaded rw rh → σ.Unsent
  | .check | .send => True

variable {σ : ResizeState} {thread : ℕ} {phase : ResizePhase}

lemma phase_enter_self : (σ.enter thread phase).phase thread = phase := Function.update_self ..

/-- What holds of the phase entered and of the other threads' phases holds of every thread's. -/
lemma forall_enter {P : ℕ → ResizePhase → Prop} (hself : P thread phase)
    (hothers : ∀ other, other ≠ thread → P other (σ.phase other)) (other : ℕ) :
    P other ((σ.enter thread phase).phase other) :=
  (Function.forall_update_iff σ.phase P).mpr ⟨hself, hothers⟩ other

/-- A property of phases that a thread has neither before a step nor after it. -/
lemma forall_enter_iff {P : ResizePhase → Prop} (hold : P (σ.phase thread)) (hnew : P phase) :
    (∀ other, P ((σ.enter thread phase).phase other)) ↔ ∀ other, P (σ.phase other) := by
  refine (Function.forall_update_iff σ.phase fun _ => P).trans ⟨fun h other => ?_, fun h => ?_⟩
  · by_cases hne : other = thread
    · exact hne ▸ hold
    · exact h.2 other hne
  · exact ⟨hnew, fun other _ => h other⟩

/-! ## Requests -/

/-- The size was requested in one call, or is the first one. -/
def Known (σ : ResizeState) (size : ℕ × ℕ) : Prop := size = (1024, 768) ∨ size ∈ σ.requested

/-- What a thread knows of the requested size. -/
def Asked (σ : ResizeState) : ResizePhase → Prop
  | .requesting w h => σ.reqWidth = w ∧ σ.Known (w, h)
  | .reloadedWidth rw => σ.Calm ∧ σ.reqWidth = rw
  | .reloaded rw rh => σ.Known (rw, rh)
  | _ => True

structure Requests (σ : ResizeState) : Prop where
  calm : σ.Calm → σ.Known (σ.reqWidth, σ.reqHeight)
  asked : ∀ thread, σ.Asked (σ.phase thread)
  applied : ∀ size ∈ σ.applied, σ.Known size

namespace Requests

section

variable (hσ : σ.Requests)
include hσ

lemma asked_of_phase (hphase : σ.phase thread = phase) : σ.Asked phase :=
  hphase ▸ hσ.asked thread

/-- A step that leaves the requested size alone, whatever it does to the rest. -/
lemma enter {width height framebuffer : ℕ} {lock : Option ℕ} {sent : List FrameMessage}
    (hold : ∀ w h, σ.phase thread ≠ .requesting w h) (hnew : ∀ w h, phase ≠ .requesting w h)
    (hphase : σ.Asked phase) : ({ σ.enter thread phase with
      width, height, framebuffer, lock, sent } : ResizeState).Requests := by
  have hcalm : (σ.enter thread phase).Calm ↔ σ.Calm :=
    forall_enter_iff (P := fun p => ∀ w h, p ≠ .requesting w h) hold hnew
  have hasked {p : ResizePhase} (hp : σ.Asked p) : ({ σ.enter thread phase with
      width, height, framebuffer, lock, sent } : ResizeState).Asked p := by
    cases p with
    | reloadedWidth rw_ => exact ⟨hcalm.mpr hp.1, hp.2⟩
    | _ => exact hp
  exact {
    calm h := hσ.calm (hcalm.mp h)
    asked := forall_enter (hasked hphase) fun other _ => hasked (hσ.asked other)
    applied := hσ.applied }

lemma finish {w h : ℕ} (hphase : σ.phase thread = .requesting w h) :
    ({ σ.enter thread .idle with reqHeight := h } : ResizeState).Requests where
  calm _ := by
    obtain ⟨hw, hknown⟩ := hσ.asked_of_phase hphase
    exact hw ▸ hknown
  applied := hσ.applied
  asked := by
    refine forall_enter trivial fun other _ => ?_
    have hother := hσ.asked other
    cases hp : σ.phase other with
    | reloadedWidth rw_ =>
      -- the width was loaded while no request was between its stores
      rw [hp] at hother
      exact absurd hphase (hother.1 thread w h)
    | requesting | reloaded => rwa [hp] at hother
    | _ => trivial

lemma request (hcalm : σ.Calm) (hunread : σ.Unread) (w h : ℕ) :
    ({ σ.enter thread (.requesting w h) with
      reqWidth := w
      requested := σ.requested ++ [(w, h)] } : ResizeState).Requests where
  calm hnew := absurd phase_enter_self (hnew thread w h)
  applied size hsize := (hσ.applied size hsize).imp_right (List.mem_append_left _)
  asked := by
    refine forall_enter ⟨rfl, .inr (List.mem_append_right _ (List.mem_singleton_self _))⟩
      fun other _ => ?_
    have hother := hσ.asked other
    cases hp : σ.phase other with
    | requesting w' h' => exact absurd hp (hcalm other w' h')
    | reloadedWidth rw_ => exact absurd hp (hunread other rw_)
    | reloaded rw_ rh =>
      rw [hp] at hother
      exact hother.imp_right (List.mem_append_left _)
    | _ => trivial

lemma advance (hi : σ.Apart (thread, .resume)) :
    (σ.advance thread).Requests := by
  obtain ⟨hlocked, -⟩ := hi
  unfold ResizeState.advance
  cases hphase : σ.phase thread with
  | idle => exact hσ
  | requesting w h => exact hσ.finish hphase
  | locked => exact hσ.enter (by simp [hphase]) (by simp) ⟨hlocked hphase, rfl⟩
  | reloadedWidth rw_ =>
    obtain ⟨hcalm, rfl⟩ := hσ.asked_of_phase hphase
    exact hσ.enter (by simp [hphase]) (by simp) (hσ.calm hcalm)
  | reloaded rw_ rh =>
    have hknown : σ.Known (rw_, rh) := hσ.asked_of_phase hphase
    have hnext : (σ.enter thread (.resized rw_ rh)).Requests :=
      hσ.enter (by simp [hphase]) (by simp) trivial
    exact ⟨hnext.calm, hnext.asked, forall_mem_concat.mpr ⟨hσ.applied, hknown⟩⟩
  | waiting =>
    dsimp only
    split
    · exact hσ.enter (by simp [hphase]) (by simp) trivial
    · exact hσ
  | comparing rw_ rh cw =>
    dsimp only
    split <;> exact hσ.enter (by simp [hphase]) (by simp) trivial
  | _ => exact hσ.enter (by simp [hphase]) (by simp) trivial

lemma step (hi : σ.Apart i) : (σ.step i).Requests := by
  obtain ⟨thread, action⟩ := i
  cases action with
  | resume => exact hσ.advance hi
  | request w h =>
    simp only [ResizeState.step]
    split
    · exact hσ.request hi.1 hi.2.1 _ _
    · exact hσ
  | check | send =>
    simp only [ResizeState.step]
    split
    · exact hσ.enter (by simp_all) (by simp) trivial
    · exact hσ

end

lemma new : new.Requests where
  calm _ := .inl rfl
  asked _ := trivial
  applied _ hsize := by cases hsize

end Requests

/-! ## Sizes that a message can hold -/

structure Small (σ : ResizeState) : Prop where
  width : σ.width < 2 ^ 32
  height : σ.height < 2 ^ 32
  reqWidth : σ.reqWidth < 2 ^ 32
  reqHeight : σ.reqHeight < 2 ^ 32
  phase : ∀ thread, (σ.phase thread).Small

namespace Small

lemma of_phase (hσ : σ.Small) (hphase : σ.phase thread = phase) : phase.Small :=
  hphase ▸ hσ.phase thread

lemma phases (hσ : σ.Small) (hphase : phase.Small) (other : ℕ) :
    ((σ.enter thread phase).phase other).Small :=
  forall_enter (P := fun _ => ResizePhase.Small) hphase (fun other _ => hσ.phase other) other

lemma advance (hσ : σ.Small) : (σ.advance thread).Small := by
  unfold ResizeState.advance
  cases hphase : σ.phase thread with
  | idle => exact hσ
  | requesting w h =>
    have hsize := hσ.of_phase hphase
    exact { hσ with phase := hσ.phases trivial, reqHeight := hsize.2 }
  | locked => exact { hσ with phase := hσ.phases hσ.reqWidth }
  | reloadedWidth rw_ =>
    exact { hσ with phase := hσ.phases ⟨hσ.of_phase hphase, hσ.reqHeight⟩ }
  | reloaded rw_ rh =>
    have hsize := hσ.of_phase hphase
    exact { hσ with phase := hσ.phases hsize }
  | resized rw_ rh =>
    have hsize := hσ.of_phase hphase
    exact { hσ with phase := hσ.phases hsize, width := hsize.1 }
  | widthStored rw_ rh =>
    have hsize := hσ.of_phase hphase
    exact { hσ with phase := hσ.phases trivial, height := hsize.2 }
  | sending bytes => exact { hσ with phase := hσ.phases hσ.width }
  | waiting =>
    dsimp only
    split
    · exact { hσ with phase := hσ.phases trivial }
    · exact hσ
  | comparing rw_ rh cw =>
    dsimp only
    split <;> exact { hσ with phase := hσ.phases trivial }
  | heightStored | sendingWidth | checking | checkingBoth =>
    exact { hσ with phase := hσ.phases trivial }

lemma step (hσ : σ.Small) (hi : σ.Apart i) : (σ.step i).Small := by
  obtain ⟨thread, action⟩ := i
  cases action with
  | resume => exact hσ.advance
  | request w h =>
    simp only [ResizeState.step]
    split
    · obtain ⟨-, -, hsize⟩ := hi
      exact { hσ with phase := hσ.phases hsize, reqWidth := hsize.1 }
    · exact hσ
  | check | send =>
    simp only [ResizeState.step]
    split
    · exact { hσ with phase := hσ.phases trivial }
    · exact hσ

lemma new : new.Small where
  width := by decide
  height := by decide
  reqWidth := by decide
  reqHeight := by decide
  phase _ := trivial

end Small

/-! ## Frames -/

/-- The length of the framebuffer and the current size are those of one resize. -/
def Still (σ : ResizeState) : Prop := ∀ thread, ¬ (σ.phase thread).Applying

/-- What a thread knows of the framebuffer and the current size. -/
def InFrame (σ : ResizeState) : ResizePhase → Prop
  | .resized rw rh => σ.framebuffer = rw * rh
  | .widthStored rw rh => σ.framebuffer = rw * rh ∧ σ.width = rw
  | .sending bytes => σ.Still ∧ bytes = 4 * (σ.width * σ.height)
  | .sendingWidth bytes w => σ.Still ∧ bytes = 4 * (w * σ.height)
  | _ => True

structure Frames (σ : ResizeState) : Prop where
  lock : ∀ thread, (σ.phase thread).Holds → σ.lock = some thread
  still : σ.Still → σ.framebuffer = σ.width * σ.height
  inFrame : ∀ thread, σ.InFrame (σ.phase thread)
  sent : ∀ m ∈ σ.sent, m.bytes = 4 * (m.width.toNat * m.height.toNat)

namespace Frames

section

variable (hσ : σ.Frames)
include hσ

lemma inFrame_of_phase (hphase : σ.phase thread = phase) : σ.InFrame phase :=
  hphase ▸ hσ.inFrame thread

lemma alone (hholds : (σ.phase thread).Holds) {other : ℕ}
    (hne : other ≠ thread) : ¬ (σ.phase other).Holds := by
  intro hother
  have hlock : some other = some thread := (hσ.lock other hother).symm.trans (hσ.lock thread hholds)
  exact hne (Option.some.inj hlock)

lemma not_holds_of_free (hfree : σ.lock = none) (other : ℕ) :
    ¬ (σ.phase other).Holds := by
  intro hother
  have hlock := hσ.lock other hother
  rw [hfree] at hlock
  cases hlock

/-- A step outside of storing a size, which may take the lock or give it back. -/
lemma enter (lock : Option ℕ) {reqWidth reqHeight : ℕ} {requested : List (ℕ × ℕ)}
    (hold : ¬ (σ.phase thread).Applying) (hnew : ¬ phase.Applying)
    (hlock : ∀ other, ((σ.enter thread phase).phase other).Holds → lock = some other)
    (hphase : σ.InFrame phase) : ({ σ.enter thread phase with
      lock, reqWidth, reqHeight, requested } : ResizeState).Frames := by
  have hstill : (σ.enter thread phase).Still ↔ σ.Still :=
    forall_enter_iff (P := fun p => ¬ p.Applying) hold hnew
  have hframe {p : ResizePhase} (hp : σ.InFrame p) : ({ σ.enter thread phase with
      lock, reqWidth, reqHeight, requested } : ResizeState).InFrame p := by
    cases p with
    | sending | sendingWidth => exact ⟨hstill.mpr hp.1, hp.2⟩
    | _ => exact hp
  exact {
    lock := hlock
    still h := hσ.still (hstill.mp h)
    inFrame := forall_enter (hframe hphase) fun other _ => hframe (hσ.inFrame other)
    sent := hσ.sent }

/-- A step of the thread that has the lock, while no page is about to load the size. -/
lemma store (thread : ℕ) (phase : ResizePhase) (hold : (σ.phase thread).Holds)
    (hunsent : σ.Unsent) {σ' : ResizeState} (hphases : σ'.phase = (σ.enter thread phase).phase)
    (hlock : σ'.lock = σ.lock) (hsent : σ'.sent = σ.sent) (hphase : σ'.InFrame phase)
    (hsize : ¬ phase.Applying → σ'.framebuffer = σ'.width * σ'.height) : σ'.Frames where
  lock := by
    rw [hphases, hlock]
    exact forall_enter (P := fun other p => p.Holds → σ.lock = some other)
      (fun _ => hσ.lock thread hold) fun other _ => hσ.lock other
  still h := by
    have hthread := h thread
    rw [hphases, phase_enter_self] at hthread
    exact hsize hthread
  inFrame := by
    rw [hphases]
    refine forall_enter hphase fun other hne => ?_
    -- the others neither hold the lock nor send, and know nothing of the size
    have hothers := hσ.alone hold hne
    have hsends := hunsent other
    cases hp : σ.phase other with
    | resized | widthStored => exact absurd (hp ▸ trivial) hothers
    | sending | sendingWidth => exact absurd (hp ▸ trivial) hsends
    | _ => trivial
  sent := hsent ▸ hσ.sent

/-- While a size is stored no page is about to load it. -/
lemma unsent (thread : ℕ) (happlying : (σ.phase thread).Applying) : σ.Unsent := by
  intro other hsends
  have hother := hσ.inFrame other
  cases hp : σ.phase other with
  | sending | sendingWidth =>
    rw [hp] at hother
    exact hother.1 thread happlying
  | _ =>
    rw [hp] at hsends
    exact hsends

/-- A step between two phases without the lock, or between two phases with it. -/
lemma plain {reqWidth reqHeight : ℕ} {requested : List (ℕ × ℕ)}
    (hold : ¬ (σ.phase thread).Applying) (hnew : ¬ phase.Applying)
    (hkept : phase.Holds → (σ.phase thread).Holds) (hphase : σ.InFrame phase) :
    ({ σ.enter thread phase with reqWidth, reqHeight, requested } : ResizeState).Frames :=
  hσ.enter σ.lock hold hnew (forall_enter (P := fun other p => p.Holds → σ.lock = some other)
    (fun hnew => hσ.lock thread (hkept hnew)) fun other _ => hσ.lock other) hphase

lemma advance (hsmall : σ.Small) (hi : σ.Apart (thread, .resume)) :
    (σ.advance thread).Frames := by
  obtain ⟨-, hreloaded⟩ := hi
  unfold ResizeState.advance
  cases hphase : σ.phase thread with
  | idle => exact hσ
  | waiting =>
    dsimp only
    split
    · rename_i hfree
      refine hσ.enter (some thread) (by simp [hphase]) (by simp) ?_ trivial
      exact forall_enter (P := fun other p => p.Holds → some thread = some other)
        (fun _ => rfl) fun other _ hholds => absurd hholds (hσ.not_holds_of_free hfree other)
    · exact hσ
  | reloaded rw_ rh =>
    obtain ⟨hw, hh⟩ := hsmall.of_phase hphase
    have hlen : rw_ * rh % 2 ^ 64 = rw_ * rh :=
      Nat.mod_eq_of_lt ((Nat.mul_lt_mul'' hw hh).trans_le (by norm_num))
    exact hσ.store thread (.resized rw_ rh) (by simp [hphase]) (hreloaded rw_ rh hphase)
      rfl rfl rfl hlen (by simp)
  | resized rw_ rh =>
    have hlen : σ.framebuffer = rw_ * rh := hσ.inFrame_of_phase hphase
    have hunsent : σ.Unsent := hσ.unsent thread (by simp [hphase])
    exact hσ.store thread (.widthStored rw_ rh) (by simp [hphase]) hunsent
      rfl rfl rfl ⟨hlen, rfl⟩ (by simp)
  | widthStored rw_ rh =>
    obtain ⟨hlen, hwidth⟩ := hσ.inFrame_of_phase hphase
    have hunsent : σ.Unsent := hσ.unsent thread (by simp [hphase])
    refine hσ.store thread .heightStored (by simp [hphase]) hunsent rfl rfl rfl trivial fun _ => ?_
    change σ.framebuffer = σ.width * rh
    rw [hlen, hwidth]
  | heightStored =>
    refine hσ.enter none (by simp [hphase]) (by simp) ?_ trivial
    exact forall_enter (P := fun other p => p.Holds → none = some other) (by simp)
      fun other hne hholds => absurd hholds (hσ.alone (by simp [hphase]) hne)
  | sending bytes =>
    have hframe : σ.InFrame (.sending bytes) := hσ.inFrame_of_phase hphase
    exact hσ.plain (by simp [hphase]) (by simp) (by simp) hframe
  | sendingWidth bytes w =>
    obtain ⟨-, hbytes⟩ := hσ.inFrame_of_phase hphase
    have hnext : (σ.enter thread .idle).Frames :=
      hσ.plain (by simp [hphase]) (by simp) (by simp) trivial
    refine ⟨hnext.lock, hnext.still, hnext.inFrame, forall_mem_concat.mpr ⟨hσ.sent, ?_⟩⟩
    · have hw : w < 2 ^ 32 := hsmall.of_phase hphase
      simp only [BitVec.toNat_ofNat, Nat.mod_eq_of_lt hw, Nat.mod_eq_of_lt hsmall.height]
      exact hbytes
  | comparing rw_ rh cw =>
    dsimp only
    split <;> exact hσ.plain (by simp [hphase]) (by simp) (by simp) trivial
  | requesting | checking | checkingBoth | locked | reloadedWidth =>
    exact hσ.plain (by simp [hphase]) (by simp) (by simp [hphase]) trivial

lemma step (hsmall : σ.Small) (hi : σ.Apart i) : (σ.step i).Frames := by
  obtain ⟨thread, action⟩ := i
  cases action with
  | resume => exact hσ.advance hsmall hi
  | request | check =>
    simp only [ResizeState.step]
    split
    · rename_i hidle
      exact hσ.plain (by simp [hidle]) (by simp) (by simp) trivial
    · exact hσ
  | send =>
    simp only [ResizeState.step]
    split
    · rename_i hidle
      obtain ⟨hidle, hfree⟩ := hidle
      have hstill : σ.Still := fun other happlying =>
        hσ.not_holds_of_free hfree other happlying.holds
      exact hσ.plain (by simp [hidle]) (by simp) (by simp)
        ⟨hstill, congrArg (4 * ·) (hσ.still hstill)⟩
    · exact hσ

end

lemma new : new.Frames where
  lock _ hholds := by cases hholds
  still _ := rfl
  inFrame _ := trivial
  sent _ hm := by cases hm

end Frames

/-- Where every step is made apart, every size applied was requested as a pair, and every frame sent
has the bytes of the size sent with it. -/
theorem resize_consistent {inputs : List (ℕ × ResizeAction)}
    (hsteps : EachStep step Apart new inputs) :
    (∀ size ∈ (run step new inputs).applied,
        size = (1024, 768) ∨ size ∈ (run step new inputs).requested)
      ∧ ∀ m ∈ (run step new inputs).sent, m.bytes = 4 * (m.width.toNat * m.height.toNat) := by
  have hrun : (run step new inputs).Requests ∧ (run step new inputs).Small
      ∧ (run step new inputs).Frames :=
    run_invariant_of_eachStep (P := fun σ => σ.Requests ∧ σ.Small ∧ σ.Frames) hsteps
      ⟨Requests.new, Small.new, Frames.new⟩
      fun _ _ hi ⟨hrequests, hsmall, hframes⟩ =>
        ⟨hrequests.step hi, hsmall.step hi, hframes.step hsmall hi⟩
  exact ⟨hrun.1.applied, hrun.2.2.sent⟩

/-- The compositor, as thread `1`, checks for a size and applies it, in so many steps. -/
def applies (steps : ℕ) : List (ℕ × ResizeAction) :=
  (1, .check) :: List.replicate steps (1, .resume)

/-- A page, as thread `0`, takes the bytes and the size of a frame, with others between. -/
def sends (between : List (ℕ × ResizeAction)) : List (ℕ × ResizeAction) :=
  (0, .send) :: (between ++ List.replicate 2 (0, ResizeAction.resume))

def asks (thread : ℕ) : List (ℕ × ResizeAction) := [(thread, .request 800 600), (thread, .resume)]

/-- A page asks, the compositor applies the size, and the page is sent a frame. -/
def oneResize : List (ℕ × ResizeAction) := asks 0 ++ applies 10 ++ sends []

lemma eachStep_oneResize : EachStep step Apart new oneResize := by
  simp only [oneResize, asks, applies, sends, List.replicate, List.cons_append, List.nil_append,
    eachStep_cons, eachStep_nil]
  refine ⟨?_, ?_, ?_, ?_, ?_, ?_, ?_, ?_, ?_, ?_, ?_, ?_, ?_, ?_, ?_, ?_, trivial⟩
  all_goals simp [Apart, Calm, Unread, Unsent, step, advance, enter, new, Function.update_apply]
  -- left are the first load under the lock and the resizing
  all_goals
    intro thread
    split_ifs <;> simp

theorem resize_consistent_oneResize : (run step new oneResize).sent = [⟨800, 600, 4 * (800 * 600)⟩]
      ∧ (∀ size ∈ (run step new oneResize).applied,
          size = (1024, 768) ∨ size ∈ (run step new oneResize).requested)
      ∧ ∀ m ∈ (run step new oneResize).sent, m.bytes = 4 * (m.width.toNat * m.height.toNat) :=
  ⟨by decide +kernel, resize_consistent eachStep_oneResize⟩

/-- The compositor applies the size while the height of a request is still to be stored. -/
def tornRequest : List (ℕ × ResizeAction) := (0, .request 800 600) :: applies 7

/-- One page has taken the bytes of a frame when the compositor applies what another asked for. -/
def resizedInFrame : List (ℕ × ResizeAction) := sends (asks 2 ++ applies 10)

/-- The size 800 by 768 is applied, which nobody asked for; and a frame of 800 by 600 is sent with
the bytes of 1024 by 768. -/
theorem resize_torn : (∃ size ∈ (run step new tornRequest).applied,
        ¬ (size = (1024, 768) ∨ size ∈ (run step new tornRequest).requested))
      ∧ ∃ m ∈ (run step new resizedInFrame).sent,
        m.bytes ≠ 4 * (m.width.toNat * m.height.toNat) := by
  decide +kernel

end ResizeState

end ThingOS.Host
