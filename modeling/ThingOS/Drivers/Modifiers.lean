import ThingOS.Drivers.Keyboard

/-!
# Modifiers

The driver keeps one flag for the two Shift keys, one for AltGr, and flips one for each lock key
with every press. A keyboard repeats the press of a key that is held. The flags are compared here
with the keys that are down and with how often the lock keys went down. They differ after a Shift
key is released under the other one, and after a lock key is held until it repeats.
-/

namespace ThingOS.Drivers

open KeyboardDriver (Emitted)

/-- A key is told by its code and whether that is an extended one. -/
abbrev Key := UInt8 × Bool

namespace Key

def leftShift : Key := (0x2A, false)
def rightShift : Key := (0x36, false)
def rightAlt : Key := (0x38, true)
def capsLock : Key := (0x3A, false)
def numLock : Key := (0x45, false)

end Key

def KeyboardDriver.Emitted.key (e : Emitted) : Key := (e.code, e.extended)

/-! ## The keys that are down -/

/-- What happened to the keys themselves. -/
structure PhysicalKeys where
  held : Key → Bool
  /-- How often each key went down. -/
  presses : Key → ℕ

namespace PhysicalKeys

def untouched : PhysicalKeys := ⟨fun _ => false, fun _ => 0⟩

/-- A press of a key that is held is a repetition. -/
def register (p : PhysicalKeys) (e : Emitted) : PhysicalKeys where
  held := Function.update p.held e.key e.down
  presses :=
    if e.down && !p.held e.key then Function.update p.presses e.key (p.presses e.key + 1)
    else p.presses

end PhysicalKeys

structure Typing where
  driver : Keyboard
  keys : PhysicalKeys

namespace Typing

def start (deviceHandle irqHandle : Option ℕ) : Typing :=
  ⟨Keyboard.init deviceHandle irqHandle, .untouched⟩

def step (σ : Typing) (e : Emitted) : Typing := ⟨σ.driver.step e, σ.keys.register e⟩

/-- The flags of the driver say what the keys do. -/
structure Tracks (σ : Typing) : Prop where
  shift : σ.driver.shift = (σ.keys.held .leftShift || σ.keys.held .rightShift)
  altgr : σ.driver.altgr = σ.keys.held .rightAlt
  capsLock : σ.driver.capsLock = decide (σ.keys.presses .capsLock % 2 = 1)
  numLock : σ.driver.numLock = decide (σ.keys.presses .numLock % 2 = 1)

/-- No Shift key is released while the other is held, and no lock key repeats. -/
structure Permitted (σ : Typing) (e : Emitted) : Prop where
  leftShift : e.key = .leftShift → e.down = false → σ.keys.held .rightShift = false
  rightShift : e.key = .rightShift → e.down = false → σ.keys.held .leftShift = false
  capsLock : e.key = .capsLock → e.down = true → σ.keys.held .capsLock = false
  numLock : e.key = .numLock → e.down = true → σ.keys.held .numLock = false

end Typing

/-! ## The flags after an event -/

def flagKeys : List (KeyCode × Key) :=
  [(.shiftLeft, .leftShift), (.shiftRight, .rightShift), (.altRight, .rightAlt),
   (.capsLock, .capsLock), (.numLock, .numLock)]

lemma flagKeys_spec : ∀ m ∈ flagKeys,
    decodeKey m.2.1 m.2.2 = m.1
      ∧ (∀ entry ∈ extendedKeys, entry.2 = m.1 → (entry.1, true) = m.2)
      ∧ (∀ entry ∈ plainKeys, entry.2 = m.1 → (entry.1, false) = m.2)
      ∧ m.1.isListed = true := by
  decide +kernel

lemma decodeKey_eq_flagKey_iff (key : KeyCode) (place : Key) (h : (key, place) ∈ flagKeys)
    (e : Emitted) : decodeKey e.code e.extended = key ↔ e.key = place := by
  obtain ⟨hat, hextended, hplain, hlisted⟩ := flagKeys_spec _ h
  exact decodeKey_eq_iff hat hextended hplain hlisted e.code e.extended

namespace Keyboard

variable (d : Keyboard) (e : Emitted)

section UpdateState

variable (keyCode : KeyCode) (down : Bool)

lemma updateState_shift :
    (d.updateState keyCode down).shift
      = if keyCode = .shiftLeft ∨ keyCode = .shiftRight then down else d.shift := by
  cases keyCode <;> simp [updateState] <;> split <;> rfl

lemma updateState_altgr :
    (d.updateState keyCode down).altgr = if keyCode = .altRight then down else d.altgr := by
  cases keyCode <;> simp [updateState] <;> split <;> rfl

lemma updateState_capsLock :
    (d.updateState keyCode down).capsLock
      = if keyCode = .capsLock then d.capsLock ^^ down else d.capsLock := by
  cases keyCode <;> cases down <;> simp [updateState]

lemma updateState_numLock :
    (d.updateState keyCode down).numLock
      = if keyCode = .numLock then d.numLock ^^ down else d.numLock := by
  cases keyCode <;> cases down <;> simp [updateState]

end UpdateState

lemma step_shift :
    (d.step e).shift = if e.key = .leftShift ∨ e.key = .rightShift then e.down else d.shift := by
  have hleft := decodeKey_eq_flagKey_iff .shiftLeft .leftShift (by decide) e
  have hright := decodeKey_eq_flagKey_iff .shiftRight .rightShift (by decide) e
  obtain ⟨dead, hstep⟩ := d.exists_step_eq e
  simp only [hstep, updateState_shift, hleft, hright]

lemma step_altgr : (d.step e).altgr = if e.key = .rightAlt then e.down else d.altgr := by
  have hkey := decodeKey_eq_flagKey_iff .altRight .rightAlt (by decide) e
  obtain ⟨dead, hstep⟩ := d.exists_step_eq e
  simp only [hstep, updateState_altgr, hkey]

lemma step_capsLock :
    (d.step e).capsLock = if e.key = .capsLock then d.capsLock ^^ e.down else d.capsLock := by
  have hkey := decodeKey_eq_flagKey_iff .capsLock .capsLock (by decide) e
  obtain ⟨dead, hstep⟩ := d.exists_step_eq e
  simp only [hstep, updateState_capsLock, hkey]

lemma step_numLock :
    (d.step e).numLock = if e.key = .numLock then d.numLock ^^ e.down else d.numLock := by
  have hkey := decodeKey_eq_flagKey_iff .numLock .numLock (by decide) e
  obtain ⟨dead, hstep⟩ := d.exists_step_eq e
  simp only [hstep, updateState_numLock, hkey]

end Keyboard

namespace PhysicalKeys

variable (p : PhysicalKeys) (e : Emitted) (key : Key)

lemma held_register :
    (p.register e).held key = if e.key = key then e.down else p.held key := by
  simp only [register, Function.update_apply, eq_comm]

lemma presses_register :
    (p.register e).presses key
      = if e.key = key then p.presses key + (e.down && !p.held key).toNat else p.presses key := by
  unfold register
  by_cases hkey : e.key = key
  · subst hkey
    cases e.down && !p.held e.key <;> simp
  · cases e.down && !p.held e.key <;> simp [hkey, Ne.symm hkey]

/-- A flag that every press of a key flips says how often the key went down, until a press is a
repetition. -/
lemma parity_register_iff {flag flag' : Bool} (h : flag = decide (p.presses key % 2 = 1))
    (hflag : flag' = if e.key = key then flag ^^ e.down else flag) :
    flag' = decide ((p.register e).presses key % 2 = 1)
      ↔ (e.key = key → e.down = true → p.held key = false) := by
  rw [hflag, presses_register, h]
  by_cases hkey : e.key = key
  · rcases Nat.mod_two_eq_zero_or_one (p.presses key) with hn | hn <;> cases e.down <;>
      cases p.held key <;> simp [hkey, hn, Nat.add_mod]
  · simp [hkey]

end PhysicalKeys

namespace Typing

variable {σ : Typing}

variable (h : σ.Tracks) (e : Emitted)

include h

lemma shift_step_iff :
    (σ.step e).driver.shift
        = ((σ.step e).keys.held .leftShift || (σ.step e).keys.held .rightShift)
      ↔ (e.key = .leftShift → e.down = false → σ.keys.held .rightShift = false)
        ∧ (e.key = .rightShift → e.down = false → σ.keys.held .leftShift = false) := by
  have hne : Key.leftShift ≠ Key.rightShift := by decide
  simp only [step, Keyboard.step_shift, PhysicalKeys.held_register]
  by_cases hleft : e.key = .leftShift
  · cases hdown : e.down <;> simp [hleft, hne]
  · by_cases hright : e.key = .rightShift
    · cases hdown : e.down <;> simp [hright, hne.symm]
    · simp [hleft, hright, h.shift]

lemma altgr_step : (σ.step e).driver.altgr = (σ.step e).keys.held .rightAlt := by
  simp only [step, Keyboard.step_altgr, PhysicalKeys.held_register, h.altgr]

lemma capsLock_step_iff :
    (σ.step e).driver.capsLock = decide ((σ.step e).keys.presses .capsLock % 2 = 1)
      ↔ (e.key = .capsLock → e.down = true → σ.keys.held .capsLock = false) :=
  σ.keys.parity_register_iff e .capsLock h.capsLock (σ.driver.step_capsLock e)

lemma numLock_step_iff :
    (σ.step e).driver.numLock = decide ((σ.step e).keys.presses .numLock % 2 = 1)
      ↔ (e.key = .numLock → e.down = true → σ.keys.held .numLock = false) :=
  σ.keys.parity_register_iff e .numLock h.numLock (σ.driver.step_numLock e)

lemma tracks_step_iff : (σ.step e).Tracks ↔ σ.Permitted e := by
  constructor
  · intro h'
    obtain ⟨hleft, hright⟩ := (shift_step_iff h e).mp h'.shift
    exact ⟨hleft, hright, (capsLock_step_iff h e).mp h'.capsLock,
      (numLock_step_iff h e).mp h'.numLock⟩
  · intro hstep
    exact ⟨(shift_step_iff h e).mpr ⟨hstep.leftShift, hstep.rightShift⟩, altgr_step h e,
      (capsLock_step_iff h e).mpr hstep.capsLock, (numLock_step_iff h e).mpr hstep.numLock⟩

omit h

/-- The flags are right after every event of a run exactly if no Shift key was released under the
other one and no lock key repeated. -/
theorem modifiers_tracked_iff (deviceHandle irqHandle : Option ℕ) (events : List Emitted) :
    (∀ pre post, events = pre ++ post → (run step (start deviceHandle irqHandle) pre).Tracks)
      ↔ EachStep step Permitted (start deviceHandle irqHandle) events :=
  throughout_iff_eachStep (V := fun _ => True) trivial ⟨rfl, rfl, rfl, rfl⟩
    (fun _ _ _ => trivial) fun _ e _ h => tracks_step_iff h e

/-- Left Shift down, right Shift down, left Shift up: one is still held. Then Caps Lock, held until
it repeats: it went down once. -/
theorem modifiers_lost :
    let shifted := run step (start none none) [⟨0x2A, false⟩, ⟨0x36, false⟩, ⟨0xAA, false⟩]
    let locked := run step (start none none) [⟨0x3A, false⟩, ⟨0x3A, false⟩]
    (shifted.keys.held .rightShift = true ∧ shifted.driver.shift = false)
      ∧ (locked.keys.presses .capsLock = 1 ∧ locked.driver.capsLock = false) := by
  decide +kernel

end Typing

end ThingOS.Drivers
