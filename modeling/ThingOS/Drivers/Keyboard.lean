import ThingOS.Common.Polling
import ThingOS.Drivers.KeyCodes
import ThingOS.Drivers.Ps2
import ThingOS.Kernel.Graph.Store

/-!
# The keyboard driver

`keyboard_driver` from the bytes it reads to the facts it declares. A scancode, perhaps prefixed, is
a call of `emit_event`, which decodes the key, keeps the modifiers and the dead key up to date, and
declares the key with its symbol and its text.
-/

namespace ThingOS.Drivers

open Polling

/-- `KeyboardDriver` with all that it knows; the part it extends is the prefix of its codes. -/
structure Keyboard extends KeyboardDriver where
  deviceId : Uuid
  deviceHandle : Option ℕ
  irqHandle : Option ℕ
  shift : Bool
  capsLock : Bool
  altgr : Bool
  deadkey : DeadKey
  numLock : Bool

/-- A call of `fiat` without an id. -/
structure Fiat where
  kind : Symbol
  fields : Map

namespace KeyboardDriver.Emitted

variable (e : Emitted)

/-- Whether the key was pressed. -/
def down : Bool := e.scancode &&& 0x80 = 0

def code : UInt8 := e.scancode &&& 0x7F

end KeyboardDriver.Emitted

namespace Keyboard

open KeyboardDriver (Emitted)

def keyboardId : Uuid := Sha1.newV5 namespaceOid "ps2-keyboard0".toUTF8.toList

/-- `init`, with the answers of `dev_open` and `irq_bind`. -/
def init (deviceHandle irqHandle : Option ℕ) : Keyboard where
  prefixed := none
  deviceId := keyboardId
  deviceHandle := deviceHandle
  irqHandle := irqHandle
  shift := false
  capsLock := false
  altgr := false
  deadkey := .none
  numLock := false

variable (d : Keyboard)

/-! ## Characters -/

def resolveDeadKey (ch : Char) : Keyboard × Char :=
  ({ d with deadkey := .none }, (applyDeadKey d.deadkey ch).getD ch)

/-- The dead key that a scancode starts, as long as AltGr is not held. -/
def deadKeyFor (shift : Bool) : UInt8 → Option DeadKey
  | 0x28 => some .acute
  | 0x29 => some (if shift then .tilde else .grave)
  | 0x2B => some .circumflex
  | 0x1A => some .diaeresis
  | _ => none

variable (scancode : UInt8)

def startDeadKey : Keyboard × Bool :=
  if d.altgr then (d, false)
  else
    match deadKeyFor d.shift scancode with
    | some dead => ({ d with deadkey := dead }, true)
    | none => (d, false)

/-- The character of a key of characters, before a dead key is applied to it. -/
def plainChar : Option Char :=
  let uppercase := d.shift ^^ d.capsLock
  let underAltgr :=
    if d.altgr then altgrCharFromScancode scancode d.shift uppercase else none
  let letter :=
    (letterFromScancode scancode).map fun letter => if uppercase then letter.toUpper else letter
  underAltgr.or (letter.or ((digitFromScancode scancode d.shift).or
    (symbolFromScancode scancode d.shift d.altgr)))

/-- `key_char_us_altgr_intl`, the only layout of `key_char`. -/
def keyChar (keyCode : KeyCode) (scancode : UInt8) : Keyboard × Option Char :=
  match keyCode with
  | .character .. =>
    match d.plainChar scancode with
    | some ch =>
      let (d, ch) := d.resolveDeadKey ch
      (d, some ch)
    | none => (d, none)
  | .keypad digit => (d, if d.numLock then some (Char.ofNat (0x30 + digit.toNat)) else none)
  | .keypadDecimal => (d, if d.numLock then some '.' else none)
  | .keypadAdd => (d, some '+')
  | .keypadSubtract => (d, some '-')
  | .keypadMultiply => (d, some '*')
  | .keypadDivide => (d, some '/')
  | _ => (d, none)

/-! ## Texts -/

def onOff (enabled : Bool) : String := if enabled then "on" else "off"

def describeKeypadDigit (digit : UInt8) : String :=
  if d.numLock ∨ digit = 5 then "Numpad " ++ toString digit.toNat
  else
    match digit with
    | 7 => "Home"
    | 8 => "Arrow Up"
    | 9 => "Page Up"
    | 4 => "Arrow Left"
    | 6 => "Arrow Right"
    | 1 => "End"
    | 2 => "Arrow Down"
    | 3 => "Page Down"
    | 0 => "Insert"
    | _ => "Numpad " ++ toString digit.toNat

/-- `{:02X}`. -/
def hexByte (n : UInt8) : String :=
  String.ofList ([n.toNat / 16, n.toNat % 16].map fun digit => (Nat.digitChar digit).toUpper)

def keyText (keyCode : KeyCode) (down : Bool) : String :=
  match keyCode with
  | .enter => "Enter"
  | .escape => "Escape"
  | .backspace => "Backspace"
  | .tab => "Tab"
  | .ctrlLeft => "Left Ctrl"
  | .ctrlRight => "Right Ctrl"
  | .shiftLeft => "Left Shift"
  | .shiftRight => "Right Shift"
  | .altLeft => "Left Alt"
  | .altRight => "Right Alt"
  | .capsLock => "Caps Lock (" ++ onOff d.capsLock ++ ")"
  | .numLock => "Num Lock (" ++ onOff d.numLock ++ ")"
  | .scrollLock => "Scroll Lock"
  | .function idx => "F" ++ toString idx.toNat
  | .arrowUp => "Arrow Up"
  | .arrowDown => "Arrow Down"
  | .arrowLeft => "Arrow Left"
  | .arrowRight => "Arrow Right"
  | .home => "Home"
  | .end_ => "End"
  | .pageUp => "Page Up"
  | .pageDown => "Page Down"
  | .insert => "Insert"
  | .delete => "Delete"
  | .guiLeft => "Left Meta"
  | .guiRight => "Right Meta"
  | .contextMenu => "Menu"
  | .keypad digit => d.describeKeypadDigit digit
  | .keypadDecimal => if d.numLock then "Numpad ." else "Delete"
  | .keypadAdd => "Numpad +"
  | .keypadSubtract => "Numpad -"
  | .keypadMultiply => "Numpad *"
  | .keypadDivide => "Numpad /"
  | .keypadEnter => "Numpad Enter"
  | .unknown code extended =>
    "Unknown 0x" ++ hexByte code ++ (if extended then " (E0)" else "")
      ++ (if down then "" else " released")
  | .character .. => ""

def fromChar (ch : Char) : Symbol := BitVec.ofNat 32 ch.toNat

def describeKey (keyCode : KeyCode) (scancode : UInt8) (down : Bool) :
    Keyboard × Option Symbol × String :=
  match d.keyChar keyCode scancode with
  | (d, some ch) => (d, some (fromChar ch), String.singleton ch)
  | (d, none) => (d, keySymbol keyCode, d.keyText keyCode down)

/-! ## Events -/

def updateState (keyCode : KeyCode) (down : Bool) : Keyboard :=
  match keyCode with
  | .shiftLeft | .shiftRight => { d with shift := down }
  | .altRight => { d with altgr := down }
  | .capsLock => if down then { d with capsLock := !d.capsLock } else d
  | .numLock => if down then { d with numLock := !d.numLock } else d
  | _ => d

/-- The fields of the facts that a key event declares. -/
def eventFields (deviceId : Uuid) (code : UInt8) (down : Bool) (symbol : Option Symbol)
    (text : String) : Map :=
  let fields : Map := ((∅ : Map).insert Canon.deviceId (.uuid deviceId)).insert Canon.scancode
    (.u64 code.toNat)
  let fields := fields.insert Canon.down (.bool down)
  let fields := (symbol.map fun symbol => fields.insert Canon.key (.symbol symbol)).getD fields
  if text = "" then fields else fields.insert Canon.text (.text text)

/-- `emit_event` from the decoding of the key on, with the calls of `fiat` that it makes. -/
def emitKey (code : UInt8) (extended down : Bool) : Keyboard × List Fiat :=
  let keyCode := decodeKey code extended
  let (d, symbol, text) := (d.updateState keyCode down).describeKey keyCode code down
  let fields := eventFields d.deviceId code down symbol text
  (d, ⟨Canon.keyEvent, fields⟩ :: if down then [⟨Canon.keyPressed, fields⟩] else [])

def emitEvent (extended : Bool) : Keyboard × List Fiat :=
  let down : Bool := scancode &&& 0x80 = 0
  let code := scancode &&& 0x7F
  let (d, started) := if down && !extended then d.startDeadKey code else (d, false)
  if started then (d, []) else d.emitKey code extended down

def step (e : Emitted) : Keyboard := (d.emitEvent e.scancode e.extended).1

def declares (e : Emitted) : List Fiat := (d.emitEvent e.scancode e.extended).2

/-! ## What an event changes -/

section Event

variable (e : Emitted)

def Starts : Prop :=
  e.down = true ∧ e.extended = false ∧ d.altgr = false ∧ (deadKeyFor d.shift e.code).isSome

/-- The keys that start a dead key have characters too. -/
lemma isCharacter_of_deadKeyFor {shift : Bool} {code : UInt8}
    (h : (deadKeyFor shift code).isSome) : (decodeKey code false).isCharacter = true := by
  have htable : ∀ code ∈ [0x28, 0x29, 0x2B, 0x1A], (decodeKey code false).isCharacter = true := by
    decide +kernel
  apply htable
  unfold deadKeyFor at h
  split at h <;> simp_all

lemma updateState_of_isCharacter {keyCode : KeyCode} (h : keyCode.isCharacter = true)
    (down : Bool) : d.updateState keyCode down = d := by
  cases keyCode with
  | character base shifted => rfl
  | _ => cases h

lemma emitEvent_of_starts {dead : DeadKey} (hdown : e.down = true)
    (hextended : e.extended = false) (haltgr : d.altgr = false)
    (hdead : deadKeyFor d.shift e.code = some dead) :
    d.emitEvent e.scancode e.extended = ({ d with deadkey := dead }, []) := by
  unfold Emitted.down at hdown
  unfold Emitted.code at hdead
  simp [emitEvent, startDeadKey, hdown, hextended, haltgr, hdead]

lemma emitEvent_of_not_starts (h : ¬ d.Starts e) :
    d.emitEvent e.scancode e.extended = d.emitKey e.code e.extended e.down := by
  have hstart : (if e.down && !e.extended then d.startDeadKey e.code else (d, false))
      = (d, false) := by
    split
    · rename_i hpress
      rw [Bool.and_eq_true, Bool.not_eq_true'] at hpress
      unfold startDeadKey
      split
      · rfl
      · rename_i haltgr
        have hnone : deadKeyFor d.shift e.code = none := by
          rw [← Option.not_isSome_iff_eq_none]
          exact fun hsome => h ⟨hpress.1, hpress.2, by simpa using haltgr, hsome⟩
        rw [hnone]
    · rfl
  unfold Emitted.down Emitted.code at hstart
  dsimp only [emitEvent]
  rw [hstart]
  rfl

/-- Looking up a character takes the dead key, if there is a character. -/
lemma keyChar_fst (keyCode : KeyCode) (scancode : UInt8) :
    (d.keyChar keyCode scancode).1
      = if keyCode.isCharacter ∧ (d.plainChar scancode).isSome then { d with deadkey := .none }
        else d := by
  cases keyCode with
  | character base shifted =>
    unfold keyChar
    rcases hch : d.plainChar scancode with _ | ch
    · simp
    · simp [resolveDeadKey, KeyCode.isCharacter]
  | _ => rfl

lemma emitKey_fst (code : UInt8) (extended down : Bool) :
    (d.emitKey code extended down).1 = ((d.updateState (decodeKey code extended) down).keyChar
      (decodeKey code extended) code).1 := by
  unfold emitKey describeKey
  dsimp only
  split <;> simp_all

/-- Apart from the dead key, an event does to the state what `update_state` does. -/
lemma exists_step_eq :
    ∃ dead, d.step e
      = { d.updateState (decodeKey e.code e.extended) e.down with deadkey := dead } := by
  by_cases hstarts : d.Starts e
  · obtain ⟨hdown, hextended, haltgr, hdead⟩ := hstarts
    obtain ⟨dead, hdead'⟩ := Option.isSome_iff_exists.mp hdead
    refine ⟨dead, ?_⟩
    rw [step, emitEvent_of_starts d e hdown hextended haltgr hdead', hextended,
      updateState_of_isCharacter d (isCharacter_of_deadKeyFor hdead)]
  · rw [step, emitEvent_of_not_starts d e hstarts, emitKey_fst, keyChar_fst]
    split
    · exact ⟨.none, rfl⟩
    · exact ⟨_, rfl⟩

end Event

/-! ## Bytes -/

/-- `handle_scancode`, with the call of `emit_event` that it makes. -/
def handleScancode : Keyboard × Option Emitted :=
  if d.prefixed = some 0xE0 then
    let e : Emitted := ⟨scancode, true⟩
    ({ d with prefixed := none }.step e, some e)
  else if scancode = 0xE0 then ({ d with prefixed := some 0xE0 }, none)
  else
    let e : Emitted := ⟨scancode, false⟩
    (d.step e, some e)

def feed : Keyboard := (d.handleScancode scancode).1

def emits : List Emitted := (d.handleScancode scancode).2.toList

/-- Whether a tick reads the device. -/
def opened : Bool := d.irqHandle.isSome && d.deviceHandle.isSome

/-- `tick`; the device would answer its reads with `reads`. -/
def tick (reads : List (List UInt8)) : Keyboard :=
  if d.opened then readLoop feed d reads else d

def tickReads (reads : List (List UInt8)) : List UInt8 := if d.opened then polled reads else []

/-- The calls of `emit_event` in a tick. -/
def tickEmits (reads : List (List UInt8)) : List Emitted :=
  if d.opened then readOutputs feed emits d reads else []

end Keyboard

end ThingOS.Drivers
