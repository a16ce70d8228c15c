import ThingOS.Common.Pipe
import ThingOS.Drivers.Ps2

/-!
# Input on the host

On the host the keyboard and the mouse are a web page (`compositor/src/main.rs`). It sends packets
over a socket, `handle_binary_input` queues their bytes in the runtime (`thing_host/src/lib.rs`),
and the drivers read the two queues as devices. The packets are told apart by their first byte and
their length only; that works because the page never sets an overflow bit in the first byte of a
mouse packet, so it is never the `K` of a key packet.
-/

namespace ThingOS.Host

open Drivers Pipe List

/-! ## The page -/

/-- An entry of the key map: a scancode, perhaps an extended one. -/
structure KeyEntry where
  code : UInt8
  extended : Bool

def KeyEntry.plain (code : UInt8) : KeyEntry := ⟨code, false⟩

def KeyEntry.extendedKey (code : UInt8) : KeyEntry := ⟨code, true⟩

/-- The keys with one scancode, and those with an extended one. -/
def plainScancodes : List (String × UInt8) :=
  [("Escape", 0x01), ("Digit1", 0x02), ("Digit2", 0x03), ("Digit3", 0x04), ("Digit4", 0x05),
   ("Digit5", 0x06), ("Digit6", 0x07), ("Digit7", 0x08), ("Digit8", 0x09), ("Digit9", 0x0A),
   ("Digit0", 0x0B), ("Minus", 0x0C), ("Equal", 0x0D), ("Backspace", 0x0E), ("Tab", 0x0F),
   ("KeyQ", 0x10), ("KeyW", 0x11), ("KeyE", 0x12), ("KeyR", 0x13), ("KeyT", 0x14), ("KeyY", 0x15),
   ("KeyU", 0x16), ("KeyI", 0x17), ("KeyO", 0x18), ("KeyP", 0x19), ("BracketLeft", 0x1A),
   ("BracketRight", 0x1B), ("Enter", 0x1C), ("ControlLeft", 0x1D), ("KeyA", 0x1E), ("KeyS", 0x1F),
   ("KeyD", 0x20), ("KeyF", 0x21), ("KeyG", 0x22), ("KeyH", 0x23), ("KeyJ", 0x24), ("KeyK", 0x25),
   ("KeyL", 0x26), ("Semicolon", 0x27), ("Quote", 0x28), ("Backquote", 0x29), ("ShiftLeft", 0x2A),
   ("Backslash", 0x2B), ("KeyZ", 0x2C), ("KeyX", 0x2D), ("KeyC", 0x2E), ("KeyV", 0x2F),
   ("KeyB", 0x30), ("KeyN", 0x31), ("KeyM", 0x32), ("Comma", 0x33), ("Period", 0x34),
   ("Slash", 0x35), ("ShiftRight", 0x36), ("NumpadMultiply", 0x37), ("AltLeft", 0x38),
   ("Space", 0x39), ("CapsLock", 0x3A), ("F1", 0x3B), ("F2", 0x3C), ("F3", 0x3D), ("F4", 0x3E),
   ("F5", 0x3F), ("F6", 0x40), ("F7", 0x41), ("F8", 0x42), ("F9", 0x43), ("F10", 0x44),
   ("NumLock", 0x45), ("ScrollLock", 0x46), ("Numpad7", 0x47), ("Numpad8", 0x48), ("Numpad9", 0x49),
   ("NumpadSubtract", 0x4A), ("Numpad4", 0x4B), ("Numpad5", 0x4C), ("Numpad6", 0x4D),
   ("NumpadAdd", 0x4E), ("Numpad1", 0x4F), ("Numpad2", 0x50), ("Numpad3", 0x51), ("Numpad0", 0x52),
   ("NumpadDecimal", 0x53), ("F11", 0x57), ("F12", 0x58)]

def extendedScancodes : List (String × UInt8) :=
  [("ArrowUp", 0x48), ("ArrowDown", 0x50), ("ArrowLeft", 0x4B), ("ArrowRight", 0x4D),
   ("Home", 0x47), ("End", 0x4F), ("PageUp", 0x49), ("PageDown", 0x51), ("Insert", 0x52),
   ("Delete", 0x53), ("NumpadEnter", 0x1C), ("ControlRight", 0x1D), ("AltRight", 0x38),
   ("MetaLeft", 0x5B), ("MetaRight", 0x5C), ("ContextMenu", 0x5D), ("NumpadDivide", 0x35)]

def keymapUsAltgrIntl : List (String × KeyEntry) :=
  plainScancodes.map (Prod.map id .plain) ++ extendedScancodes.map (Prod.map id .extendedKey)

/-- `scancodesForEvent`. -/
def scancodesForEvent (code : String) (released : Bool) : Option (List UInt8) :=
  (keymapUsAltgrIntl.lookup code).map fun entry =>
    let code := entry.code ||| (if released then 0x80 else 0)
    if entry.extended then [0xE0, code] else [code]

/-- The packet of `sendKeyScancodes`; its first byte is a `K`. -/
def sendKeyScancodes (scancodes : List UInt8) : List UInt8 := 0x4B :: scancodes

/-- `setUint32(_, n, true)`. -/
def uint32Bytes (n : ℕ) : List UInt8 := (List.range 4).map fun i => UInt8.ofNat (n / 256 ^ i)

/-- The packet of `sendResize`; its first byte is an `R`. -/
def sendResize (width height : ℕ) : List UInt8 := 0x52 :: (uint32Bytes width ++ uint32Bytes height)

def clampMovement (d : ℤ) : ℤ := max (-127) (min 127 d)

/-- The first byte of the packet of `sendMouse`. -/
def mouseFlags (dx dy buttons : ℤ) : UInt8 :=
  let flags : UInt8 := 0x08
  let flags := if buttons % 2 = 1 then flags ||| 0x01 else flags
  let flags := if buttons / 2 % 2 = 1 then flags ||| 0x02 else flags
  let flags := if buttons / 4 % 2 = 1 then flags ||| 0x04 else flags
  let flags := if dx < 0 then flags ||| 0x10 else flags
  if -clampMovement dy < 0 then flags ||| 0x20 else flags

/-- The packet of `sendMouse`. The page counts down, a mouse counts up. -/
def sendMouse (dx dy buttons : ℤ) : List UInt8 :=
  [mouseFlags dx dy buttons, UInt8.ofInt (clampMovement dx), UInt8.ofInt (-clampMovement dy)]

/-- What the page listens to. -/
inductive PageEvent where
  | key (code : String) (released : Bool)
  | mouse (dx dy buttons : ℤ)
  | resize (width height : ℕ)

namespace PageEvent

/-- The message that the page sends, if any. -/
def message : PageEvent → Option (List UInt8)
  | .key code released => (scancodesForEvent code released).map sendKeyScancodes
  | .mouse dx dy buttons => some (sendMouse dx dy buttons)
  | .resize width height => some (sendResize width height)

def scancodes : PageEvent → List UInt8
  | .key code released => (scancodesForEvent code released).getD []
  | .mouse .. | .resize .. => []

/-- A mouse message in the page's own terms. -/
structure Movement where
  dx : ℤ
  dy : ℤ
  buttons : ℤ

def movements : PageEvent → List Movement
  | .mouse dx dy buttons => [⟨dx, dy, buttons⟩]
  | .key .. | .resize .. => []

def Movement.packet (m : Movement) : List UInt8 := sendMouse m.dx m.dy m.buttons

end PageEvent

open PageEvent (Movement)

/-! ## The runtime -/

/-- The part of the host's runtime that takes input. -/
structure HostInput where
  keyboardFifo : List UInt8
  mouseFifo : List UInt8
  reqWidth : ℕ
  reqHeight : ℕ

variable (rt : HostInput)

namespace HostInput

def new : HostInput := ⟨[], [], 1024, 768⟩

def pushScancode (rt : HostInput) (code : UInt8) : HostInput :=
  { rt with keyboardFifo := rt.keyboardFifo ++ [code] }

def pushMousePacket (rt : HostInput) (packet : List UInt8) : HostInput :=
  { rt with mouseFifo := packet.foldl (fun fifo byte => fifo ++ [byte]) rt.mouseFifo }

def requestResize (rt : HostInput) (width height : ℕ) : HostInput :=
  { rt with reqWidth := width, reqHeight := height }

/-- `u32::from_le_bytes`. -/
def fromLeBytes (bytes : List UInt8) : ℕ := bytes.foldr (fun byte n => byte.toNat + 256 * n) 0

def handleBinaryInput (rt : HostInput) (data : List UInt8) : HostInput :=
  if data.head? = some 0x4B then (data.drop 1).foldl pushScancode rt
  else if data.length = 3 then rt.pushMousePacket data
  else if data.length = 9 ∧ data.head? = some 0x52 then
    rt.requestResize (fromLeBytes ((data.drop 1).take 4)) (fromLeBytes (data.drop 5))
  else rt

lemma foldl_pushScancode (codes : List UInt8) :
    codes.foldl pushScancode rt = { rt with keyboardFifo := rt.keyboardFifo ++ codes } := by
  induction codes generalizing rt with
  | nil => simp
  | cons code codes ih => simp [ih, pushScancode]

end HostInput

structure DeviceState where
  kind : ℕ
  index : ℕ

def deviceKindKeyboard : ℕ := 1

def deviceKindMouse : ℕ := 2

/-- `open_devices`, with the handles under which the drivers have opened theirs. -/
structure Devices where
  openDevices : Std.ExtTreeMap ℕ DeviceState
  keyboard : ℕ
  mouse : ℕ
  keyboard_open : openDevices[keyboard]?.map DeviceState.kind = some deviceKindKeyboard
  mouse_open : openDevices[mouse]?.map DeviceState.kind = some deviceKindMouse

/-- The devices after the `DevOpen` of both drivers. -/
def Devices.opened (openDevices : Std.ExtTreeMap ℕ DeviceState) (nextHandle : ℕ) : Devices where
  openDevices := (openDevices.insert nextHandle ⟨deviceKindKeyboard, 0⟩).insert (nextHandle + 1)
    ⟨deviceKindMouse, 0⟩
  keyboard := nextHandle
  mouse := nextHandle + 1
  keyboard_open := by
    rw [Std.ExtTreeMap.getElem?_insert, if_neg (by simp), Std.ExtTreeMap.getElem?_insert_self]
    rfl
  mouse_open := by simp

variable (dx dy buttons : ℤ) (devices : Devices)

/-- `DevRead`: at most `len` bytes off the queue of the device. -/
def HostInput.devRead (devices : Devices) (rt : HostInput) (handle len : ℕ) :
    HostInput × List UInt8 :=
  match devices.openDevices[handle]? with
  | none => (rt, [])
  | some state =>
    if state.kind = deviceKindKeyboard then
      ({ rt with keyboardFifo := rt.keyboardFifo.drop len }, rt.keyboardFifo.take len)
    else if state.kind = deviceKindMouse then
      ({ rt with mouseFifo := rt.mouseFifo.drop len }, rt.mouseFifo.take len)
    else (rt, [])

/-! ## The page, the runtime and the drivers together -/

/-- The runtime and the drivers, with what these have made of the bytes they read. -/
structure InputPath where
  runtime : HostInput
  keyboard : KeyboardDriver
  consumed : List UInt8
  emitted : List KeyboardDriver.Emitted
  mouse : PacketDecoder
  events : List MouseEvent

inductive InputStep where
  | page (event : PageEvent)
  | keyboardRead (len : ℕ)
  | mouseRead (len : ℕ)

namespace InputPath

def start : InputPath := ⟨.new, .new, [], [], .new, []⟩

def step (devices : Devices) (σ : InputPath) : InputStep → InputPath
  | .page event =>
    match event.message with
    | some data => { σ with runtime := σ.runtime.handleBinaryInput data }
    | none => σ
  | .keyboardRead len =>
    let (runtime, data) := σ.runtime.devRead devices devices.keyboard len
    { σ with
      runtime := runtime
      keyboard := run KeyboardDriver.step σ.keyboard data
      consumed := σ.consumed ++ data
      emitted := σ.emitted ++ outputs KeyboardDriver.step KeyboardDriver.emits σ.keyboard data }
  | .mouseRead len =>
    let (runtime, data) := σ.runtime.devRead devices devices.mouse len
    { σ with
      runtime := runtime
      mouse := run PacketDecoder.step σ.mouse data
      events := σ.events ++ outputs PacketDecoder.step PacketDecoder.events σ.mouse data }

end InputPath

/-! ## What the page sends arrives in the right queue -/

namespace HostInput

lemma handleBinaryInput_keys (codes : List UInt8) :
    rt.handleBinaryInput (sendKeyScancodes codes)
      = { rt with keyboardFifo := rt.keyboardFifo ++ codes } := by
  rw [handleBinaryInput, sendKeyScancodes, if_pos (head?_cons ..), drop_one,
    tail_cons, foldl_pushScancode]

lemma fromLeBytes_uint32Bytes (n : ℕ) : fromLeBytes (uint32Bytes n) = n % 2 ^ 32 := by
  simp only [fromLeBytes, uint32Bytes, range_succ, range_zero, nil_append,
    cons_append, map_cons, map_nil, foldr_cons, foldr_nil,
    UInt8.toNat_ofNat']
  omega

lemma handleBinaryInput_resize (width height : ℕ) :
    rt.handleBinaryInput (sendResize width height)
      = rt.requestResize (width % 2 ^ 32) (height % 2 ^ 32) := by
  have hlength (n : ℕ) : (uint32Bytes n).length = 4 := by simp [uint32Bytes]
  have hwidth : ((sendResize width height).drop 1).take 4 = uint32Bytes width :=
    take_left' (hlength width)
  have hheight : (sendResize width height).drop 5 = uint32Bytes height :=
    drop_left' (hlength width)
  rw [handleBinaryInput, if_neg (by simp [sendResize]), if_neg (by simp [sendResize, hlength]),
    if_pos ⟨by simp [sendResize, hlength], rfl⟩, hwidth, hheight, fromLeBytes_uint32Bytes,
    fromLeBytes_uint32Bytes]

end HostInput

/-- The first byte by its five conditions. -/
def packetFlags (left right middle leftward downward : Bool) : UInt8 :=
  0x08 ||| (bif left then 0x01 else 0) ||| (bif right then 0x02 else 0)
    ||| (bif middle then 0x04 else 0) ||| (bif leftward then 0x10 else 0)
    ||| (bif downward then 0x20 else 0)

lemma packetFlags_spec : ∀ left right middle leftward downward,
    packetFlags left right middle leftward downward &&& 0x08 ≠ 0
      ∧ (packetFlags left right middle leftward downward &&& 0x40 = 0
        ∧ packetFlags left right middle leftward downward &&& 0x80 = 0)
      ∧ (packetFlags left right middle leftward downward &&& 0x07).toNat
        = left.toNat + 2 * right.toNat + 4 * middle.toNat := by
  decide +kernel

lemma ite_or_eq (p : Prop) [Decidable p] (flags bit : UInt8) :
    (if p then flags ||| bit else flags) = flags ||| bif decide p then bit else 0 := by
  by_cases hp : p <;> simp [hp]

/-- The first byte of a mouse packet has its mark, no overflow bits and the buttons. -/
lemma mouseFlags_spec :
    mouseFlags dx dy buttons &&& 0x08 ≠ 0
      ∧ (mouseFlags dx dy buttons &&& 0x40 = 0 ∧ mouseFlags dx dy buttons &&& 0x80 = 0)
      ∧ ((mouseFlags dx dy buttons &&& 0x07).toNat : ℤ) = buttons % 8 := by
  have hbit (n : ℤ) : ((decide (n % 2 = 1)).toNat : ℤ) = n % 2 := by
    rcases Int.emod_two_eq_zero_or_one n with h | h <;> simp [h]
  obtain ⟨hmark, hoverflow, hbuttons⟩ := packetFlags_spec (buttons % 2 = 1) (buttons / 2 % 2 = 1)
    (buttons / 4 % 2 = 1) (dx < 0) (-clampMovement dy < 0)
  simp only [mouseFlags, ite_or_eq]
  refine ⟨hmark, hoverflow, (congrArg Nat.cast hbuttons).trans ?_⟩
  push_cast
  rw [hbit, hbit, hbit]
  omega

lemma mouseFlags_ne : mouseFlags dx dy buttons ≠ 0x4B := by
  intro h
  have hoverflow := (mouseFlags_spec dx dy buttons).2.1.1
  rw [h] at hoverflow
  exact absurd hoverflow (by decide)

lemma HostInput.handleBinaryInput_mouse (m : Movement) :
    rt.handleBinaryInput m.packet = { rt with mouseFifo := rt.mouseFifo ++ m.packet } := by
  have hfirst : m.packet.head? ≠ some 0x4B := by
    intro h
    exact mouseFlags_ne m.dx m.dy m.buttons (Option.some_inj.mp h)
  have happend (fifo packet : List UInt8) :
      packet.foldl (fun fifo byte => fifo ++ [byte]) fifo = fifo ++ packet := by
    induction packet generalizing fifo with
    | nil => simp
    | cons byte packet ih => simp [ih]
  rw [handleBinaryInput, if_neg hfirst, if_pos (by rfl), pushMousePacket, happend]

/-! ## What the decoder makes of it -/

/-- A byte of the page is read back as the movement it was made of. -/
lemma toInt_toInt8_ofInt {i : ℤ} (h : -127 ≤ i ∧ i ≤ 127) : (UInt8.ofInt i).toInt8.toInt = i := by
  have hbits : (UInt8.ofInt i).toInt8.toInt = (BitVec.ofNat 8 (i % 256).toNat).toInt := rfl
  rw [hbits, BitVec.toInt_ofNat', Int.toNat_of_nonneg (Int.emod_nonneg i (by decide)),
    show (256 : ℤ) = (2 ^ 8 : ℕ) from rfl, Int.emod_bmod, Int.bmod_eq_of_le (by omega) (by omega)]

lemma clampMovement_bounds (d : ℤ) : -127 ≤ clampMovement d ∧ clampMovement d ≤ 127 := by
  unfold clampMovement
  omega

/-- A mouse event in the terms of the page. -/
structure Moved where
  dx : ℤ
  dy : ℤ
  buttons : ℤ
  buttonsChanged : Bool

def Moved.ofEvent (e : MouseEvent) : Moved :=
  ⟨e.dx.toInt, e.dy.toInt, e.buttons.toNat, e.buttonsChanged⟩

/-- The left, right and middle button, the three of which the page tells. -/
def buttonBits (buttons : ℤ) : ℤ := buttons % 8

/-- What the mouse messages of the page say, one after the other; `last` are the buttons of the
message before. -/
def movesOf (last : ℤ) : List Movement → List Moved
  | [] => []
  | m :: ms =>
    ⟨clampMovement m.dx, clampMovement m.dy, buttonBits m.buttons,
      decide (buttonBits m.buttons ≠ last)⟩ :: movesOf (buttonBits m.buttons) ms

lemma ofEvent_eventOf (m : Movement) (last : UInt8) :
    Moved.ofEvent (PacketDecoder.eventOf last (mouseFlags m.dx m.dy m.buttons)
        (UInt8.ofInt (clampMovement m.dx)) (UInt8.ofInt (-clampMovement m.dy)))
      = ⟨clampMovement m.dx, clampMovement m.dy, buttonBits m.buttons,
          decide (buttonBits m.buttons ≠ last.toNat)⟩ := by
  have hbuttons := (mouseFlags_spec m.dx m.dy m.buttons).2.2
  have hdx := clampMovement_bounds m.dx
  have hdy := clampMovement_bounds m.dy
  have hneg : (-(UInt8.ofInt (-clampMovement m.dy)).toInt8).toInt = clampMovement m.dy := by
    rw [Int8.toInt_neg, toInt_toInt8_ofInt ⟨by omega, by omega⟩, Int.neg_neg,
      Int.bmod_eq_of_le (by omega) (by omega)]
  have hchanged : (mouseFlags m.dx m.dy m.buttons &&& 0x07 != last)
      = decide (buttonBits m.buttons ≠ last.toNat) := by
    rw [Bool.eq_iff_iff, bne_iff_ne, decide_eq_true_iff, buttonBits, ← hbuttons, ne_eq, ne_eq,
      Nat.cast_inj, UInt8.toNat_inj]
  simp only [Moved.ofEvent, PacketDecoder.eventOf, toInt_toInt8_ofInt hdx, hneg, hchanged, hbuttons,
    buttonBits]

/-- Of the bytes of the packets, every third makes an event. -/
lemma events_take (ms : List Movement) (n : ℕ) {d : PacketDecoder} (last : UInt8)
    (hd : d.Rests last) :
    (outputs PacketDecoder.step PacketDecoder.events d ((ms.flatMap Movement.packet).take n)).map
        Moved.ofEvent
      = (movesOf last.toNat ms).take (n / 3) := by
  induction ms generalizing d last n with
  | nil => simp [outputs, movesOf]
  | cons m ms ih =>
    obtain ⟨hfirst, hoverflow, hbuttons⟩ := mouseFlags_spec m.dx m.dy m.buttons
    rw [flatMap_cons, take_append]
    -- Less than a packet makes no event.
    rcases n with _ | _ | _ | n
    · simp [outputs]
    · have hnone := (PacketDecoder.feed_two (x := 0) hd hfirst).2.2
      simp [Movement.packet, sendMouse, hnone]
    · have hnone := (PacketDecoder.feed_two (x := UInt8.ofInt (clampMovement m.dx)) hd hfirst).2.1
      simp [Movement.packet, sendMouse, hnone]
    · obtain ⟨hrest, hevent⟩ := PacketDecoder.feed_packet (x := UInt8.ofInt (clampMovement m.dx))
        (y := UInt8.ofInt (-clampMovement m.dy)) hd hfirst hoverflow
      have hpacket : m.packet.take (n + 3) = m.packet :=
        take_of_length_le (Nat.le_add_left 3 n)
      have hcount : (n + 3) / 3 = n / 3 + 1 := Nat.add_div_right n (by decide)
      rw [hpacket, show n + 3 - m.packet.length = n from rfl, outputs_append, map_append,
        Movement.packet, sendMouse, hevent, ih n _ hrest, hcount, map_singleton,
        ofEvent_eventOf, hbuttons]
      rfl

/-! ## Whole runs -/

namespace InputStep

def sent : InputStep → List PageEvent
  | .page event => [event]
  | .keyboardRead _ | .mouseRead _ => []

end InputStep

namespace InputPath

def scancodesSent (events : List PageEvent) : List UInt8 := events.flatMap PageEvent.scancodes

/-- All mouse messages. -/
def movementsSent (events : List PageEvent) : List Movement := events.flatMap PageEvent.movements

/-- The drivers have been fed what was sent, up to what is in the queues. -/
structure Relaying (σ : InputPath) (events : List PageEvent) : Prop where
  consumed : Relays KeyboardDriver.step (fun _ code => [code]) .new (scancodesSent events)
    σ.runtime.keyboardFifo σ.keyboard σ.consumed
  emitted : Relays KeyboardDriver.step KeyboardDriver.emits .new (scancodesSent events)
    σ.runtime.keyboardFifo σ.keyboard σ.emitted
  moved : Relays PacketDecoder.step PacketDecoder.events .new
    ((movementsSent events).flatMap Movement.packet) σ.runtime.mouseFifo σ.mouse σ.events

lemma relaying_start : Relaying start [] :=
  ⟨.init, .init, .init⟩

variable {σ : InputPath} {events : List PageEvent}

/-- A message of the page goes to the queue of its device. -/
lemma step_page (σ : InputPath) (event : PageEvent) :
    ∃ width height, σ.step devices (.page event)
      = { σ with
          runtime := ⟨σ.runtime.keyboardFifo ++ event.scancodes,
            σ.runtime.mouseFifo ++ event.movements.flatMap Movement.packet, width, height⟩ } := by
  cases event with
  | key code released =>
    refine ⟨σ.runtime.reqWidth, σ.runtime.reqHeight, ?_⟩
    rw [step, PageEvent.message, PageEvent.scancodes, PageEvent.movements]
    cases scancodesForEvent code released with
    | none => simp
    | some codes => simp [HostInput.handleBinaryInput_keys]
  | mouse dx dy buttons =>
    refine ⟨σ.runtime.reqWidth, σ.runtime.reqHeight, ?_⟩
    have hpacket := σ.runtime.handleBinaryInput_mouse ⟨dx, dy, buttons⟩
    rw [Movement.packet] at hpacket
    simp [step, PageEvent.message, PageEvent.scancodes, PageEvent.movements, hpacket,
      Movement.packet]
  | resize width height =>
    refine ⟨width % 2 ^ 32, height % 2 ^ 32, ?_⟩
    simp [step, PageEvent.message, PageEvent.scancodes, PageEvent.movements,
      HostInput.handleBinaryInput_resize, HostInput.requestResize]

lemma Relaying.page (h : σ.Relaying events) (devices : Devices) (event : PageEvent) :
    (σ.step devices (.page event)).Relaying (events ++ [event]) := by
  obtain ⟨width, height, hstep⟩ := step_page devices σ event
  have hcodes : scancodesSent (events ++ [event]) = scancodesSent events ++ event.scancodes := by
    simp [scancodesSent]
  have hmoves : (movementsSent (events ++ [event])).flatMap Movement.packet
      = (movementsSent events).flatMap Movement.packet
        ++ event.movements.flatMap Movement.packet := by
    simp [movementsSent]
  rw [hstep]
  refine ⟨?_, ?_, ?_⟩
  · rw [hcodes]
    exact h.consumed.write _
  · rw [hcodes]
    exact h.emitted.write _
  · rw [hmoves]
    exact h.moved.write _

lemma devRead_keyboard (len : ℕ) :
    rt.devRead devices devices.keyboard len
      = ({ rt with keyboardFifo := rt.keyboardFifo.drop len }, rt.keyboardFifo.take len) := by
  obtain ⟨state, hstate, hkind⟩ := Option.map_eq_some_iff.mp devices.keyboard_open
  rw [HostInput.devRead, hstate]
  exact if_pos hkind

lemma devRead_mouse (len : ℕ) :
    rt.devRead devices devices.mouse len
      = ({ rt with mouseFifo := rt.mouseFifo.drop len }, rt.mouseFifo.take len) := by
  obtain ⟨state, hstate, hkind⟩ := Option.map_eq_some_iff.mp devices.mouse_open
  have hother : state.kind ≠ deviceKindKeyboard := by
    rw [hkind]
    decide
  rw [HostInput.devRead, hstate]
  exact (if_neg hother).trans (if_pos hkind)

lemma Relaying.step (h : σ.Relaying events) (devices : Devices) (s : InputStep) :
    (σ.step devices s).Relaying (events ++ s.sent) := by
  cases s with
  | page event => exact h.page devices event
  | keyboardRead len =>
    rw [InputStep.sent, append_nil, InputPath.step, devRead_keyboard]
    obtain ⟨hconsumed, hemitted, hmoved⟩ := h
    refine ⟨?_, hemitted.read len, hmoved⟩
    have hread := hconsumed.read len
    rwa [outputs_record] at hread
  | mouseRead len =>
    rw [InputStep.sent, append_nil, InputPath.step, devRead_mouse]
    obtain ⟨hconsumed, hemitted, hmoved⟩ := h
    exact ⟨hconsumed, hemitted, hmoved.read len⟩

lemma relaying_run (steps : List InputStep) :
    (run (step devices) start steps).Relaying (steps.flatMap InputStep.sent) := by
  induction steps using List.reverseRecOn with
  | nil => exact relaying_start
  | append_singleton steps s ih =>
    rw [run_concat, flatMap_append, flatMap_singleton]
    exact ih.step devices s

/-- Both drivers read what waits for them. -/
def drained (devices : Devices) (σ : InputPath) : InputPath :=
  run (step devices) σ
    [.keyboardRead σ.runtime.keyboardFifo.length, .mouseRead σ.runtime.mouseFifo.length]

lemma drained_spec (h : σ.Relaying events) :
    (σ.drained devices).Relaying events ∧ (σ.drained devices).runtime.keyboardFifo = []
      ∧ (σ.drained devices).runtime.mouseFifo = [] := by
  have hkeyboard := h.step devices (.keyboardRead σ.runtime.keyboardFifo.length)
  have hmouse := hkeyboard.step devices (.mouseRead σ.runtime.mouseFifo.length)
  refine ⟨by simpa [drained, InputStep.sent] using hmouse, ?_, ?_⟩ <;>
    simp [drained, step, devRead_keyboard, devRead_mouse]

lemma length_movesOf (last : ℤ) (ms : List Movement) : (movesOf last ms).length = ms.length := by
  induction ms generalizing last with
  | nil => rfl
  | cons m ms ih => simp [movesOf, ih]

lemma length_packets (ms : List Movement) :
    (ms.flatMap Movement.packet).length = 3 * ms.length := by
  induction ms with
  | nil => rfl
  | cons m ms ih =>
    rw [flatMap_cons, length_append, ih, length_cons, Movement.packet, sendMouse]
    simp only [length_cons, length_nil]
    omega

/-- The mouse events are those of the messages whose packets have been read to the end. -/
lemma Relaying.events_eq (h : σ.Relaying events) :
    σ.events.map Moved.ofEvent
      = (movesOf 0 (movementsSent events)).take
          ((3 * (movementsSent events).length - σ.runtime.mouseFifo.length) / 3) := by
  rw [h.moved.produced_eq, length_packets]
  exact events_take _ _ 0 ⟨rfl, rfl⟩

/-- However messages and reads take turns, the keyboard driver has consumed the scancodes of all key
messages but for those that wait, and the mouse driver has made one event of every mouse message of
which it read the whole packet, in order; once the drivers have read what waits, nothing is
missing. -/
theorem host_input_exact (steps : List InputStep) :
    let σ := run (step devices) start steps
    let sent := steps.flatMap InputStep.sent
    σ.consumed ++ σ.runtime.keyboardFifo = scancodesSent sent
      ∧ σ.events.map Moved.ofEvent
        = (movesOf 0 (movementsSent sent)).take
            ((3 * (movementsSent sent).length - σ.runtime.mouseFifo.length) / 3)
      ∧ (σ.drained devices).consumed = scancodesSent sent
      ∧ (σ.drained devices).events.map Moved.ofEvent = movesOf 0 (movementsSent sent) := by
  intro σ sent
  have hσ : σ.Relaying sent := relaying_run devices steps
  obtain ⟨hdrained, hkeyboard, hmouse⟩ := drained_spec devices hσ
  refine ⟨hσ.consumed.append_queue, hσ.events_eq, ?_, ?_⟩
  · have hall := hdrained.consumed.append_queue
    rwa [hkeyboard, append_nil] at hall
  · have hall := hdrained.events_eq
    rwa [hmouse, length_nil, Nat.sub_zero, Nat.mul_div_cancel_left _ (by decide),
      take_of_length_le (length_movesOf ..).le] at hall

end InputPath

end ThingOS.Host
