import ThingOS.Common.Run

/-!
# The keyboard and the mouse driver

What the drivers under `drivers/` do with a byte that they read from their device: the decoder of
`mouse_driver` (`PacketDecoder::feed`), which makes an event of three bytes, and the prefix of
`keyboard_driver` (`handle_scancode`), up to the call of `emit_event`.
-/

namespace ThingOS.Drivers

/-! ## The mouse -/

structure MouseEvent where
  dx : Int8
  dy : Int8
  buttons : UInt8
  buttonsChanged : Bool
deriving DecidableEq

structure PacketDecoder where
  packet : Vector UInt8 3
  index : Fin 3
  buttons : UInt8

namespace PacketDecoder

def new : PacketDecoder := ⟨⟨#[0, 0, 0], rfl⟩, 0, 0⟩

/-- `feed`: a byte without bit 3 is not the first of a packet, and a packet with an overflow bit is
not an event. -/
def feed (d : PacketDecoder) (byte : UInt8) : PacketDecoder × Option MouseEvent :=
  if d.index = 0 ∧ byte &&& 0x08 = 0 then (d, none)
  else
    let packet := d.packet.set d.index byte
    let fed : PacketDecoder := { d with packet := packet, index := d.index + 1 }
    if fed.index ≠ 0 then (fed, none)
    else
      let flags := packet[0]
      let dx := packet[1].toInt8
      let dy := -packet[2].toInt8
      if flags &&& 0x40 ≠ 0 ∨ flags &&& 0x80 ≠ 0 then (fed, none)
      else
        let buttons := flags &&& 0x07
        ({ fed with buttons := buttons }, some ⟨dx, dy, buttons, buttons != d.buttons⟩)

def step (d : PacketDecoder) (byte : UInt8) : PacketDecoder := (d.feed byte).1

def events (d : PacketDecoder) (byte : UInt8) : List MouseEvent := (d.feed byte).2.toList

/-- Between two packets the decoder knows the buttons of the last one. -/
structure Rests (d : PacketDecoder) (buttons : UInt8) : Prop where
  index_eq : d.index = 0
  buttons_eq : d.buttons = buttons

def eventOf (buttons flags x y : UInt8) : MouseEvent :=
  ⟨x.toInt8, -y.toInt8, flags &&& 0x07, flags &&& 0x07 != buttons⟩

lemma feed_second (packet : Vector UInt8 3) (buttons x : UInt8) :
    feed ⟨packet, 1, buttons⟩ x = (⟨packet.set 1 x, 2, buttons⟩, none) := by
  simp [feed]

lemma feed_third (packet : Vector UInt8 3) (buttons y : UInt8)
    (hoverflow : packet[0] &&& 0x40 = 0 ∧ packet[0] &&& 0x80 = 0) :
    feed ⟨packet, 2, buttons⟩ y
      = (⟨packet.set 2 y, 0, packet[0] &&& 0x07⟩,
          some (eventOf buttons packet[0] packet[1] y)) := by
  simp [feed, hoverflow, eventOf]

section Packet

variable {d : PacketDecoder} {buttons flags x y : UInt8} (hd : d.Rests buttons)
  (hfirst : flags &&& 0x08 ≠ 0)

include hd hfirst

lemma feed_first : d.feed flags = (⟨d.packet.set 0 flags, 1, buttons⟩, none) := by
  obtain ⟨packet, index, last⟩ := d
  obtain ⟨rfl, rfl⟩ := hd
  simp [feed, hfirst]

lemma feed_two :
    run step d [flags, x] = ⟨(d.packet.set 0 flags).set 1 x, 2, buttons⟩
      ∧ outputs step events d [flags, x] = [] ∧ outputs step events d [flags] = [] := by
  have hstep : step d flags = ⟨d.packet.set 0 flags, 1, buttons⟩ := by
    rw [step, feed_first hd hfirst]
  have hnone : events d flags = [] := by
    rw [events, feed_first hd hfirst]
    rfl
  refine ⟨?_, ?_, ?_⟩
  · rw [run_cons, run_cons, run_nil, hstep, step, feed_second]
  · rw [outputs, outputs, outputs, hnone, hstep, events, feed_second]
    rfl
  · rw [outputs, outputs, hnone]
    rfl

/-- The third makes the event, unless there was an overflow. -/
lemma feed_packet (hoverflow : flags &&& 0x40 = 0 ∧ flags &&& 0x80 = 0) :
    (run step d [flags, x, y]).Rests (flags &&& 0x07)
      ∧ outputs step events d [flags, x, y] = [eventOf buttons flags x y] := by
  obtain ⟨hrun, hnone, -⟩ := feed_two (x := x) hd hfirst
  have hthird := feed_third ((d.packet.set 0 flags).set 1 x) buttons y (by simpa using hoverflow)
  have hsplit : [flags, x, y] = [flags, x] ++ [y] := rfl
  refine ⟨?_, ?_⟩
  · rw [hsplit, run_append, hrun, run_cons, run_nil, step, hthird]
    exact ⟨rfl, by simp⟩
  · rw [hsplit, outputs_append, hnone, hrun, outputs, outputs, events, hthird]
    simp

end Packet

end PacketDecoder

/-! ## The keyboard -/

/-- The driver, as far as it decides which codes are extended. -/
structure KeyboardDriver where
  prefixed : Option UInt8

namespace KeyboardDriver

/-- A call of `emit_event`. -/
structure Emitted where
  scancode : UInt8
  extended : Bool
deriving DecidableEq

def new : KeyboardDriver := ⟨none⟩

def handleScancode (d : KeyboardDriver) (scancode : UInt8) : KeyboardDriver × Option Emitted :=
  if d.prefixed = some 0xE0 then (⟨none⟩, some ⟨scancode, true⟩)
  else if scancode = 0xE0 then (⟨some 0xE0⟩, none)
  else (d, some ⟨scancode, false⟩)

def step (d : KeyboardDriver) (scancode : UInt8) : KeyboardDriver := (d.handleScancode scancode).1

def emits (d : KeyboardDriver) (scancode : UInt8) : List Emitted :=
  (d.handleScancode scancode).2.toList

end KeyboardDriver

end ThingOS.Drivers
