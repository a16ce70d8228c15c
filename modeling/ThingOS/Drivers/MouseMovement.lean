import ThingOS.Common.Polling
import ThingOS.Drivers.Ps2

/-!
# The movements of a mouse

A packet of a PS/2 mouse states two movements of nine bits each: a byte, and its sign in the first
byte of the packet. The decoder takes the byte for a signed one and does not look at the sign, so it
is right as long as a movement fits eight bits. Beyond that a movement turns around.
-/

namespace ThingOS.Drivers

open Polling

/-! ## The driver -/

/-- `MouseDriver` together with `MOUSE_DECODER`. -/
structure MouseDriver where
  deviceHandle : Option ℕ
  irqHandle : Option ℕ
  decoder : PacketDecoder

namespace MouseDriver

/-- `init`, with the answers of `dev_open` and `irq_bind`. -/
def init (deviceHandle irqHandle : Option ℕ) : MouseDriver := ⟨deviceHandle, irqHandle, .new⟩

variable (d : MouseDriver)

def handleByte (byte : UInt8) : MouseDriver × Option MouseEvent :=
  let (decoder, event) := d.decoder.feed byte
  ({ d with decoder := decoder }, event)

def feed (byte : UInt8) : MouseDriver := (d.handleByte byte).1

def events (byte : UInt8) : List MouseEvent := (d.handleByte byte).2.toList

/-- Whether a poll reads the device. -/
def opened : Bool := d.irqHandle.isSome && d.deviceHandle.isSome

variable (reads : List (List UInt8))

/-- The driver after `poll_events`; the device would answer its reads with `reads`. -/
def poll : MouseDriver :=
  if d.opened then readLoop feed d reads else d

def pollReads : List UInt8 := if d.opened then polled reads else []

def pollEvents : List MouseEvent :=
  if d.opened then readOutputs feed events d reads else []

lemma poll_eq : d.poll reads = run feed d (d.pollReads reads) := by
  unfold poll pollReads
  split
  · exact readLoop_eq d reads
  · rfl

lemma pollEvents_eq : d.pollEvents reads = outputs feed events d (d.pollReads reads) := by
  unfold pollEvents pollReads
  split
  · exact readOutputs_eq d reads
  · rfl

end MouseDriver

/-! ## Packets -/

/-- A packet with the mark of a first byte and without overflow. -/
structure MousePacket where
  flags : UInt8
  x : UInt8
  y : UInt8
  marked : flags &&& 0x08 ≠ 0
  noOverflow : flags &&& 0x40 = 0 ∧ flags &&& 0x80 = 0

namespace MousePacket

variable (p : MousePacket)

def bytes : List UInt8 := [p.flags, p.x, p.y]

def buttons : UInt8 := p.flags &&& 0x07

/-- A byte and its sign as a number of nine bits. -/
def nineBits (byte sign : UInt8) : ℤ := byte.toNat - if sign = 0 then 0 else 256

def movementX : ℤ := nineBits p.x (p.flags &&& 0x10)

def movementY : ℤ := nineBits p.y (p.flags &&& 0x20)

/-- The event states the packet; it counts the second movement downwards, the mouse upwards. -/
structure Reported (previous : UInt8) (p : MousePacket) (e : MouseEvent) : Prop where
  dx : e.dx.toInt = p.movementX
  dy : e.dy.toInt = -p.movementY
  buttons : e.buttons = p.buttons
  changed : e.buttonsChanged = true ↔ p.buttons ≠ previous

/-- One event for each packet, in order; `previous` are the buttons before the first. -/
def ReportedAll : (previous : UInt8) → List MousePacket → List MouseEvent → Prop
  | _, [], [] => True
  | previous, p :: packets, e :: events =>
    Reported previous p e ∧ ReportedAll p.buttons packets events
  | _, _, _ => False

/-- The movements, the second one negated, fit a signed byte. -/
def Fits : Prop :=
  (-128 ≤ p.movementX ∧ p.movementX ≤ 127) ∧ (-128 ≤ -p.movementY ∧ -p.movementY ≤ 127)

instance instDecidableFits : Decidable p.Fits := inferInstanceAs (Decidable (_ ∧ _))

lemma toInt_eq_nineBits_iff (byte sign : UInt8) :
    byte.toInt8.toInt = nineBits byte sign
      ↔ -128 ≤ nineBits byte sign ∧ nineBits byte sign ≤ 127 := by
  have hbytes : ∀ byte : UInt8, ∀ borrow ∈ [(0 : ℤ), 256], (byte.toInt8.toInt = byte.toNat - borrow
      ↔ -128 ≤ byte.toNat - borrow ∧ byte.toNat - borrow ≤ 127) := by
    decide +kernel
  apply hbytes
  split <;> simp

lemma toInt_neg_eq_nineBits_iff (byte sign : UInt8) :
    (-byte.toInt8).toInt = -nineBits byte sign
      ↔ -128 ≤ -nineBits byte sign ∧ -nineBits byte sign ≤ 127 := by
  have hbytes : ∀ byte : UInt8, ∀ borrow ∈ [(0 : ℤ), 256],
      ((-byte.toInt8).toInt = -(byte.toNat - borrow)
        ↔ -128 ≤ -(byte.toNat - borrow) ∧ -(byte.toNat - borrow) ≤ 127) := by
    decide +kernel
  apply hbytes
  split <;> simp

def eventAfter (previous : UInt8) : MouseEvent :=
  PacketDecoder.eventOf previous p.flags p.x p.y

lemma reported_iff_fits (previous : UInt8) :
    Reported previous p (p.eventAfter previous) ↔ p.Fits := by
  constructor
  · intro h
    exact ⟨(toInt_eq_nineBits_iff _ _).mp h.dx, (toInt_neg_eq_nineBits_iff _ _).mp h.dy⟩
  · rintro ⟨hx, hy⟩
    exact ⟨(toInt_eq_nineBits_iff _ _).mpr hx, (toInt_neg_eq_nineBits_iff _ _).mpr hy, rfl,
      bne_iff_ne⟩

def eventsAfter : (previous : UInt8) → List MousePacket → List MouseEvent
  | _, [] => []
  | previous, p :: packets => p.eventAfter previous :: eventsAfter p.buttons packets

lemma reportedAll_iff_fits (previous : UInt8) (packets : List MousePacket) :
    ReportedAll previous packets (eventsAfter previous packets) ↔ ∀ p ∈ packets, p.Fits := by
  induction packets generalizing previous with
  | nil => simp [ReportedAll, eventsAfter]
  | cons p packets ih =>
    rw [eventsAfter, ReportedAll, reported_iff_fits, ih, List.forall_mem_cons]

end MousePacket

/-! ## The decoder -/

open MousePacket

namespace PacketDecoder

/-- A decoder between two packets makes one event of each that follows. -/
lemma events_packets {d : PacketDecoder} {previous : UInt8} (hd : d.Rests previous)
    (packets : List MousePacket) :
    outputs step events d (packets.flatMap MousePacket.bytes) = eventsAfter previous packets := by
  induction packets generalizing d previous with
  | nil => rfl
  | cons p packets ih =>
    obtain ⟨hrests, hevents⟩ := feed_packet (x := p.x) (y := p.y) hd p.marked p.noOverflow
    rw [List.flatMap_cons, outputs_append, MousePacket.bytes, hevents, ih hrests, eventsAfter]
    rfl

end PacketDecoder

namespace MouseDriver

/-- For well-formed packets, however they are read, the driver reports every packet exactly if the
movements fit the event. -/
theorem packets_reported_iff (deviceHandle irqHandle : Option ℕ) (polls : List (List (List UInt8)))
    (packets : List MousePacket)
    (hread : outputs poll pollReads (init deviceHandle irqHandle) polls
      = packets.flatMap MousePacket.bytes) :
    ReportedAll 0 packets (outputs poll pollEvents (init deviceHandle irqHandle) polls)
      ↔ ∀ p ∈ packets, p.Fits := by
  have hpart : ∀ d bytes, outputs feed events d bytes
      = outputs PacketDecoder.step PacketDecoder.events d.decoder bytes :=
    outputs_of_part MouseDriver.decoder (fun _ _ => rfl) fun _ _ => rfl
  have hrests : (init deviceHandle irqHandle).decoder.Rests 0 := ⟨rfl, rfl⟩
  rw [outputs_of_polls poll_eq pollEvents_eq, hread, hpart, PacketDecoder.events_packets hrests,
    reportedAll_iff_fits]

/-- A button pressed on the way right and up, and released on the way back. -/
def thereAndBack : List MousePacket :=
  [⟨0x09, 0x05, 0x03, by decide, by decide⟩, ⟨0x38, 0xFB, 0xFD, by decide, by decide⟩]

theorem packets_reported_there_and_back :
    ReportedAll 0 thereAndBack (outputs poll pollEvents (init (some 3) (some 7))
      [[[0x09], [0x05, 0x03, 0x38]], [[0xFB, 0xFD]]]) :=
  (packets_reported_iff (some 3) (some 7) [[[0x09], [0x05, 0x03, 0x38]], [[0xFB, 0xFD]]]
    thereAndBack (by decide +kernel)).mpr (by decide)

def quick : MousePacket := ⟨0x08, 0xC8, 0x00, by decide, by decide⟩

/-- It is reported as one to the left. -/
theorem quick_turned_around :
    quick.movementX = 200
      ∧ outputs poll pollEvents (init (some 3) (some 7)) [[quick.bytes]]
        = [⟨-56, 0, 0, false⟩] := by
  decide +kernel

end MouseDriver

end ThingOS.Drivers
