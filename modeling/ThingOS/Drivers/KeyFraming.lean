import ThingOS.Drivers.Keyboard
import ThingOS.Host.InputPath

/-!
# The framing of scancodes

A key event is one byte, or two if the key is an extended one. The driver cuts the bytes that it
reads back into events; the prefix it has seen is part of its state, so the cut does not depend on
how the bytes arrive. It is the right cut because no key has the code `0x60`, so that no other event
begins with the byte of the prefix.
-/

namespace ThingOS.Drivers

open Polling
open Host (KeyEntry)
open KeyboardDriver (Emitted)

structure KeyStroke where
  entry : KeyEntry
  released : Bool
  code_lt : entry.code < 0x80
  code_ne : entry.code ≠ 0x60

namespace KeyStroke

variable (stroke : KeyStroke)

/-- The code with the bit for a release. -/
def codeByte : UInt8 := stroke.entry.code ||| (if stroke.released then 0x80 else 0)

/-- The bytes that the page sends. -/
def encode : List UInt8 :=
  if stroke.entry.extended then [0xE0, stroke.codeByte] else [stroke.codeByte]

/-- The call of `emit_event` that is due. -/
def emitted : Emitted := ⟨stroke.codeByte, stroke.entry.extended⟩

lemma codeByte_ne : stroke.codeByte ≠ 0xE0 := by
  have hcodes : ∀ code : UInt8, code < 0x80 → code ≠ 0x60 → code ||| 0x80 ≠ 0xE0 ∧ code ≠ 0xE0 := by
    decide +kernel
  obtain ⟨hreleased, hpressed⟩ := hcodes _ stroke.code_lt stroke.code_ne
  unfold codeByte
  split
  · exact hreleased
  · simpa using hpressed

end KeyStroke

/-! ## The prefix -/

namespace KeyboardDriver

lemma feed_stroke (stroke : KeyStroke) :
    run step ⟨none⟩ stroke.encode = ⟨none⟩
      ∧ outputs step emits ⟨none⟩ stroke.encode = [stroke.emitted] := by
  have hne := stroke.codeByte_ne
  unfold KeyStroke.encode KeyStroke.emitted
  cases stroke.entry.extended <;> simp [outputs, step, emits, handleScancode, hne]

lemma feed_strokes (strokes : List KeyStroke) :
    outputs step emits ⟨none⟩ (strokes.flatMap KeyStroke.encode)
      = strokes.map KeyStroke.emitted := by
  induction strokes with
  | nil => rfl
  | cons stroke strokes ih =>
    obtain ⟨hrun, hemits⟩ := feed_stroke stroke
    rw [List.flatMap_cons, outputs_append, hrun, hemits, ih, List.map_cons, List.singleton_append]

end KeyboardDriver

/-! ## The driver -/

namespace Keyboard

variable (d : Keyboard)

lemma updateState_prefixed (keyCode : KeyCode) (down : Bool) :
    (d.updateState keyCode down).toKeyboardDriver = d.toKeyboardDriver := by
  unfold updateState
  split
  any_goals rfl
  all_goals split <;> rfl

lemma step_prefixed (e : Emitted) : (d.step e).toKeyboardDriver = d.toKeyboardDriver := by
  obtain ⟨dead, hstep⟩ := d.exists_step_eq e
  rw [hstep]
  exact d.updateState_prefixed ..

lemma handleScancode_eq (scancode : UInt8) :
    (d.feed scancode).toKeyboardDriver = d.toKeyboardDriver.step scancode
      ∧ d.emits scancode = d.toKeyboardDriver.emits scancode := by
  unfold feed emits handleScancode KeyboardDriver.step KeyboardDriver.emits
    KeyboardDriver.handleScancode
  split
  · exact ⟨step_prefixed .., rfl⟩
  · split
    · exact ⟨rfl, rfl⟩
    · exact ⟨step_prefixed .., rfl⟩

lemma tick_eq (reads : List (List UInt8)) : d.tick reads = run feed d (d.tickReads reads) := by
  unfold tick tickReads
  split
  · exact readLoop_eq d reads
  · rfl

lemma tickEmits_eq (reads : List (List UInt8)) :
    d.tickEmits reads = outputs feed emits d (d.tickReads reads) := by
  unfold tickEmits tickReads
  split
  · exact readOutputs_eq d reads
  · rfl

/-- However the bytes of the key strokes are cut into reads and ticks, once they are read the driver
has called `emit_event` for each key stroke, in order. -/
theorem ticks_emit_strokes (deviceHandle irqHandle : Option ℕ) (ticks : List (List (List UInt8)))
    (strokes : List KeyStroke)
    (hread : outputs tick tickReads (init deviceHandle irqHandle) ticks
      = strokes.flatMap KeyStroke.encode) :
    outputs tick tickEmits (init deviceHandle irqHandle) ticks
      = strokes.map KeyStroke.emitted := by
  have hpart : ∀ d bytes, outputs feed emits d bytes
      = outputs KeyboardDriver.step KeyboardDriver.emits d.toKeyboardDriver bytes :=
    outputs_of_part Keyboard.toKeyboardDriver (fun d b => (d.handleScancode_eq b).1)
      fun d b => (d.handleScancode_eq b).2
  rw [outputs_of_polls tick_eq tickEmits_eq, hread, hpart]
  exact KeyboardDriver.feed_strokes strokes

/-- The key of an a, an arrow key, and the first key up again. -/
def arrowStrokes : List KeyStroke :=
  [⟨.plain 0x1E, false, by decide, by decide⟩, ⟨.extendedKey 0x48, false, by decide, by decide⟩,
   ⟨.plain 0x1E, true, by decide, by decide⟩]

/-- The prefix of the arrow key is the end of one tick, its code the start of the next. -/
theorem ticks_emit_arrow :
    outputs tick tickEmits (init (some 3) (some 7)) [[[0x1E], [0xE0], []], [[0x48, 0x9E]]]
      = [⟨0x1E, false⟩, ⟨0x48, true⟩, ⟨0x9E, false⟩] :=
  (ticks_emit_strokes (some 3) (some 7) [[[0x1E], [0xE0], []], [[0x48, 0x9E]]] arrowStrokes
    (by decide +kernel)).trans (by decide)

end Keyboard

end ThingOS.Drivers
