import Mathlib

/-!
# Symbols and the kernel's symbol table

A `Symbol` is a 32-bit code packed from two or three characters (`thing_abi/src/lib.rs`). The named
codes are in `kernel/src/graph/canon.rs`, with two lookups: `fromStr` reads a kind sent by a client,
`symbolToString` prints the predicate under which an edge is filed. The last section fixes the eight
printed names that carry authority.
-/

namespace ThingOS

/-- `thing_abi::Symbol`, a newtype over `u32`. -/
abbrev Symbol := BitVec 32

instance Symbol.instTransOrd : Std.TransOrd Symbol := inferInstance

/-- Pack three bytes, most significant first. -/
def canonBytes (a b c : UInt8) : Symbol :=
  (BitVec.ofNat 32 a.toNat <<< 16) ||| (BitVec.ofNat 32 b.toNat <<< 8) ||| BitVec.ofNat 32 c.toNat

/-- `canon(b'x', b'y', b'z')`, with the byte literals as characters. -/
def canon (a b c : Char) : Symbol := canonBytes a.toUInt8 b.toUInt8 c.toUInt8

/-- Pack two characters above a zero byte. -/
def cc (a b : Char) : Symbol :=
  (BitVec.ofNat 32 a.toNat <<< 16) ||| (BitVec.ofNat 32 b.toNat <<< 8)

/-- The bytes of a symbol, most significant first (`u32::to_be_bytes`). -/
def Symbol.toBeBytes (s : Symbol) : List UInt8 :=
  [24, 16, 8, 0].map fun shift => UInt8.ofNat ((s >>> shift) &&& 0xFF#32).toNat

namespace Canon

/-! ## The named symbols the kernel's lookups know -/

def journal := cc 'J' 'N'
def keyboard := cc 'K' 'B'
def keyPressed := cc 'K' 'P'
def keyEvent := canon 'K' 'E' 'V'
def mouse := cc 'M' 'S'
def mouseMoved := cc 'M' 'V'
def mouseMove := canon 'M' 'M' 'V'
def mouseButton := canon 'M' 'B' 'T'
def at_ := cc '@' ' '
def init := cc 'I' 'N'
def fail := cc 'F' 'L'
def driver := cc 'D' 'R'
def thingCreated := cc 'T' 'C'
def edgeAdded := cc 'E' 'D'
def public_ := canon 'P' 'U' 'B'
def closeWindowAction := canon 'C' 'L' 'W'
def id := canon 'I' 'D' ' '
def kind := canon 'K' 'N' 'D'
def fields := canon 'F' 'L' 'D'
def revision := canon 'R' 'V' 'N'
def src := canon 'S' 'R' 'C'
def dst := canon 'D' 'S' 'T'
def predicate := canon 'P' 'R' 'D'
def name := canon 'N' 'A' 'M'
def status := canon 'S' 'T' 'A'
def scancode := canon 'S' 'C' 'N'
def key := canon 'K' 'E' 'Y'
def dx := canon 'D' 'X' ' '
def dy := canon 'D' 'Y' ' '
def buttons := canon 'B' 'T' 'N'
def write := canon 'W' 'R' 'T'
def text := canon 'T' 'X' 'T'
def target := canon 'T' 'G' 'T'
def stdout := canon 'S' 'T' 'D'
def bundle := canon 'B' 'N' 'D'
def owner := canon 'O' 'W' 'N'
def owns := canon 'O' 'W' 'S'
def canRead := canon 'C' 'R' 'D'
def canWrite := canon 'C' 'W' 'R'
def canLink := canon 'C' 'L' 'K'
def canHandleIrq := canon 'C' 'I' 'Q'
def canDma := canon 'C' 'D' 'M'
def canMmio := canon 'C' 'M' 'M'
def canPortIo := canon 'C' 'P' 'O'
def addr := canon 'A' 'D' 'R'
def x := canon 'X' ' ' ' '
def y := canon 'Y' ' ' ' '
def z := canon 'Z' 'I' 'N'
def width := canon 'W' 'D' 'T'
def height := canon 'H' 'G' 'T'
def pitch := canon 'P' 'T' 'H'
def bpp := canon 'B' 'P' 'P'
def compositor := canon 'C' 'M' 'P'
def driverInput := canon 'I' 'N' 'P'
def driverDisplay := canon 'D' 'S' 'P'
def driverStorage := canon 'S' 'T' 'R'
def driverTimer := canon 'T' 'M' 'R'
def driverOther := canon 'O' 'T' 'H'
def window := canon 'W' 'I' 'N'
def pixmap := canon 'P' 'X' 'M'
def streams := canon 'S' 'T' 'M'
def composedBy := canon 'C' 'M' 'B'
def windowCreated := canon 'W' 'C' 'R'
def windowBufferUpdated := canon 'W' 'B' 'U'
def frameReady := canon 'F' 'R' 'M'
def device := canon 'D' 'E' 'V'
def framebufferDevice := canon 'F' 'B' 'D'
def keyboardDevice := canon 'K' 'B' 'D'
def mouseDevice := canon 'M' 'D' 'V'
def nicDevice := canon 'N' 'I' 'C'
def irqEvent := canon 'I' 'R' 'Q'
def dmaEvent := canon 'D' 'M' 'A'
def irqLine := canon 'I' 'Q' 'L'
def buffer := canon 'B' 'U' 'F'
def bytes := canon 'B' 'Y' 'T'
def done := canon 'D' 'O' 'N'
def inputDeviceMouse := canon 'I' 'D' 'M'
def inputEvent := canon 'I' 'E' 'V'
def move := canon 'M' 'O' 'V'
def deviceId := canon 'D' 'I' 'D'
def ts := canon 'T' 'S' ' '
def down := canon 'D' 'W' 'N'
def button := canon 'B' 'T' '#'
def package := canon 'P' 'K' 'G'
def bootAsset := canon 'B' 'T' 'A'
def surface := canon 'S' 'F' 'C'
def cursor := canon 'C' 'R' 'S'
def windowRect := canon 'W' 'R' 'C'
def app := canon 'A' 'P' 'P'
def type := canon 'T' 'Y' 'P'
def version := canon 'V' 'E' 'R'
def color := canon 'C' 'L' 'R'
def visible := canon 'V' 'S' 'B'
def bitmap := canon 'B' 'M' 'P'
def dirty := canon 'D' 'R' 'T'
def hasSurface := canon 'H' 'S' 'F'
def presents := canon 'P' 'R' 'S'
def sharedBuffer := canon 'S' 'B' 'F'
def queueState := canon 'Q' 'S' 'T'
def bufferKind := canon 'B' 'K' 'D'
def bufferUsage := canon 'B' 'U' 'G'
def ring := canon 'R' 'I' 'N'
def linear := canon 'L' 'I' 'N'
def pipeUsage := canon 'P' 'I' 'P'
def surfaceUsage := canon 'S' 'R' 'F'
def rxRingUsage := canon 'R' 'X' 'R'
def head := canon 'H' 'E' 'A'
def tail := canon 'T' 'A' 'I'
def hasData := canon 'H' 'D' 'T'
def capacity := canon 'C' 'A' 'P'
def style := canon 'S' 'T' 'Y'

/-- What stands in both tables of the source, in the same order. -/
def sharedTable : List (Symbol × String) :=
  [(keyboard, "keyboard"), (keyPressed, "key_pressed"), (keyEvent, "key_event"), (mouse, "mouse"),
    (mouseMoved, "mouse_moved"), (mouseMove, "mouse_move"), (mouseButton, "mouse_button"),
    (inputDeviceMouse, "input.device.mouse"), (inputEvent, "input.event"), (move, "move"),
    (deviceId, "device_id"), (ts, "ts"), (down, "down"), (button, "button"), (at_, "at"),
    (init, "init"), (fail, "fail"), (driver, "driver"), (thingCreated, "thing_created"),
    (edgeAdded, "edge_added"), (id, "id"), (kind, "kind"), (fields, "fields"),
    (revision, "revision"), (src, "src"), (dst, "dst"), (predicate, "predicate"), (name, "name"),
    (status, "status"), (scancode, "scancode"), (key, "key"), (dx, "dx"), (dy, "dy"),
    (buttons, "buttons"), (write, "write"), (bundle, "bundle"), (owner, "owner"), (owns, "owns"),
    (canRead, "can_read"), (canWrite, "can_write"), (canLink, "can_link"),
    (canHandleIrq, "can_handle_irq"), (canDma, "can_dma"), (canMmio, "can_mmio"),
    (canPortIo, "can_port_io"), (target, "target"), (text, "text"), (stdout, "stdout"),
    (addr, "addr"), (width, "width"), (height, "height"), (pitch, "pitch"), (bpp, "bpp"),
    (compositor, "compositor"), (window, "window"), (pixmap, "pixmap"), (streams, "streams"),
    (composedBy, "composed_by"), (windowCreated, "window_created"),
    (windowBufferUpdated, "window_buffer_updated"), (frameReady, "frame_ready"),
    (driverInput, "driver_input"), (driverDisplay, "driver_display"),
    (driverStorage, "driver_storage"), (driverTimer, "driver_timer"), (driverOther, "driver_other"),
    (device, "device"), (framebufferDevice, "device.framebuffer"),
    (keyboardDevice, "device.keyboard"), (mouseDevice, "device.mouse"), (nicDevice, "device.nic"),
    (irqEvent, "irq.event"), (dmaEvent, "dma.event"), (irqLine, "irq_line"), (buffer, "buffer"),
    (bytes, "bytes"), (done, "done"), (windowRect, "window_rect"), (color, "color"),
    (visible, "visible"), (bitmap, "bitmap"), (dirty, "dirty"), (hasSurface, "has_surface"),
    (presents, "presents"), (surface, "surface"), (cursor, "cursor"),
    (sharedBuffer, "buffer.shared"), (queueState, "queue.state"), (bufferKind, "buffer.kind"),
    (bufferUsage, "buffer.usage"), (ring, "ring"), (linear, "linear"), (pipeUsage, "pipe"),
    (surfaceUsage, "surface"), (rxRingUsage, "rx_ring"), (head, "head"), (tail, "tail"),
    (hasData, "has_data"), (capacity, "capacity"), (x, "x"), (y, "y"), (z, "z"), (app, "app"),
    (type, "type"), (version, "version")]

def fromStrTable : List (Symbol × String) :=
  (journal, "journal") :: (style, "style") :: sharedTable ++ [(bootAsset, "boot.asset"),
    (public_, "public"), (closeWindowAction, "action.close_window"), (style, "style")]

/-- The table searched by `symbol_to_string`; it lacks `boot.asset`. -/
def symbolToStringTable : List (Symbol × String) :=
  (journal, "journal") :: sharedTable ++
    [(public_, "public"), (closeWindowAction, "action.close_window"), (style, "style")]

/-- Resolve a kind string: the first table entry with that name, else any three bytes packed as they
stand. -/
def fromStr (s : String) : Option Symbol :=
  match fromStrTable.find? fun entry => entry.2 == s with
  | some entry => some entry.1
  | none =>
    match s.toUTF8.data.toList with
    | [a, b, c] => some (canonBytes a b c)
    | _ => none

def toAsciiUppercase (s : String) : String := String.ofList (s.toList.map Char.toUpper)

/-- The non-zero bytes among the low three of a symbol. -/
def symbolBytes (sym : Symbol) : List UInt8 :=
  ([16, 8, 0].map fun shift => UInt8.ofNat ((sym >>> shift) &&& 0xFF#32).toNat).filter (· != 0)

/-- The printed name of a symbol: its table entry in upper case, else its bytes in upper case when
they are all ASCII letters, digits or underscores, else `SYM_` and the number. A byte outside ASCII
fails `from_utf8` or the alphanumeric test, so the source's two tests are one test on the bytes. -/
def symbolToString (sym : Symbol) : String :=
  match symbolToStringTable.find? fun entry => entry.1 == sym with
  | some entry => toAsciiUppercase entry.2
  | none =>
    let chars := (symbolBytes sym).map fun b => Char.ofNat b.toNat
    if chars.all fun c => c.isAlphanum || c == '_' then
      toAsciiUppercase (String.ofList chars)
    else
      "SYM_" ++ toString sym.toNat

/-! ## The symbols that carry authority -/

def dataCapabilities : List Symbol := [canRead, canWrite, canLink]

def hardwareCapabilities : List Symbol := [canHandleIrq, canDma, canMmio, canPortIo]

/-- Every symbol whose edges the store reads as authority. -/
def authoritySymbols : List Symbol := owns :: (dataCapabilities ++ hardwareCapabilities)

/-- The predicate under which ownership edges are filed. -/
@[simp] lemma symbolToString_owns : symbolToString owns = "OWNS" := by decide

@[simp] lemma symbolToString_canRead : symbolToString canRead = "CAN_READ" := by decide

@[simp] lemma symbolToString_canWrite : symbolToString canWrite = "CAN_WRITE" := by decide

/-- The eight predicates that carry authority. -/
lemma map_symbolToString_authority :
    authoritySymbols.map symbolToString
      = ["OWNS", "CAN_READ", "CAN_WRITE", "CAN_LINK", "CAN_HANDLE_IRQ", "CAN_DMA", "CAN_MMIO",
        "CAN_PORT_IO"] := by
  decide

/-- No two authority symbols share a printed name, so an edge carries at most one authority. -/
lemma symbolToString_inj_of_authority {a b : Symbol} (ha : a ∈ authoritySymbols)
    (hb : b ∈ authoritySymbols) (h : symbolToString a = symbolToString b) : a = b := by
  have hnodup : (authoritySymbols.map symbolToString).Nodup := by
    rw [map_symbolToString_authority]
    decide
  exact List.inj_on_of_nodup_map hnodup ha hb h

end Canon

end ThingOS
