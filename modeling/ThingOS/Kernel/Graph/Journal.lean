import ThingOS.Abi.Requests
import ThingOS.Common.BoundedQueue

/-!
# The kernel journal

`kernel/src/graph/journal.rs` keeps the most recent events in a bounded list, and
`kernel/src/graph/events.rs` turns committed Things and edges into events. The clock that stamps an
event is an input: `now` is what `timestamp_now` reads when the event is emitted.
-/

namespace ThingOS

/-- The events kept and how many may be kept. -/
structure Journal where
  entries : List Event
  capacity : ℕ

def journalCapacity : ℕ := 1024

namespace Journal

/-- The journal `with_journal` creates on first use. -/
def new (capacity : ℕ) : Journal := ⟨[], capacity⟩

/-- Append an event, evicting the oldest one when the journal is full. -/
def emit (j : Journal) (e : Event) : Journal :=
  if j.capacity ≤ j.entries.length then
    { j with entries := j.entries.drop 1 ++ [e] }
  else
    { j with entries := j.entries ++ [e] }

def emitData (j : Journal) (now : ℕ) (kind : Symbol) (data : Value) : Journal :=
  j.emit { timestamp := now, kind, data }

def thingPayload (thing : GraphThing) : Map :=
  ((((∅ : Map).insert Canon.id (.uuid thing.id)).insert Canon.kind (.symbol thing.kind)).insert
    Canon.fields (.map thing.fields.toList)).insert Canon.owner (.uuid thing.owner) |>.insert
    Canon.revision (.u64 thing.revision)

/-- The payload of an `EDGE_ADDED` event; it has no `FIELDS` when the edge has no properties. -/
def edgePayload (edge : GraphEdge) : Map :=
  let payload := (((∅ : Map).insert Canon.src (.uuid edge.src)).insert Canon.dst
    (.uuid edge.dst)).insert Canon.predicate (.text edge.pred) |>.insert Canon.owner
    (.uuid edge.owner)
  let payload :=
    if edge.props.isEmpty then payload
    else payload.insert Canon.fields (.map edge.props.toList)
  payload.insert Canon.revision (.u64 edge.revision)

def emitThingEvent (j : Journal) (now : ℕ) (thing : GraphThing) : Journal :=
  j.emitData now Canon.thingCreated (.map (thingPayload thing).toList)

def emitEdgeEvent (j : Journal) (now : ℕ) (edge : GraphEdge) : Journal :=
  j.emitData now Canon.edgeAdded (.map (edgePayload edge).toList)

open List

lemma emit_eq_push (j : Journal) (h : 0 < j.capacity) (e : Event) :
    j.emit e = { j with entries := BoundedQueue.push j.capacity j.entries e } := by
  simp only [emit, BoundedQueue.push, length_append, length_singleton, Nat.lt_succ_iff]
  split
  · rw [drop_append_of_le_length (by omega)]
  · rfl

/-- The journal keeps the most recent of the events it is given. -/
lemma run_emit_rtake (before events : List Event) {capacity : ℕ} (h : 0 < capacity) :
    run emit ⟨before.rtake capacity, capacity⟩ events
      = ⟨(before ++ events).rtake capacity, capacity⟩ := by
  induction events generalizing before with
  | nil => simp
  | cons e events ih =>
    rw [run_cons, emit_eq_push _ h, BoundedQueue.push_rtake before e h, ih, append_assoc,
      singleton_append]

/-! ## Import, export and replay -/

/-- The postcard format of a list of events, of which it is assumed that it reads what it wrote. -/
structure Codec where
  toAllocvec : List Event → Option (List UInt8)
  fromBytes : List UInt8 → Option (List Event)
  fromBytes_toAllocvec : ∀ events, ∀ buf ∈ toAllocvec events, fromBytes buf = some events

/-- The calls that change the journal. -/
inductive Request where
  | init
  | emit (e : Event)
  | importBytes (buf : List UInt8)

/-- `replay` through a visitor with a state of its own. -/
def replayThrough {σ : Type*} (j : Journal) (f : σ → Event → σ) (s : σ) : σ := run f s j.entries

namespace Codec

variable (codec : Codec)

def exportBytes (j : Journal) : Option (List UInt8) := codec.toAllocvec j.entries

/-- `import_bytes`, with whether the buffer could be read. -/
def importBytes (j : Journal) (buf : List UInt8) : Journal × Bool :=
  match codec.fromBytes buf with
  | some events => (run emit j events, true)
  | none => (j, false)

def handle (j : Journal) : Request → Journal
  | .init => { j with entries := [] }
  | .emit e => j.emit e
  | .importBytes buf => (codec.importBytes j buf).1

/-- The journal that a sequence of calls leaves, which the first of them creates. -/
def journal (calls : List Request) : Journal := run codec.handle (new journalCapacity) calls

def emitted (calls : List Request) : List Event :=
  run (fun events call => match call with
    | .init => []
    | .emit e => events ++ [e]
    | .importBytes buf => events ++ (codec.fromBytes buf).getD []) [] calls

lemma journal_eq (calls : List Request) :
    codec.journal calls = ⟨(codec.emitted calls).rtake journalCapacity, journalCapacity⟩ := by
  have hpos : 0 < journalCapacity := by decide
  induction calls using List.reverseRecOn with
  | nil => simp [journal, emitted, new]
  | append_singleton calls call ih =>
    rw [journal] at ih
    rw [journal, emitted, run_concat, run_concat, ih, ← emitted]
    cases call with
    | init => simp [handle]
    | emit e => simpa only [handle, run_cons, run_nil] using run_emit_rtake _ [e] hpos
    | importBytes buf =>
      simp only [handle, importBytes]
      cases codec.fromBytes buf with
      | none => simp
      | some events => exact run_emit_rtake _ events hpos

theorem journal_ring (calls : List Request) :
    (codec.journal calls).entries = (codec.emitted calls).rtake journalCapacity
      ∧ (∀ (σ : Type) (f : σ → Event → σ) (s : σ), (codec.journal calls).replayThrough f s
        = run f s ((codec.emitted calls).rtake journalCapacity))
      ∧ ∀ buf ∈ codec.exportBytes (codec.journal calls), ∀ calls',
        codec.importBytes (codec.journal (calls' ++ [.init])) buf
          = (codec.journal calls, true) := by
  have hentries : (codec.journal calls).entries
      = (codec.emitted calls).rtake journalCapacity := by rw [journal_eq]
  refine ⟨hentries, fun σ f s => by rw [replayThrough, hentries], ?_⟩
  intro buf hbuf calls'
  have hfresh : codec.journal (calls' ++ [.init])
      = ⟨List.rtake [] journalCapacity, journalCapacity⟩ := by
    simp only [journal_eq, emitted, run_concat]
  have hlen : (codec.journal calls).entries.length ≤ journalCapacity := by
    rw [hentries, List.rtake, length_drop]
    omega
  rw [importBytes, codec.fromBytes_toAllocvec _ buf hbuf]
  dsimp only
  rw [hfresh, run_emit_rtake _ _ (by decide), nil_append, List.rtake, Nat.sub_eq_zero_of_le hlen,
    drop_zero, hentries, ← journal_eq]

open Postcard (Reader u64 varint maxU64)

def encodeEvent (e : Event) : List UInt8 :=
  varint maxU64 e.timestamp ++ (encodeSymbol e.kind ++ encodeValue e.data)

def readEvent : Reader Event := do
  let timestamp ← u64
  let kind ← readSymbol
  let data ← readValue
  return { timestamp, kind, data }

/-- Postcard itself. Events that are none of the Rust type, which would not be read back, are not
written. -/
def postcard : Codec where
  toAllocvec events :=
    let buf := encodeSeq encodeEvent events
    if ThingOS.fromBytes (readSeq readEvent) buf = some events then some buf else none
  fromBytes := ThingOS.fromBytes (readSeq readEvent)
  fromBytes_toAllocvec events buf hbuf := by
    obtain ⟨hread, ⟨⟩⟩ := Option.ite_none_right_eq_some.mp hbuf
    exact hread

/-- A key is pressed and a Thing is created. -/
def twoEvents : List Request :=
  [.emit ⟨3, Canon.keyPressed, .text "a"⟩,
    .emit ⟨5, Canon.thingCreated, .map [(Canon.kind, .symbol Canon.style),
      (Canon.revision, .u64 300)]⟩]

theorem journal_ring_twoEvents :
    ∃ buf, postcard.exportBytes (postcard.journal twoEvents) = some buf
      ∧ (postcard.journal twoEvents).entries.length = 2
      ∧ postcard.importBytes (postcard.journal (twoEvents ++ [.init])) buf
        = (postcard.journal twoEvents, true) := by
  have hsome : (postcard.exportBytes (postcard.journal twoEvents)).isSome := by decide +kernel
  obtain ⟨buf, hbuf⟩ := Option.isSome_iff_exists.mp hsome
  exact ⟨buf, hbuf, rfl, (postcard.journal_ring twoEvents).2.2 buf hbuf twoEvents⟩

end Codec

end Journal

end ThingOS
