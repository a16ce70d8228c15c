import ThingOS.Kernel.Graph.Store

/-!
# Interrupt bindings and DMA mappings

A translation of the state machines of `kernel/src/drivers/irq_dma.rs`. Both ask the graph whether
the calling bundle holds the hardware capability before they hand out a handle; the store they ask
is a parameter here. The events that `dma_wait` declares are in `DmaCompletion`.
-/

namespace ThingOS

/-- `IrqHandle`, `DmaMappingHandle` and `DmaHandle` are all `u64`. -/
abbrev Handle := ℕ

/-- `handle.wrapping_add(1).max(1)`: the handle after this one, never zero. -/
def Handle.next (handle : Handle) : Handle := max ((handle + 1) % u64Size) 1

/-- A bundle's claim on an interrupt line of a device. -/
structure IrqBinding where
  handle : Handle
  bundle : BundleId
  device : Uuid
  irqLine : UInt8

structure IrqState where
  nextHandle : Handle
  bindings : List IrqBinding

namespace IrqState

def init : IrqState := ⟨1, []⟩

def bind (state : IrqState) (store : Store) (bundle : BundleId) (device : Uuid) (irqLine : UInt8) :
    IrqState × Option Handle :=
  if !store.hasCapability bundle device Canon.canHandleIrq then (state, none)
  else
    let handle := state.nextHandle
    ({ nextHandle := handle.next
       bindings := state.bindings ++ [{ handle, bundle, device, irqLine }] }, some handle)

lemma hasCapability_of_bind {state : IrqState} {store : Store} {bundle : BundleId} {device : Uuid}
    {irqLine : UInt8} (h : (state.bind store bundle device irqLine).2.isSome = true) :
    store.hasCapability bundle device Canon.canHandleIrq = true := by
  cases hcap : store.hasCapability bundle device Canon.canHandleIrq with
  | true => rfl
  | false => simp [bind, hcap] at h

end IrqState

/-- A buffer a bundle has mapped for DMA. -/
structure DmaMapping where
  handle : Handle
  bundle : BundleId
  buffer : Uuid
  flags : ℕ

inductive DmaStatus where
  | pending
  | complete
deriving DecidableEq

structure DmaSubmission where
  handle : Handle
  bundle : BundleId
  device : Uuid
  mapping : Handle
  bytes : ℕ
  status : DmaStatus

structure DmaState where
  nextMapping : Handle
  nextSubmit : Handle
  mappings : Std.ExtTreeMap Handle DmaMapping compare
  submissions : Std.ExtTreeMap Handle DmaSubmission compare

namespace DmaState

def init : DmaState := ⟨1, 1, ∅, ∅⟩

def map (state : DmaState) (store : Store) (bundle : BundleId) (buffer : Uuid) (flags : ℕ) :
    DmaState × Option Handle :=
  if !store.hasCapability bundle buffer Canon.canDma then (state, none)
  else
    let handle := state.nextMapping
    ({ state with
        nextMapping := handle.next
        mappings := state.mappings.insert handle { handle, bundle, buffer, flags } }, some handle)

def submit (state : DmaState) (store : Store) (bundle : BundleId) (device : Uuid)
    (mapping : Handle) (bytes : ℕ) : DmaState × Option Handle :=
  match state.mappings[mapping]? with
  | none => (state, none)
  | some m =>
    if m.bundle != bundle then (state, none)
    else if !store.hasCapability bundle device Canon.canDma then (state, none)
    else
      let handle := state.nextSubmit
      ({ state with
          nextSubmit := handle.next
          submissions := state.submissions.insert handle
            { handle, bundle, device, mapping := m.handle, bytes, status := .pending } },
        some handle)

def wait (state : DmaState) (bundle : BundleId) (handle : Handle) :
    DmaState × Option DmaSubmission :=
  match state.submissions[handle]? with
  | none => (state, none)
  | some submission =>
    if submission.bundle != bundle then (state, none)
    else
      let submission := { submission with status := .complete }
      ({ state with submissions := state.submissions.insert handle submission }, some submission)

lemma hasCapability_of_map {state : DmaState} {store : Store} {bundle : BundleId} {buffer : Uuid}
    {flags : ℕ} (h : (state.map store bundle buffer flags).2.isSome = true) :
    store.hasCapability bundle buffer Canon.canDma = true := by
  cases hcap : store.hasCapability bundle buffer Canon.canDma with
  | true => rfl
  | false => simp [map, hcap] at h

end DmaState

end ThingOS
