import ThingOS.Kernel.Graph.WatchIsolation
import ThingOS.Userland.FindByKind

/-!
# Polling a watch through the system call

`watch_poll` takes the pending changes out of the store, serialises them and only then looks at the
buffer it was given. When the batch cannot be serialised, or the buffer is no user memory or too
short, the changes are gone, although `copy_out_slice` answers with the length it would need.
-/

namespace ThingOS

namespace Store

variable (toAllocvec : GraphWatchBatch → Option (List UInt8))

def pending (s : Store) (id : WatchId) : List GraphChange :=
  (s.watches[id]?.map Watch.queue).getD []

/-- The bytes a poll has to hand over: none if nothing waits, otherwise the serialised batch, if the
serialiser makes one. -/
def pollBytes (s : Store) (id : WatchId) : Option (List UInt8) :=
  if s.pending id = [] then some []
  else toAllocvec { fromRevision := 0, latestRevision := s.nextRevision, changes := s.pending id }

/-- The batch does not reach the caller's buffer. -/
inductive PollFails (s : Store) (id : WatchId) (outPtr outLen : ℕ) : Prop
  | serialisation (h : s.pollBytes toAllocvec id = none)
  | invalid (h : validUserSlice outPtr outLen = false)
  | short (bytes : List UInt8) (hbytes : s.pollBytes toAllocvec id = some bytes)
      (h : outLen < bytes.length)

/-- If the poll fails, the same changes still wait, and a second one with a valid buffer that is
long enough hands them all over. -/
def KeepsPending (s : Store) (m : Memory) (id : WatchId) (outPtr outLen : ℕ) : Prop :=
  s.PollFails toAllocvec id outPtr outLen →
    let s' := (watchPoll toAllocvec s m id outPtr outLen).1
    s'.pending id = s.pending id
      ∧ ∀ m' outPtr' outLen' bytes, s.pollBytes toAllocvec id = some bytes →
        validUserSlice outPtr' outLen' = true → bytes.length ≤ outLen' →
        (watchPoll toAllocvec s' m' id outPtr' outLen').2
          = (m'.write outPtr' bytes, bytes.length)

variable {toAllocvec}

lemma pending_eq_nil_iff {s : Store} {id : WatchId} :
    s.pending id = [] ↔ ∀ owner, ¬ s.Pending id owner := by
  unfold pending Pending
  cases s.watches[id]? with
  | none => simp
  | some watch => simp

lemma exportWatchEvents_eq (s : Store) (id : WatchId) :
    (exportWatchEvents toAllocvec s id).2 = s.pollBytes toAllocvec id
      ∧ (exportWatchEvents toAllocvec s id).1 = (s.pollWatch id).1 := by
  unfold exportWatchEvents pollBytes pending pollWatch
  cases hwatch : s.watches[id]? with
  | none => simp
  | some watch =>
    cases hqueue : watch.queue with
    | nil => simp [hqueue]
    | cons change rest => simp [hqueue]

lemma pending_pollWatch (s : Store) (id : WatchId) : (s.pollWatch id).1.pending id = [] := by
  unfold pending
  rw [getElem?_pollWatch, if_pos rfl]
  cases s.watches[id]? <;> rfl

/-- Whatever comes of it, `watch_poll` leaves nothing pending. -/
lemma watchPoll_store (s : Store) (m : Memory) (id : WatchId) (outPtr outLen : ℕ) :
    (watchPoll toAllocvec s m id outPtr outLen).1 = (s.pollWatch id).1 := by
  rw [← (@exportWatchEvents_eq toAllocvec s id).2]
  unfold watchPoll
  rcases exportWatchEvents toAllocvec s id with ⟨s', _ | bytes⟩ <;> rfl

/-- With a valid buffer that is long enough, the bytes are copied out. -/
lemma watchPoll_of_fits {s : Store} {id : WatchId} {outPtr outLen : ℕ} {bytes : List UInt8}
    (hbytes : s.pollBytes toAllocvec id = some bytes)
    (hvalid : validUserSlice outPtr outLen = true) (hlen : bytes.length ≤ outLen) (m : Memory) :
    (watchPoll toAllocvec s m id outPtr outLen).2 = (m.write outPtr bytes, bytes.length) := by
  rw [← (exportWatchEvents_eq s id).1] at hbytes
  unfold watchPoll
  rcases h : exportWatchEvents toAllocvec s id with ⟨s', bytes'⟩
  rw [h] at hbytes
  subst hbytes
  simp [copyOutSlice, hvalid, Nat.not_lt.mpr hlen]

/-- A failed poll keeps the pending changes exactly if there were none. So the property holds of a
call exactly if nothing waits or the call does not fail: the serialiser makes a batch, and the
buffer is valid and long enough for it. -/
theorem failed_poll_keeps_pending (toAllocvec : GraphWatchBatch → Option (List UInt8)) (s : Store)
    (m : Memory) (id : WatchId) (outPtr outLen : ℕ) :
    s.KeepsPending toAllocvec m id outPtr outLen
      ↔ s.pending id = []
        ∨ ∃ bytes, s.pollBytes toAllocvec id = some bytes
          ∧ validUserSlice outPtr outLen = true ∧ bytes.length ≤ outLen := by
  constructor
  · intro h
    by_contra hcond
    rw [not_or] at hcond
    obtain ⟨hpending, hfits⟩ := hcond
    have hfails : s.PollFails toAllocvec id outPtr outLen := by
      cases hbytes : s.pollBytes toAllocvec id with
      | none => exact .serialisation hbytes
      | some bytes =>
        cases hvalid : validUserSlice outPtr outLen with
        | false => exact .invalid hvalid
        | true =>
          refine .short bytes hbytes ?_
          by_contra hlen
          exact hfits ⟨bytes, hbytes, hvalid, Nat.not_lt.mp hlen⟩
    have hkept := (h hfails).1
    rw [watchPoll_store, pending_pollWatch] at hkept
    exact hpending hkept.symm
  · rintro (hnil | ⟨bytes, hbytes, hvalid, hlen⟩) hfails
    · -- nothing waits, so the poll leaves the store alone
      have hsame : (watchPoll toAllocvec s m id outPtr outLen).1 = s := by
        rw [watchPoll_store, pollWatch_of_idle (pending_eq_nil_iff.mp hnil)]
      simp only [hsame, true_and]
      exact fun m' outPtr' outLen' bytes hbytes hvalid hlen =>
        watchPoll_of_fits hbytes hvalid hlen m'
    · cases hfails with
      | serialisation h => cases h.symm.trans hbytes
      | invalid h => cases h.symm.trans hvalid
      | short bytes' hbytes' h =>
        cases hbytes'.symm.trans hbytes
        exact absurd hlen (Nat.not_le.mpr h)

end Store

namespace GraphState

/-- A watch with one change waiting is polled with a buffer of sixteen bytes: the call answers with
the length it would need, and nothing is left to poll for. -/
theorem short_poll_loses :
    ¬ (reach crates watchedRun).store.KeepsPending (some ∘ encodeBatch) (fun _ => 0) 1 0x1000
      16 := by
  intro h
  have hbytes : ∃ bytes, (reach crates watchedRun).store.pollBytes (some ∘ encodeBatch) 1
      = some bytes ∧ 16 < bytes.length := by
    refine ⟨((reach crates watchedRun).store.pollBytes (some ∘ encodeBatch) 1).getD [], ?_, ?_⟩
    · decide +kernel
    · decide +kernel
  obtain ⟨bytes, hsome, hlong⟩ := hbytes
  have hkept := (h (.short bytes hsome hlong)).1
  rw [Store.watchPoll_store, Store.pending_pollWatch] at hkept
  exact absurd hkept (by decide +kernel)

end GraphState

/-! ## The client -/

def Memory.read (m : Memory) (ptr len : ℕ) : List UInt8 :=
  (List.range len).map fun i => m (ptr + i)

lemma Memory.read_write (m : Memory) (ptr : ℕ) (bytes : List UInt8) :
    (m.write ptr bytes).read ptr bytes.length = bytes := by
  apply List.ext_getElem
  · simp [read]
  · intro i hi hi'
    simp [read, write, hi']

/-- What a poll comes to in the client: its `AbiResponse::WatchEvents`, or a panic. -/
inductive ClientPoll where
  | panics
  | events (batch : GraphWatchBatch)

def emptyBatch : GraphWatchBatch := { fromRevision := 0, latestRevision := 0, changes := [] }

/-- `KernelRuntime::call` for `WatchPoll`, with the buffer at an address of the client's choice. The
answer is used to cut the batch out of the buffer. -/
def clientWatchPoll (toAllocvec : GraphWatchBatch → Option (List UInt8))
    (fromBytes : List UInt8 → Option GraphWatchBatch) (s : Store) (watchId bufPtr : ℕ) :
    Store × ClientPoll :=
  let (s, m, len) := watchPoll toAllocvec s (fun _ => 0) watchId bufPtr replyBufferSize
  if len = syscallFailed then (s, .events emptyBatch)
  else if replyBufferSize < len then (s, .panics)
  else (s, .events ((fromBytes (m.read bufPtr len)).getD emptyBatch))

end ThingOS
