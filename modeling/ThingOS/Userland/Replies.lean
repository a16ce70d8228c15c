import ThingOS.Userland.Runtime

/-!
# Replies of any size

Every call of `userland/src/runtime.rs` that asks the kernel for data has a buffer of fixed size: 4
KiB for a Thing and for properties, as in `get_props` of `bundle_std/src/graph.rs`, and 64 KiB for
queries, watches and pages. The kernel answers with the length of its reply also when it copied
nothing. Five of the six calls panic when that length is beyond the buffer. `FindByKind` stops at
the end of the buffer and decodes what it finds there.
-/

namespace ThingOS

open GraphState List

/-! ## One reply -/

/-- The call returns the answer, or the value it has for a failure. -/
def Answers {α : Type} (result : CallResult α) (answer failed : α) : Prop :=
  result = .value answer ∨ result = .value failed

lemma answers_receive_iff {α : Type} {size : ℕ} (buf : UserBuffer size)
    {reply : Option (List UInt8)} {answer failed : α} {decode : List UInt8 → α}
    (hdecode : ∀ bytes, reply = some bytes → decode bytes = answer) :
    Answers (receive buf reply failed decode) answer failed ↔ ¬ Overflows size reply := by
  rw [← receive_eq_panics_iff buf failed decode]
  constructor
  · rintro (h | h) hpanics <;> cases h.symm.trans hpanics
  · intro hpanics
    cases hreceive : receive buf reply failed decode with
    | panics => exact absurd hreceive hpanics
    | value a =>
      rcases receive_eq_value buf failed decode hreceive with rfl | ⟨bytes, hbytes, rfl⟩
      · exact Or.inr rfl
      · exact Or.inl (by rw [hdecode bytes hbytes])

def fetchThings (buf : UserBuffer replyBufferSize) (s : Store) (bundle : BundleId)
    (p : NodePattern) : CallResult (List GraphThing) :=
  receive buf (graphGet s bundle (encodeGetRequest (.pattern p))) []
    fun bytes => (fromBytes (readSeq readThing) bytes).getD []

/-- `KernelRuntime::call` for `PropsGet`. -/
def callPropsGet (buf : UserBuffer thingBufferSize) (s : Store) (bundle : BundleId)
    (request : GraphPropsGetRequest) : CallResult (Except String Map) :=
  receive buf (graphGetProps s bundle (encodePropsGetRequest request)) (.error "props get failed")
    fun bytes => .ok ((fromBytes readMap bytes).getD ∅)

/-- `bundle_std::graph::GraphError`. -/
inductive GraphError where
  | syscallFailed
  | serializationFailed
  | deserializationFailed

def BundleHandle.getProps (buf : UserBuffer thingBufferSize) (s : Store) (bundle : BundleId)
    (thing : Uuid) : CallResult (Except GraphError Map) :=
  receive buf (graphGetProps s bundle (encodePropsGetRequest ⟨thing, []⟩)) (.error .syscallFailed)
    fun bytes => match fromBytes readMap bytes with
      | some props => .ok props
      | none => .error .deserializationFailed

/-! ### What the kernel answers -/

section Answers

variable {s : Store} {bundle : BundleId}

def visibleThing (s : Store) (bundle : BundleId) (id : Uuid) : Option GraphThing :=
  if s.canRead bundle id then s.latest id else none

lemma answers_fetchThing_iff (h : s.Typed) (buf : UserBuffer thingBufferSize) (id : Uuid) :
    Answers (fetchThing buf s bundle id) (visibleThing s bundle id) none
      ↔ ¬ Overflows thingBufferSize (exportThingBytes s bundle id) := by
  rw [fetchThing, graphGet_thing]
  refine answers_receive_iff buf fun bytes hbytes => ?_
  unfold exportThingBytes at hbytes
  unfold visibleThing
  cases hread : s.canRead bundle id with
  | false => simp [hread] at hbytes
  | true =>
    simp only [hread, Bool.not_true, Bool.false_eq_true, if_false] at hbytes
    obtain ⟨thing, hthing, rfl⟩ := Option.map_eq_some_iff.mp hbytes
    rw [fromBytes_of_reads (reads_thing (h.latest id thing hthing)), if_pos rfl, hthing]

lemma answers_fetchThings_iff (h : s.Typed) (buf : UserBuffer replyBufferSize) {p : NodePattern}
    (hp : p.WellFormed) :
    Answers (fetchThings buf s bundle p) (s.getNodes bundle p) []
      ↔ ¬ Overflows replyBufferSize (some (encodeSeq encodeThing (s.getNodes bundle p))) := by
  rw [fetchThings, graphGet_pattern s bundle hp]
  refine answers_receive_iff buf fun bytes hbytes => ?_
  cases hbytes
  rw [fromBytes_of_reads (h.reads_getNodes p)]
  rfl

/-- The properties that a bundle gets, with its own error when it gets none. -/
def visibleProps {ε : Type} (s : Store) (bundle : BundleId) (request : GraphPropsGetRequest)
    (error : ε) : Except ε Map :=
  match s.getProps bundle request with
  | some props => .ok props
  | none => .error error

section

variable (h : s.Typed) (buf : UserBuffer thingBufferSize)
include h

lemma answers_propsGet_iff {ε : Type}
    {request : GraphPropsGetRequest} (hrequest : request.keys.length < 2 ^ 64) (error : ε)
    {decode : List UInt8 → Except ε Map}
    (hdecode : ∀ bytes props, fromBytes readMap bytes = some props → decode bytes = .ok props) :
    Answers (receive buf (graphGetProps s bundle (encodePropsGetRequest request)) (.error error)
        decode) (visibleProps s bundle request error) (.error error)
      ↔ ¬ Overflows thingBufferSize ((s.getProps bundle request).map encodeMap) := by
  rw [graphGetProps_eq s bundle hrequest]
  refine answers_receive_iff buf fun bytes hbytes => ?_
  obtain ⟨props, hprops, rfl⟩ := Option.map_eq_some_iff.mp hbytes
  rw [hdecode _ props (fromBytes_of_reads (reads_map (h.wellFormed_getProps hprops))),
    visibleProps, hprops]

lemma answers_getProps_iff (thing : Uuid) :
    Answers (BundleHandle.getProps buf s bundle thing)
        (visibleProps s bundle ⟨thing, []⟩ .syscallFailed) (.error .syscallFailed)
      ↔ ¬ Overflows thingBufferSize ((s.getProps bundle ⟨thing, []⟩).map encodeMap) := by
  have hkeys : (⟨thing, []⟩ : GraphPropsGetRequest).keys.length < 2 ^ 64 := Nat.two_pow_pos 64
  exact answers_propsGet_iff h buf hkeys _ fun _ _ hbytes => by rw [hbytes]

end

/-! ### Watches -/

/-- The batch that is polled: the changes that wait, if any do. -/
def pendingBatch (s : Store) (id : WatchId) : GraphWatchBatch :=
  if s.pending id = [] then emptyBatch
  else { fromRevision := 0, latestRevision := s.nextRevision, changes := s.pending id }

lemma clientWatchPoll_eq (buf : UserBuffer replyBufferSize) (s : Store) (id : WatchId) :
    (clientWatchPoll (some ∘ encodeBatch) (fromBytes readBatch) s id buf.ptr).2
      = match receive buf (s.pollBytes (some ∘ encodeBatch) id) emptyBatch
          (fun bytes => (fromBytes readBatch bytes).getD emptyBatch) with
        | .panics => .panics
        | .value batch => .events batch := by
  have hbytes : (exportWatchEvents (some ∘ encodeBatch) s id).2
      = s.pollBytes (some ∘ encodeBatch) id :=
    (Store.exportWatchEvents_eq s id).1
  unfold clientWatchPoll watchPoll receive cutReply
  rw [← hbytes]
  rcases exportWatchEvents (some ∘ encodeBatch) s id with ⟨s', _ | bytes⟩
  · simp [CallResult.map]
  · dsimp only
    split
    · rfl
    · split <;> rfl

lemma Store.Typed.reads_pending (h : s.Typed) {id : WatchId} {bytes : List UInt8}
    (hbytes : s.pollBytes (some ∘ encodeBatch) id = some bytes) :
    (fromBytes readBatch bytes).getD emptyBatch = pendingBatch s id := by
  unfold Store.pollBytes at hbytes
  unfold pendingBatch
  split at hbytes
  · rename_i hnil
    cases hbytes
    rw [if_pos hnil]
    rfl
  · rename_i hne
    cases hbytes
    have hqueue : (s.pending id).length < 2 ^ 64 ∧ ∀ change ∈ s.pending id, change.WellFormed := by
      unfold Store.pending at hne ⊢
      cases hwatch : s.watches[id]? with
      | none => simp [hwatch] at hne
      | some watch => exact h.queues id watch hwatch
    have hbatch : GraphWatchBatch.WellFormed ⟨0, s.nextRevision, s.pending id⟩ :=
      ⟨Nat.two_pow_pos 64, h.nextRevision, hqueue.1, hqueue.2⟩
    rw [if_neg hne, fromBytes_of_reads (reads_batch hbatch)]
    rfl

/-- The poll returns the batch, or an empty one for a failure. -/
def PollAnswers (poll : ClientPoll) (batch : GraphWatchBatch) : Prop :=
  poll = .events batch ∨ poll = .events emptyBatch

lemma answers_clientWatchPoll_iff (h : s.Typed) (buf : UserBuffer replyBufferSize)
    (id : WatchId) :
    PollAnswers (clientWatchPoll (some ∘ encodeBatch) (fromBytes readBatch) s id buf.ptr).2
        (pendingBatch s id)
      ↔ ¬ Overflows replyBufferSize (s.pollBytes (some ∘ encodeBatch) id) := by
  have hanswers : Answers (receive buf (s.pollBytes (some ∘ encodeBatch) id) emptyBatch
      fun bytes => (fromBytes readBatch bytes).getD emptyBatch) (pendingBatch s id) emptyBatch
        ↔ ¬ Overflows replyBufferSize (s.pollBytes (some ∘ encodeBatch) id) :=
    answers_receive_iff buf fun bytes hbytes => h.reads_pending hbytes
  rw [← hanswers, clientWatchPoll_eq, PollAnswers, Answers]
  cases receive buf (s.pollBytes (some ∘ encodeBatch) id) emptyBatch
      (fun bytes => (fromBytes readBatch bytes).getD emptyBatch) with
  | panics => simp
  | value batch => simp

end Answers

/-! ## Pages -/

/-- The Things that are read behind a header. One that cannot be read is passed over, and the next
is tried at the same place. -/
def takeThings : (count : ℕ) → List UInt8 → List GraphThing
  | 0, _ => []
  | count + 1, bytes =>
    match readThing bytes with
    | some (thing, rest) => thing :: takeThings count rest
    | none => takeThings count bytes

/-- The reply of the kernel to one round, and the bytes that the client decoded for it. -/
structure FindRound where
  reply : List UInt8
  decoded : List UInt8

/-- What `FindByKind` returns, and the rounds it took. -/
structure FindResult where
  things : List GraphThing
  nextCursor : Option ℕ
  rounds : List FindRound

/-- `(next != 0).then_some(next)`. -/
def cursorOf (next : ℕ) : Option ℕ := if next = 0 then none else some next

/-- The loop of `KernelRuntime::call` for `FindByKind` over the bytes in its buffer, which is filled
with zeros once and used for every round. `ask` is the kernel's answer, by the number of rounds
before and the cursor. -/
def findRounds (buf : UserBuffer replyBufferSize) (ask : ℕ → ℕ → FindAnswer) :
    (fuel next : ℕ) → Memory → (results : List GraphThing) → (rounds : List FindRound) →
      Option FindResult
  | 0, _, _, _, _ => none
  | fuel + 1, next, m, results, rounds =>
    match ask rounds.length next with
    | .fault => none
    | .refused => some ⟨results, cursorOf next, rounds⟩
    | .page things nextCursor =>
      let reply := exportFindByKindBytes things nextCursor
      let (m, written) := copyOutSlice reply m buf.ptr replyBufferSize
      if written = syscallFailed then some ⟨results, cursorOf next, rounds⟩
      else
        let slice := m.read buf.ptr (min written replyBufferSize)
        let rounds := rounds ++ [⟨reply, slice⟩]
        match readHeader slice with
        | none => some ⟨results, cursorOf next, rounds⟩
        | some (header, rest) =>
          let results := results ++ takeThings header.count rest
          if header.nextCursor = 0 then some ⟨results, none, rounds⟩
          else findRounds buf ask fuel header.nextCursor m results rounds

/-- The kernel's answers from a round on, following its own cursors, and every page as `ok` says:
their Things and the cursor that is left. -/
inductive Served (ask : ℕ → ℕ → FindAnswer) (ok : List GraphThing → ℕ → Prop) :
    (round next : ℕ) → List GraphThing → Option ℕ → Prop
  | refused {round next : ℕ} (h : ask round next = .refused) :
      Served ask ok round next [] (cursorOf next)
  | last {round next : ℕ} {things : List GraphThing} (h : ask round next = .page things 0)
      (hok : ok things 0) : Served ask ok round next things none
  | more {round next nextCursor : ℕ} {things rest : List GraphThing} {left : Option ℕ}
      (h : ask round next = .page things nextCursor) (hmore : nextCursor ≠ 0)
      (hok : ok things nextCursor) (hrest : Served ask ok (round + 1) nextCursor rest left) :
      Served ask ok round next (things ++ rest) left

def PageFits (things : List GraphThing) (nextCursor : ℕ) : Prop :=
  (exportFindByKindBytes things nextCursor).length ≤ replyBufferSize

/-- The call returns, every round decodes the reply of that round, and the Things are those of the
kernel's answers. -/
def FindExact (buf : UserBuffer replyBufferSize) (ask : ℕ → ℕ → FindAnswer) (cursor : ℕ) : Prop :=
  ∃ fuel result, findRounds buf ask fuel cursor (fun _ => 0) [] [] = some result
    ∧ (∀ round ∈ result.rounds, round.decoded = round.reply)
    ∧ Served ask (fun _ _ => True) 0 cursor result.things result.nextCursor

/-- The page is one of the Rust types, and its reply a vector. -/
structure PageTyped (things : List GraphThing) (nextCursor : ℕ) : Prop where
  wellFormed : ∀ thing ∈ things, thing.WellFormed
  length : things.length < 2 ^ 32
  cursor : nextCursor < 2 ^ 64
  reply : (exportFindByKindBytes things nextCursor).length < syscallFailed

lemma takeThings_flatMap {things : List GraphThing} (h : ∀ thing ∈ things, thing.WellFormed)
    (rest : List UInt8) :
    takeThings things.length (things.flatMap encodeThing ++ rest) = things := by
  induction things with
  | nil => rfl
  | cons thing things ih =>
    have hread := (reads_thing (h thing mem_cons_self)) (things.flatMap encodeThing ++ rest)
    rw [length_cons, takeThings, flatMap_cons, append_assoc, hread]
    exact congrArg _ (ih fun thing hthing => h thing (mem_cons_of_mem _ hthing))

lemma PageTyped.read {things : List GraphThing} {nextCursor : ℕ} (h : PageTyped things nextCursor)
    (rest : List UInt8) :
    ∃ behind, readHeader (exportFindByKindBytes things nextCursor ++ rest)
        = some (⟨nextCursor, things.length⟩, behind)
      ∧ takeThings things.length behind = things := by
  refine ⟨things.flatMap encodeThing ++ rest, ?_, takeThings_flatMap h.wellFormed rest⟩
  rw [exportFindByKindBytes, Nat.mod_eq_of_lt h.length, append_assoc]
  exact reads_header h.cursor h.length _

variable {result : FindResult}

section Rounds

variable {buf : UserBuffer replyBufferSize} {ask : ℕ → ℕ → FindAnswer} {fuel next nextCursor : ℕ}
  {m : Memory} {results things : List GraphThing} {rounds : List FindRound}

lemma findRounds_of_fits (h : ask rounds.length next = .page things nextCursor)
    (htyped : PageTyped things nextCursor) (hfits : PageFits things nextCursor) :
    let reply := exportFindByKindBytes things nextCursor
    findRounds buf ask (fuel + 1) next m results rounds
      = if nextCursor = 0 then some ⟨results ++ things, none, rounds ++ [⟨reply, reply⟩]⟩
        else findRounds buf ask fuel nextCursor (m.write buf.ptr reply) (results ++ things)
          (rounds ++ [⟨reply, reply⟩]) := by
  obtain ⟨behind, hheader, hthings⟩ := htyped.read []
  have hsize := htyped.reply.ne
  rw [findRounds, h]
  dsimp only
  rw [append_nil] at hheader
  rw [PageFits] at hfits
  generalize exportFindByKindBytes things nextCursor = reply at hheader hsize hfits
  have hcopy : copyOutSlice reply m buf.ptr replyBufferSize
      = (m.write buf.ptr reply, reply.length) := by
    simp only [copyOutSlice, buf.valid, Bool.not_true, Bool.false_eq_true, if_false,
      Nat.not_lt.mpr hfits]
  simp only [hcopy, hsize, if_false, min_eq_left hfits, Memory.read_write, hheader, hthings]

lemma rounds_of_findRounds (h : findRounds buf ask fuel next m results rounds = some result) :
    rounds <+: result.rounds := by
  induction fuel generalizing next m results rounds with
  | zero => cases h
  | succ fuel ih =>
    rw [findRounds] at h
    split at h
    · cases h
    · cases h
      exact prefix_rfl
    · dsimp only at h
      split at h
      · cases h
        exact prefix_rfl
      · split at h
        · cases h
          exact prefix_append _ _
        · split at h
          · cases h
            exact prefix_append _ _
          · exact (prefix_append _ _).trans (ih h)

/-- For a page that does not fit, the whole buffer is decoded, whatever it holds. -/
lemma exists_round_of_long (h : ask rounds.length next = .page things nextCursor)
    (htyped : PageTyped things nextCursor) (hlong : ¬ PageFits things nextCursor)
    (hresult : findRounds buf ask (fuel + 1) next m results rounds = some result) :
    ∃ round ∈ result.rounds, round.decoded ≠ round.reply := by
  have hsize := htyped.reply.ne
  rw [findRounds, h] at hresult
  dsimp only at hresult
  rw [PageFits] at hlong
  generalize exportFindByKindBytes things nextCursor = reply at hresult hsize hlong
  have hcopy : copyOutSlice reply m buf.ptr replyBufferSize = (m, reply.length) := by
    simp only [copyOutSlice, buf.valid, Bool.not_true, Bool.false_eq_true, if_false,
      Nat.not_le.mp hlong, if_true]
  simp only [hcopy, hsize, if_false] at hresult
  -- the slice is as long as the buffer, so it is not the reply
  have hne : m.read buf.ptr (min reply.length replyBufferSize) ≠ reply := by
    intro heq
    have hlength := congrArg List.length heq
    rw [Memory.read, length_map, length_range] at hlength
    omega
  refine ⟨⟨reply, _⟩, ?_, hne⟩
  have hmem : (⟨reply, m.read buf.ptr (min reply.length replyBufferSize)⟩ : FindRound)
      ∈ rounds ++ [⟨reply, m.read buf.ptr (min reply.length replyBufferSize)⟩] := by
    simp
  split at hresult
  · cases hresult
    exact hmem
  · split at hresult
    · cases hresult
      exact hmem
    · exact (rounds_of_findRounds hresult).subset hmem

/-- A loop that returns and decodes the replies of its rounds was served pages that fit. -/
lemma served_of_findRounds
    (htyped : ∀ i c things n, ask i c = .page things n → PageTyped things n)
    (h : findRounds buf ask fuel next m results rounds = some result)
    (hexact : ∀ round ∈ result.rounds, round.decoded = round.reply) :
    ∃ served, Served ask PageFits rounds.length next served result.nextCursor
      ∧ result.things = results ++ served := by
  induction fuel generalizing next m results rounds with
  | zero => cases h
  | succ fuel ih =>
    cases hask : ask rounds.length next with
    | fault =>
      rw [findRounds, hask] at h
      cases h
    | refused =>
      rw [findRounds, hask] at h
      cases h
      exact ⟨[], .refused hask, (append_nil _).symm⟩
    | page things n =>
      have htyped' := htyped _ _ _ _ hask
      by_cases hfits : PageFits things n
      · rw [findRounds_of_fits hask htyped' hfits] at h
        split at h
        · rename_i hlast
          subst hlast
          cases h
          exact ⟨things, .last hask hfits, rfl⟩
        · rename_i hmore
          obtain ⟨served, hserved, hthings⟩ := ih h
          rw [length_append, length_singleton] at hserved
          exact ⟨things ++ served, .more hask hmore hfits hserved, by
            rw [hthings, append_assoc]⟩
      · obtain ⟨round, hround, hne⟩ := exists_round_of_long hask htyped' hfits h
        exact absurd (hexact round hround) hne

/-- Pages that fit and come to an end are returned. -/
lemma findRounds_of_served {served : List GraphThing} {left : Option ℕ} {round : ℕ}
    (htyped : ∀ i c things n, ask i c = .page things n → PageTyped things n)
    (h : Served ask PageFits round next served left) (hround : round = rounds.length)
    (hexact : ∀ round ∈ rounds, round.decoded = round.reply) :
    ∃ fuel result, findRounds buf ask fuel next m results rounds = some result
      ∧ (∀ round ∈ result.rounds, round.decoded = round.reply)
      ∧ result.things = results ++ served ∧ result.nextCursor = left := by
  induction h generalizing m results rounds with
  | refused hask =>
    subst hround
    exact ⟨1, _, by rw [findRounds, hask], hexact, (append_nil _).symm, rfl⟩
  | last hask hfits =>
    subst hround
    exact ⟨1, _, by rw [findRounds_of_fits hask (htyped _ _ _ _ hask) hfits, if_pos rfl],
      forall_mem_concat.mpr ⟨hexact, rfl⟩, rfl, rfl⟩
  | @more round next nextCursor things rest left hask hmore hfits hrest ih =>
    subst hround
    let reply := exportFindByKindBytes things nextCursor
    obtain ⟨fuel, result, hresult, hrounds, hthings, hleft⟩ :=
      @ih (m.write buf.ptr reply) (results ++ things) (rounds ++ [⟨reply, reply⟩]) (by simp)
        (forall_mem_concat.mpr ⟨hexact, rfl⟩)
    refine ⟨fuel + 1, result, ?_, hrounds, by rw [hthings, append_assoc], hleft⟩
    rw [findRounds_of_fits hask (htyped _ _ _ _ hask) hfits, if_neg hmore]
    exact hresult

end Rounds

lemma Served.mono {ask : ℕ → ℕ → FindAnswer} {ok ok' : List GraphThing → ℕ → Prop}
    (hok : ∀ things n, ok things n → ok' things n) {round next : ℕ} {things : List GraphThing}
    {left : Option ℕ} (h : Served ask ok round next things left) :
    Served ask ok' round next things left := by
  induction h with
  | refused hask => exact .refused hask
  | last hask h => exact .last hask (hok _ _ h)
  | more hask hmore h _ ih => exact .more hask hmore (hok _ _ h) ih

lemma findExact_iff {buf : UserBuffer replyBufferSize} {ask : ℕ → ℕ → FindAnswer}
    (htyped : ∀ i c things n, ask i c = .page things n → PageTyped things n) (cursor : ℕ) :
    FindExact buf ask cursor ↔ ∃ things left, Served ask PageFits 0 cursor things left := by
  constructor
  · rintro ⟨fuel, result, hresult, hexact, -⟩
    obtain ⟨served, hserved, -⟩ := served_of_findRounds htyped hresult hexact
    exact ⟨served, _, hserved⟩
  · rintro ⟨things, left, hserved⟩
    obtain ⟨fuel, result, hresult, hexact, hthings, rfl⟩ :=
      @findRounds_of_served buf ask cursor (fun _ => 0) [] [] _ _ _ htyped hserved rfl (by simp)
    rw [nil_append] at hthings
    refine ⟨fuel, result, hresult, hexact, ?_⟩
    rw [hthings]
    exact hserved.mono fun _ _ _ => trivial

/-- The kernel's answers to the rounds of a call. The store and the client's memory may change
between them. -/
def findAnswers (stores : ℕ → Store) (bundle : BundleId)
    (peek : ℕ → ℕ → ℕ → Option (List UInt8)) (kindPtr kindLen round next : ℕ) : FindAnswer :=
  graphFindByKind (stores round) bundle (peek round)
    (GraphFindByKind.rawBytes ⟨kindPtr, kindLen, next⟩)

lemma pageTyped_findAnswers {stores : ℕ → Store} (hstores : ∀ i, (stores i).Typed)
    {bundle : BundleId} {peek : ℕ → ℕ → ℕ → Option (List UInt8)} {kindPtr kindLen round next : ℕ}
    {things : List GraphThing} {nextCursor : ℕ}
    (h : findAnswers stores bundle peek kindPtr kindLen round next = .page things nextCursor)
    (hreply : (exportFindByKindBytes things nextCursor).length < syscallFailed) :
    PageTyped things nextCursor := by
  obtain ⟨request, kind, -, hpage⟩ := graphFindByKind_page h
  have hlength := (stores round).length_findByKind_le bundle kind request.cursor
  have hcursor := (hstores round).findByKind_next_lt bundle kind request.cursor
  have hthings : ∀ thing ∈ ((stores round).findByKind bundle kind request.cursor).1,
      thing.WellFormed := fun thing hthing => (hstores round).wellFormed_findByKind hthing
  rw [hpage] at hlength hcursor hthings
  exact ⟨hthings, hlength.trans_lt (by decide), hcursor, hreply⟩

/-! ## All calls -/

/-- A call with one reply returns the kernel's answer or its own value for a failure exactly if the
reply fits its buffer; what it decodes is then the reply. A query by kind returns the kernel's
answer exactly if the kernel's pages come to an end and every one of them fits the buffer. -/
theorem replies_exact_iff (s : Store) (hs : s.Typed) (bundle : BundleId)
    (small : UserBuffer thingBufferSize) (large : UserBuffer replyBufferSize) :
    (∀ id, Answers (fetchThing small s bundle id) (visibleThing s bundle id) none
        ↔ ¬ Overflows thingBufferSize (exportThingBytes s bundle id))
      ∧ (∀ p : NodePattern, p.WellFormed →
        (Answers (fetchThings large s bundle p) (s.getNodes bundle p) []
          ↔ ¬ Overflows replyBufferSize (some (encodeSeq encodeThing (s.getNodes bundle p)))))
      ∧ (∀ request : GraphPropsGetRequest, request.keys.length < 2 ^ 64 →
        (Answers (callPropsGet small s bundle request)
            (visibleProps s bundle request "props get failed") (.error "props get failed")
          ↔ ¬ Overflows thingBufferSize ((s.getProps bundle request).map encodeMap)))
      ∧ (∀ thing, Answers (BundleHandle.getProps small s bundle thing)
          (visibleProps s bundle ⟨thing, []⟩ .syscallFailed) (.error .syscallFailed)
        ↔ ¬ Overflows thingBufferSize ((s.getProps bundle ⟨thing, []⟩).map encodeMap))
      ∧ (∀ id, PollAnswers
          (clientWatchPoll (some ∘ encodeBatch) (fromBytes readBatch) s id large.ptr).2
          (pendingBatch s id)
        ↔ ¬ Overflows replyBufferSize (s.pollBytes (some ∘ encodeBatch) id))
      ∧ (∀ (size : ℕ) (buf : UserBuffer size) reply bytes,
        cutReply buf reply = .value (some bytes) → reply = some bytes)
      ∧ ∀ (stores : ℕ → Store) (peek : ℕ → ℕ → ℕ → Option (List UInt8))
          (kindPtr kindLen cursor : ℕ),
        (∀ i, (stores i).Typed) →
        let ask := findAnswers stores bundle peek kindPtr kindLen
        (∀ i c things n, ask i c = .page things n →
          (exportFindByKindBytes things n).length < syscallFailed) →
        (FindExact large ask cursor
          ↔ ∃ things left, Served ask PageFits 0 cursor things left) :=
  ⟨answers_fetchThing_iff hs small, fun _ hp => answers_fetchThings_iff hs large hp,
    fun _ hrequest => answers_propsGet_iff hs small hrequest _ fun _ _ hbytes => by
      rw [hbytes]
      rfl,
    answers_getProps_iff hs small, answers_clientWatchPoll_iff hs large,
    fun _ buf _ _ => of_cutReply buf,
    fun _ _ _ _ cursor hstores hreply => findExact_iff
      (fun i c things n h => pageTyped_findAnswers hstores h (hreply i c things n h)) cursor⟩

def loneThing : GraphThing := ⟨7#128, Canon.package, ∅, ∅, kernelBundleId, 1⟩

def loneStore : Store := Store.new.insertThing loneThing

lemma typed_loneStore : loneStore.Typed := by
  have hkeeps : Store.new.KeepsThing loneThing := by
    intro prev hprev
    cases hprev
  refine ⟨fun id thing hthing => ?_, by decide +kernel, fun k => ?_, by decide +kernel, ?_⟩
  · rw [Store.latest_eq_getLast?, loneStore, Store.versions_insertThing_of_keeps hkeeps] at hthing
    split at hthing
    · cases hthing
      exact ⟨by decide +kernel, wellFormed_empty, by decide⟩
    · cases hthing
  · have hempty : Store.new.kindIds k = ∅ := by simp [Store.kindIds, Store.new]
    rw [loneStore, Store.kindIds_insertThing_of_keeps hkeeps, hempty]
    split <;> decide +kernel
  · intro id watch hwatch
    rw [loneStore, Store.insertThing_watches] at hwatch
    simp [Store.new] at hwatch

theorem replies_exact_iff_loneStore :
    Answers (fetchThing lowBuffer loneStore kernelBundleId 7#128) (some loneThing) none := by
  have hanswers := (replies_exact_iff loneStore typed_loneStore kernelBundleId lowBuffer
    ⟨0x20000, by decide⟩).1 7#128
  have hvisible : visibleThing loneStore kernelBundleId 7#128 = some loneThing := by decide +kernel
  rw [hvisible] at hanswers
  refine hanswers.mpr ?_
  rintro ⟨bytes, hbytes, hlong, -⟩
  have hlength : (exportThingBytes loneStore kernelBundleId 7#128).map List.length = some 41 := by
    decide +kernel
  rw [Option.mem_def.mp hbytes] at hlength
  rw [Option.some.inj hlength] at hlong
  exact absurd hlong (by decide)

/-- The kernel declares a Thing with 4 KiB of bytes in it. -/
def declareLarge : Call :=
  ⟨kernelBundleId, 0, .fiat ⟨some 7#128, Canon.package, [],
    (∅ : Map).insert Canon.bytes (.bytes (List.replicate 4096 0))⟩⟩

theorem get_panics :
    fetchThing lowBuffer (reach crates [declareLarge]).store kernelBundleId 7#128 = .panics := by
  have hlength : (exportThingBytes (reach crates [declareLarge]).store kernelBundleId
      7#128).map List.length = some 4170 := by
    decide +kernel
  rw [fetchThing, receive_eq_panics_iff, graphGet_thing]
  obtain ⟨bytes, hbytes, hlength⟩ := Option.map_eq_some_iff.mp hlength
  exact ⟨bytes, hbytes, by rw [hlength]; decide, by rw [hlength]; decide⟩

end ThingOS
