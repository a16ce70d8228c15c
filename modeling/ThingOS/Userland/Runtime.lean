import ThingOS.Kernel.GraphCalls
import ThingOS.Userland.WatchPoll
import ThingOS.Userland.Wire

/-!
# The system-call runtime

`KernelRuntime::call` of `userland/src/runtime.rs`. A call that asks for data hands the kernel a
buffer of fixed size and cuts the reply out of it, with the answer for its length. A call that
writes makes up its response from its own request, the answer, and for a Thing from what it then
finds under the id. The kernel answers with a revision or with `!0`, and the runtime does not look
which.
-/

namespace ThingOS

open GraphState Store

/-! ## Replies -/

/-- A buffer of the client's lies in user memory. -/
structure UserBuffer (size : ℕ) where
  ptr : ℕ
  valid : validUserSlice ptr size = true

/-- What a call comes to in the client. -/
inductive CallResult (α : Type) where
  | panics
  | value (a : α)
deriving DecidableEq

def CallResult.map {α β : Type} (f : α → β) : CallResult α → CallResult β
  | panics => panics
  | value a => value (f a)

lemma CallResult.map_eq_panics_iff {α β : Type} (f : α → β) (result : CallResult α) :
    result.map f = .panics ↔ result = .panics := by
  cases result <;> simp [CallResult.map]

/-- How every call takes a reply: a buffer of zeros goes to the system call, `!0` is a failure, and
the reply is the part of the buffer that the answer says, cut out by `&buf[..len as usize]`. -/
def cutReply {size : ℕ} (buf : UserBuffer size) (reply : Option (List UInt8)) :
    CallResult (Option (List UInt8)) :=
  let (m, len) : Memory × ℕ := match reply with
    | none => (fun _ => 0, syscallFailed)
    | some bytes => copyOutSlice bytes (fun _ => 0) buf.ptr size
  if len = syscallFailed then .value none
  else if size < len then .panics
  else .value (some (m.read buf.ptr len))

def receive {α : Type} {size : ℕ} (buf : UserBuffer size) (reply : Option (List UInt8)) (failed : α)
    (decode : List UInt8 → α) : CallResult α :=
  (cutReply buf reply).map fun cut => (cut.map decode).getD failed

/-- The reply is longer than the buffer. Its length must not pass for a failure. -/
def Overflows (size : ℕ) (reply : Option (List UInt8)) : Prop :=
  ∃ bytes ∈ reply, size < bytes.length ∧ bytes.length ≠ syscallFailed

section Receive

variable {size : ℕ} (buf : UserBuffer size)

@[simp] lemma cutReply_none : cutReply buf none = .value none := by
  simp [cutReply]

lemma cutReply_some (bytes : List UInt8) :
    cutReply buf (some bytes)
      = if bytes.length = syscallFailed then .value none
        else if size < bytes.length then .panics
        else .value (some bytes) := by
  have hlen : (copyOutSlice bytes (fun _ => 0) buf.ptr size).2 = bytes.length := by
    unfold copyOutSlice
    repeat' split
    all_goals rfl
  have hread : ¬ size < bytes.length →
      (copyOutSlice bytes (fun _ => 0) buf.ptr size).1.read buf.ptr bytes.length = bytes := by
    intro hfits
    simp only [copyOutSlice, buf.valid, Bool.not_true, Bool.false_eq_true, if_false, hfits]
    exact Memory.read_write _ _ _
  unfold cutReply
  simp only [hlen]
  split
  · rfl
  · split
    · rfl
    · rename_i hfits
      rw [hread hfits]

/-- A call panics on a reply that is longer than its buffer, and on no other. -/
lemma cutReply_eq_panics_iff (reply : Option (List UInt8)) :
    cutReply buf reply = .panics ↔ Overflows size reply := by
  cases reply with
  | none => simp [Overflows]
  | some bytes =>
    grind [cutReply_some, Overflows]

lemma of_cutReply {reply : Option (List UInt8)} {bytes : List UInt8}
    (h : cutReply buf reply = .value (some bytes)) : reply = some bytes := by
  cases reply with
  | none =>
    rw [cutReply_none] at h
    cases h
  | some sent =>
    rw [cutReply_some] at h
    split at h
    · cases h
    · split at h
      · cases h
      · cases h
        rfl

variable {α : Type} (failed : α) (decode : List UInt8 → α)

lemma receive_eq_panics_iff (reply : Option (List UInt8)) :
    receive buf reply failed decode = .panics ↔ Overflows size reply := by
  rw [receive, CallResult.map_eq_panics_iff, cutReply_eq_panics_iff]

/-- A value is the failure, or what the reply decodes to. -/
lemma receive_eq_value {reply : Option (List UInt8)} {a : α}
    (h : receive buf reply failed decode = .value a) :
    a = failed ∨ ∃ bytes, reply = some bytes ∧ a = decode bytes := by
  unfold receive at h
  cases hcut : cutReply buf reply with
  | panics =>
    rw [hcut] at h
    cases h
  | value cut =>
    rw [hcut] at h
    cases cut with
    | none =>
      cases h
      exact .inl rfl
    | some bytes =>
      cases h
      exact .inr ⟨bytes, of_cutReply buf hcut, rfl⟩

end Receive

def thingBufferSize : ℕ := 4096

def fetchThing (buf : UserBuffer thingBufferSize) (s : Store) (bundle : BundleId) (id : Uuid) :
    CallResult (Option GraphThing) :=
  receive buf (graphGet s bundle (encodeGetRequest (.thing id))) none (fromBytes readThing)

lemma fetchThing_id {buf : UserBuffer thingBufferSize} {s : Store} {bundle : BundleId} {id : Uuid}
    {thing : GraphThing} (hwf : s.WellFormed) (htyped : ∀ thing ∈ s.latest id, thing.WellFormed)
    (h : fetchThing buf s bundle id = .value (some thing)) : thing.id = id := by
  rcases receive_eq_value _ _ _ h with hnone | ⟨bytes, hbytes, hthing⟩
  · cases hnone
  · rw [graphGet_thing, exportThingBytes] at hbytes
    split at hbytes
    · cases hbytes
    · obtain ⟨stored, hstored, rfl⟩ := Option.map_eq_some_iff.mp hbytes
      rw [fromBytes_of_reads (reads_thing (htyped stored hstored))] at hthing
      cases hthing
      exact hwf.latest_id hstored

/-! ## Declaring and linking -/

/-- The responses of the two calls. -/
inductive AbiResponse where
  | fiat (thing : GraphThing)
  | link (edge : Option GraphEdge)
  | error (message : String)
deriving DecidableEq

/-- `AbiRequest::Fiat` with its kind for a label when it has none. -/
def withLabels (request : GraphFiatRequest) : GraphFiatRequest :=
  if request.labels.isEmpty then { request with labels := [request.kind] } else request

/-- The Thing of a response: the one that was fetched with the answer for its revision, else one
made up from the request. -/
def reportedThing (request : GraphFiatRequest) (id : Uuid) (revision : ℕ) :
    Option GraphThing → GraphThing
  | some thing => { thing with revision }
  | none =>
    { id, kind := request.kind, labels := Std.ExtTreeSet.ofList request.labels compare,
      fields := request.fields, owner := 0#128, revision }

/-- `KernelRuntime::call` for `Fiat`. Other tasks may have run when the Thing is fetched: `later` is
the store then. `postcard::to_allocvec` writes every request. -/
def callFiat (ext : Externs) (now : ℕ) (g : GraphState) (bundle : BundleId) (counter : BitVec 64)
    (later : Store) (buf : UserBuffer thingBufferSize) (call : GraphFiatRequest) :
    GraphState × CallResult AbiResponse × BitVec 64 :=
  let request := withLabels call
  let (g, revision) := graphFiat ext now g bundle (encodeFiatRequest request)
  let (thingId, counter) := idOrNext request.id counter
  (g, (fetchThing buf later bundle thingId).map
    (fun fetched => .fiat (reportedThing request thingId revision fetched)), counter)

def callLink (ext : Externs) (now : ℕ) (g : GraphState) (bundle : BundleId) (counter : BitVec 64)
    (link : LinkCall) : GraphState × AbiResponse × BitVec 64 :=
  let (g, revision) := graphLink ext now g bundle link.payload
  let (edgeId, counter) := idOrNext link.id counter
  let edge : GraphEdge :=
    { id := edgeId, src := link.from_, pred := link.pred, dst := link.to_, props := link.props,
      owner := 0#128, revision }
  (g, .link (some edge), counter)

/-! ## What the responses say -/

/-- The answers that mean that nothing was written. -/
def Rejected (answer : ℕ) : Prop := answer = syscallFailed ∨ answer = 0
deriving Decidable

/-- A call that took the store from `s` to `t` appended the version last. -/
def Appended (s t : Store) (v : GraphThing) : Prop :=
  ∃ earlier, s.versions v.id <+: earlier ∧ t.versions v.id = earlier ++ [v]

/-- A response reports a Thing only if the kernel accepted the request and stored one with that id
and revision, and an edge only if the kernel accepted the request and has one with that id and
revision. -/
def AbiResponse.Truthful (before after : Store) (answer : ℕ) : AbiResponse → Prop
  | .fiat thing => ¬ Rejected answer
      ∧ ∃ v, v.id = thing.id ∧ v.revision = thing.revision ∧ Appended before after v
  | .link (some edge) => ¬ Rejected answer
      ∧ ∃ e ∈ after.edges, e.id = edge.id ∧ e.revision = edge.revision
  | .link none => True
  | .error _ => True

/-- The next revision is no rejection, and later than every one the Thing has. -/
structure CounterSound (s : Store) (id : Uuid) : Prop where
  accepts : ¬ Rejected s.nextRevision
  later : ∀ v ∈ s.latest id, v.revision < s.nextRevision

/-- Whatever a bundle node that is made first looks like, it has the revision before. -/
lemma revision_ne_of_appended {s : Store} {bundle : BundleId} {v : GraphThing}
    (h : Appended s (s.ensureBundleNode bundle) v) :
    v.revision ≠ (s.ensureBundleNode bundle).nextRevision := by
  obtain ⟨earlier, hprefix, happended⟩ := h
  have hgrows : (s.ensureBundleNode bundle).versions v.id ≠ s.versions v.id := by
    intro heq
    have hlength := hprefix.length_le
    rw [← heq, happended, List.length_append] at hlength
    simp at hlength
  rcases ensureBundleNode_cases s bundle with heq | ⟨-, heq⟩
  · exact absurd (by rw [heq]) hgrows
  · rw [heq, commitThing, versions_insertThing] at happended hgrows
    split at happended
    · obtain ⟨-, hlast⟩ := List.append_inj' happended rfl
      obtain rfl := List.singleton_inj.mp hlast
      have hnext : (s.ensureBundleNode bundle).nextRevision = (s.nextRevision + 1) % u64Size := by
        rw [heq, commitThing, insertThing_nextRevision,
          takeNextRevision_nextRevision]
      rw [hnext]
      simp only [bundleNode, u64Size]
      omega
    · exact absurd (if_neg ‹_›) hgrows

open Classical in
section

variable (ext : Externs) (now : ℕ) (g : GraphState) (bundle : BundleId) (request : GraphFiatRequest)

/-- The answer is the revision of the Thing, and the last version of its id is the Thing if the
store keeps it. -/
lemma fiat_spec :
    let s := g.store.ensureBundleNode bundle
    let thing := nodeThing ext bundle (fiatNodeRequest request) s.nextRevision
    (fiat ext now g bundle request).2 = thing
      ∧ ∀ id, (fiat ext now g bundle request).1.store.versions id
        = if thing.id = id ∧ s.KeepsThing thing then s.versions id ++ [thing]
          else s.versions id := by
  refine ⟨rfl, fun id => ?_⟩
  rw [fiat, versions_eq_of_graph (fiatNode_graph ext now g bundle (fiatNodeRequest request)),
    versions_commitOwned, commitThing, versions_insertThing]
  rfl

/-- A version with the revision that was answered was appended exactly if it is the Thing, and the
store keeps it. -/
lemma appended_fiat_iff (id : Uuid) :
    let s := g.store.ensureBundleNode bundle
    (∃ v, v.id = id ∧ v.revision = s.nextRevision
        ∧ Appended g.store (fiat ext now g bundle request).1.store v)
      ↔ id = nodeId ext bundle (fiatNodeRequest request)
        ∧ ∀ v ∈ s.latest id, v.revision < s.nextRevision := by
  intro s
  obtain ⟨-, hversions⟩ := fiat_spec ext now g bundle request
  have hgrows : ∀ id, g.store.versions id <+: s.versions id :=
    versions_grow_ensureBundleNode g.store bundle
  constructor
  · rintro ⟨v, rfl, hrevision, earlier, hprefix, happended⟩
    rw [hversions] at happended
    split at happended
    · rename_i hkept
      obtain ⟨hid, hkeeps⟩ := hkept
      refine ⟨hid.symm, ?_⟩
      rw [latest_eq_getLast?, ← hid]
      exact hkeeps
    · exact absurd hrevision (revision_ne_of_appended ⟨earlier, hprefix, happended⟩)
  · rintro ⟨rfl, hlater⟩
    rw [latest_eq_getLast?] at hlater
    refine ⟨nodeThing ext bundle (fiatNodeRequest request) s.nextRevision, rfl, rfl,
      s.versions _, hgrows _, ?_⟩
    rw [hversions, if_pos ⟨rfl, hlater⟩]

end

section

variable (request : GraphFiatRequest)

lemma reportedThing_revision (id : Uuid) (revision : ℕ) (fetched : Option GraphThing) :
    (reportedThing request id revision fetched).revision = revision := by
  cases fetched <;> rfl

lemma reportedThing_id {id : Uuid} (revision : ℕ)
    {fetched : Option GraphThing} (h : ∀ thing ∈ fetched, thing.id = id) :
    (reportedThing request id revision fetched).id = id := by
  cases fetched with
  | none => rfl
  | some thing => exact h thing rfl

lemma withLabels_id : (withLabels request).id = request.id := by
  unfold withLabels
  split <;> rfl

lemma fiatNodeRequest_withLabels :
    fiatNodeRequest (withLabels request) = fiatNodeRequest request := by
  unfold withLabels
  split <;> rfl

end

lemma wellFormed_withLabels {request : GraphFiatRequest} (h : request.WellFormed) :
    (withLabels request).WellFormed := by
  unfold withLabels
  split
  · exact ⟨Nat.one_lt_two_pow (by decide), h.fields⟩
  · exact h

/-- A `Fiat` that has a response is truthful exactly if the id it went out with is the one the
kernel gives the Thing and the revision counter has not come around; it has none exactly if the
Thing does not fit the buffer. No `Link` is truthful. -/
theorem results_truthful_iff (ext : Externs) (now : ℕ) (g : GraphState) (bundle : BundleId)
    (counter : BitVec 64) (later : Store) (buf : UserBuffer thingBufferSize)
    (call : GraphFiatRequest) (link : LinkCall) (hcall : call.WellFormed)
    (hlater : later.WellFormed)
    (htyped : ∀ thing ∈ later.latest (idOrNext call.id counter).1, thing.WellFormed) :
    let id := (idOrNext call.id counter).1
    let declared := callFiat ext now g bundle counter later buf call
    let linked := callLink ext now g bundle counter link
    (declared.2.1 = .panics ↔ Overflows thingBufferSize (exportThingBytes later bundle id))
      ∧ (∀ response, declared.2.1 = .value response →
        (response.Truthful g.store declared.1.store
            (graphFiat ext now g bundle (encodeFiatRequest (withLabels call))).2
          ↔ id = nodeId ext bundle (fiatNodeRequest call)
            ∧ CounterSound (g.store.ensureBundleNode bundle) id))
      ∧ ¬ linked.2.1.Truthful g.store linked.1.store
        (graphLink ext now g bundle link.payload).2 := by
  intro id declared linked
  have hfiat := graphFiat_eq ext now g bundle (wellFormed_withLabels hcall)
  have hid : (idOrNext (withLabels call).id counter).1 = id := by rw [withLabels_id]
  have hresult : declared.2.1 = (fetchThing buf later bundle id).map fun fetched =>
      .fiat (reportedThing (withLabels call) id
        (g.store.ensureBundleNode bundle).nextRevision fetched) := by
    simp only [declared, callFiat, hfiat, hid]
    rfl
  refine ⟨?_, ?_, ?_⟩
  · rw [hresult, CallResult.map_eq_panics_iff, fetchThing, receive_eq_panics_iff, graphGet_thing]
  · intro response hresponse
    rw [hresult] at hresponse
    cases hfetch : fetchThing buf later bundle id with
    | panics =>
      rw [hfetch] at hresponse
      cases hresponse
    | value fetched =>
      rw [hfetch] at hresponse
      cases hresponse
      have hreported := reportedThing_id (withLabels call)
        (g.store.ensureBundleNode bundle).nextRevision
        fun thing (hthing : thing ∈ fetched) => fetchThing_id hlater htyped (hthing ▸ hfetch)
      have happended := appended_fiat_iff ext now g bundle (withLabels call) id
      rw [fiatNodeRequest_withLabels] at happended
      dsimp only at happended
      have hstore : declared.1 = (fiat ext now g bundle (withLabels call)).1 := by
        simp only [declared, callFiat, hfiat]
      have hanswer : (fiat ext now g bundle (withLabels call)).2.revision
          = (g.store.ensureBundleNode bundle).nextRevision := rfl
      rw [AbiResponse.Truthful, hfiat, hstore, hreported, reportedThing_revision, hanswer,
        happended, and_left_comm]
      exact and_congr_right fun _ => ⟨fun h => ⟨h.1, h.2⟩, fun h => ⟨h.accepts, h.later⟩⟩
  · -- the kernel does not read the request
    have hrejected : (graphLink ext now g bundle link.payload).2 = syscallFailed := by
      rw [graphLink, link.fromBytes_payload]
    exact fun htruthful => htruthful.1 (.inl hrejected)

def lowBuffer : UserBuffer thingBufferSize := ⟨0x10000, by decide⟩

/-- A declaration with an id, and one without. -/
def declareSeven : GraphFiatRequest := ⟨some 7#128, Canon.package, [], ∅⟩
def declareAnonymous : GraphFiatRequest := ⟨none, Canon.package, [], ∅⟩

lemma wellFormed_empty : Map.WellFormed ∅ := by
  rw [Map.wellFormed_iff]
  simp

theorem results_truthful_iff_declareSeven :
    let after := (reach crates [⟨0xb1#128, 0, .fiat declareSeven⟩]).store
    let declared := callFiat crates 0 new 0xb1#128 0 after lowBuffer declareSeven
    ∃ response, declared.2.1 = .value response
      ∧ response.Truthful new declared.1.store
        (graphFiat crates 0 new 0xb1#128 (encodeFiatRequest (withLabels declareSeven))).2 := by
  intro after declared
  have hcall : declareSeven.WellFormed := ⟨by decide, wellFormed_empty⟩
  have hlatest : after.latest 7#128
      = some (nodeThing crates 0xb1#128 (fiatNodeRequest declareSeven) 2) := by
    decide +kernel
  have htyped : ∀ thing ∈ after.latest 7#128, thing.WellFormed := by
    intro thing hthing
    obtain rfl := Option.some.inj (hlatest.symm.trans hthing)
    refine ⟨by decide +kernel, ?_, by decide +kernel⟩
    rw [Map.wellFormed_iff]
    intro k v hkv
    simp only [nodeThing, nodeFields, fiatNodeRequest, declareSeven,
      Std.ExtTreeMap.getElem?_insertIfNew] at hkv
    split at hkv
    · cases hkv
      trivial
    · simp at hkv
  obtain ⟨hpanics, htruthful, -⟩ := results_truthful_iff crates 0 new 0xb1#128 0 after lowBuffer
    declareSeven LinkCall.composedBy hcall (reach_wellFormed crates _) htyped
  cases hdeclared : declared.2.1 with
  | panics =>
    obtain ⟨bytes, hbytes, hlong, -⟩ := hpanics.mp hdeclared
    have hlength : (exportThingBytes after 0xb1#128 7#128).map List.length = some 67 := by
      decide +kernel
    have hbytes : exportThingBytes after 0xb1#128 7#128 = some bytes := hbytes
    rw [hbytes] at hlength
    rw [Option.some.inj hlength] at hlong
    exact absurd hlong (by decide)
  | value response =>
    refine ⟨response, rfl, (htruthful response hdeclared).mpr ⟨by decide +kernel, ?_, ?_⟩⟩
    · decide +kernel
    · decide +kernel

/-- A Thing without an id is stored under one and reported under another, which no Thing has, and a
link that the kernel could not read is reported with `!0` for its revision. -/
theorem results_untruthful :
    let declared := callFiat crates 0 new 0xb1#128 0 new lowBuffer declareAnonymous
    let linked := callLink crates 0 new 0xb1#128 0 LinkCall.composedBy
    (∃ thing, declared.2.1 = .value (.fiat thing) ∧ thing.id = 0#128
        ∧ declared.1.store.versions thing.id = []
        ∧ (declared.1.store.versions (nodeId crates 0xb1#128
          (fiatNodeRequest declareAnonymous))).map GraphThing.revision = [thing.revision])
      ∧ ∃ edge, linked.2.1 = .link (some edge) ∧ edge.revision = syscallFailed
        ∧ linked.1.store.edges = [] := by
  refine ⟨⟨reportedThing (withLabels declareAnonymous) 0#128 2 none, ?_⟩, ⟨_, rfl, ?_⟩⟩
  · decide +kernel
  · decide +kernel

end ThingOS
