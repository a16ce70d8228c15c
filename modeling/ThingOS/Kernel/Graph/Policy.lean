import ThingOS.Kernel.Drivers.IrqDma
import ThingOS.Kernel.Graph.Authority

/-!
# The access-control policy over runs

Two policies over whole runs: a bundle changes only Things it may write, and capabilities come only
from the kernel and from owners. `set_props` and `grant_capability` enforce their half. A
declaration asks nothing about a Thing that is already there and a link treats authority names like
any other predicate, so both policies hold exactly in the runs whose declarations and links respect
them.
-/

namespace ThingOS

open GraphState Store

variable {ext : Externs} {s t : Store} {c : Call}

/-! ## Writing -/

variable {id : Uuid}

namespace Store

lemma latest_commitThing_of_ne {thing : ℕ → GraphThing}
    (h : (thing s.nextRevision).id ≠ id) : (s.commitThing thing).latest id = s.latest id := by
  rw [latest_eq_getLast?, latest_eq_getLast?, commitThing, versions_insertThing]
  simp [h]

lemma WellFormed.latest_ensureBundleNode (h : s.WellFormed) (bundle : BundleId)
    {v : GraphThing} (hv : s.latest id = some v) :
    (s.ensureBundleNode bundle).latest id = some v := by
  rcases ensureBundleNode_cases s bundle with heq | ⟨hnone, heq⟩
  · rwa [heq]
  · rw [heq, latest_commitThing_of_ne, hv]
    rintro rfl
    rw [← h.latest_eq_none_iff] at hnone
    simp [bundleNode, bundleNodeId, hnone] at hv

lemma WellFormed.declares_or_canWrite (h : s.WellFormed) (hw : Wrote ext s c t)
    (hc : ¬ c.restores) {v : GraphThing} (hv : s.latest id = some v)
    (hchange : t.latest id ≠ some v) :
    c.declares ext = some id ∨ s.canWrite c.bundle id = true := by
  cases hw with
  | nothing => exact absurd hv hchange
  | node request hop =>
    left
    by_contra hid
    apply hchange
    rw [latest_eq_getLast?, versions_commitOwned, ← latest_eq_getLast?, latest_commitThing_of_ne,
      h.latest_ensureBundleNode c.bundle hv]
    simpa [Call.declares, hop, nodeThing] using hid
  | props request current hop hcurrent hwrite =>
    right
    by_contra hid
    apply hchange
    rw [latest_commitThing_of_ne, hv]
    rintro rfl
    exact hid hwrite
  | link request hop hlink hnew =>
    exact absurd (by rw [latest_eq_getLast?, versions_commitEdge, ← latest_eq_getLast?, hv]) hchange
  | grant request hop hcap hgrant =>
    refine absurd ?_ hchange
    rw [latest_eq_getLast?, versions_commitEdge, ← latest_eq_getLast?,
      h.latest_ensureBundleNode request.grantee hv]
  | snapshot snap hop => exact absurd ⟨snap, hop⟩ hc

end Store

/-- A declaration by a bundle other than the kernel is of a Thing that is not there yet or that the
bundle may write. -/
def DeclaresWritable (ext : Externs) (g : GraphState) (c : Call) : Prop :=
  c.bundle ≠ kernelBundleId → ∀ id, c.declares ext = some id →
    g.store.latest id = none ∨ g.store.canWrite c.bundle id = true

namespace GraphState

/-- In a run whose declarations are of new or writable Things, a bundle other than the kernel
changes a Thing only if it owns it or has `CAN_WRITE` on it at that moment. -/
theorem write_integrity (ext : Externs) (calls : List Call)
    (hsteps : EachStep (step ext) (DeclaresWritable ext) new calls) :
    ∀ pre c post, calls = pre ++ c :: post → c.bundle ≠ kernelBundleId → ¬ c.restores →
      ∀ id v, (reach ext pre).store.latest id = some v →
        (step ext (reach ext pre) c).store.latest id ≠ some v →
        (reach ext pre).store.owns c.bundle id = true
          ∨ (reach ext pre).store.hasCapability c.bundle id Canon.canWrite = true := by
  intro pre c post hcalls hbundle hc id v hv hchange
  obtain ⟨t, hw, hgraph⟩ := step_wrote ext (reach ext pre) c
  rw [latest_eq_of_graph hgraph] at hchange
  have hwrite : (reach ext pre).store.canWrite c.bundle id = true := by
    rcases (reach_wellFormed ext pre).declares_or_canWrite hw hc hv hchange with hid | hwrite
    · rcases hsteps pre c post hcalls hbundle id hid with hnone | hwrite
      · exact absurd (hnone.symm.trans hv) (by simp)
      · exact hwrite
    · exact hwrite
  simpa [canWrite, hbundle] using hwrite

/-- The bundle `0xb1` declares the Thing `1`. -/
def declareByFirst : Call := ⟨0xb1#128, 0, .fiat ⟨some 1#128, Canon.package, [], ∅⟩⟩

/-- The bundle `0xb2`, which nobody gave anything, declares the Thing `1` with no fields. -/
def declareBySecond : Call := ⟨0xb2#128, 0, .fiat ⟨some 1#128, Canon.bundle, [], ∅⟩⟩

/-- The bundle `0xb1` updates its Thing. -/
def updateByFirst : Call := ⟨0xb1#128, 0, .setProps ⟨1#128, ∅⟩⟩

theorem write_integrity_updateByFirst :
    (reach crates [declareByFirst]).store.owns 0xb1#128 1#128 = true
      ∨ (reach crates [declareByFirst]).store.hasCapability 0xb1#128 1#128 Canon.canWrite
        = true := by
  have hsteps : EachStep (step crates) (DeclaresWritable crates) new
      [declareByFirst, updateByFirst] := by
    refine eachStep_cons.mpr ⟨?_, eachStep_cons.mpr ⟨?_, eachStep_nil _⟩⟩
    · exact fun _ id _ => .inl (by simp [new, Store.new, Store.latest])
    · exact fun _ id hid => absurd hid (by simp [Call.declares, updateByFirst, Op.nodeRequest])
  exact write_integrity crates _ hsteps [declareByFirst] updateByFirst [] rfl (by decide)
    (by simp [Call.restores, updateByFirst]) 1#128
    (nodeThing crates 0xb1#128 (fiatNodeRequest ⟨some 1#128, Canon.package, [], ∅⟩) 2)
    (by decide +kernel) (by decide +kernel)

/-- A bundle without any authority over a Thing replaces its current version. -/
theorem overwrite_without_authority :
    let before := (reach crates [declareByFirst]).store
    let after := (step crates (reach crates [declareByFirst]) declareBySecond).store
    declareBySecond.bundle ≠ kernelBundleId
      ∧ (before.latest 1#128).isSome = true ∧ after.latest 1#128 ≠ before.latest 1#128
      ∧ before.owns declareBySecond.bundle 1#128 = false
      ∧ before.hasCapability declareBySecond.bundle 1#128 Canon.canWrite = false := by
  decide +kernel

end GraphState

/-! ## Minting -/

/-- The bundle of the first call that declares a Thing. -/
def firstDeclarer (ext : Externs) (calls : List Call) (id : Uuid) : Option BundleId :=
  (calls.find? fun c => decide (c.declares ext = some id)).map Call.bundle

variable {bundle : BundleId}

lemma firstDeclarer_append {pre : List Call}
    (h : firstDeclarer ext pre id = some bundle) (post : List Call) :
    firstDeclarer ext (pre ++ post) id = some bundle := by
  obtain ⟨c, hc, rfl⟩ := Option.map_eq_some_iff.mp h
  simp [firstDeclarer, List.find?_append, hc]

/-- What the policy asks of one edge out of a bundle's node, given the calls before it, the call
that adds it and that call's state: hardware capabilities come from the kernel, data capabilities
from the kernel or an owner of the target, ownership from the kernel or from having declared the
target first. -/
structure MintedByPolicy (ext : Externs) (calls : List Call) (g : GraphState) (c : Call)
    (e : GraphEdge) : Prop where
  hardware : isHardwareCapability e.pred = true → c.bundle = kernelBundleId
  data : isDataCapability e.pred = true →
    c.bundle = kernelBundleId ∨ g.store.owns c.bundle e.dst = true
  ownership : e.pred = Canon.symbolToString Canon.owns →
    c.bundle = kernelBundleId ∨ firstDeclarer ext calls e.dst = some e.src

/-- The calls a bundle other than the kernel has to refrain from: declaring a Thing that another
bundle declared first, adding by a link an edge under an authority name that it could not have
granted, and restoring a snapshot that holds authority. -/
structure Restrained (ext : Externs) (pre : List Call) (c : Call) : Prop where
  declares : ∀ id, c.declares ext = some id → firstDeclarer ext (pre ++ [c]) id = some c.bundle
  links : ∀ request, c.op = .linkEdge request → request.from_ ≠ kernelBundleId →
    (reach ext pre).store.canLink c.bundle request.from_ request.to_ request.pred = true →
    (reach ext pre).store.edgeBetween request.from_ request.pred request.to_ = none →
    isHardwareCapability request.pred = false
      ∧ (isDataCapability request.pred = true →
        (reach ext pre).store.owns c.bundle request.to_ = true)
      ∧ (request.pred = Canon.symbolToString Canon.owns →
        firstDeclarer ext pre request.to_ = some request.from_)
  restores : ∀ snapshot, c.op = .applySnapshot snapshot → ∀ e ∈ snapshot.edges,
    e.src ≠ kernelBundleId → isHardwareCapability e.pred = false
      ∧ isDataCapability e.pred = false ∧ e.pred ≠ Canon.symbolToString Canon.owns

namespace GraphState

lemma canGrant_eq_true {request : GrantCapabilityRequest} (h : canGrant s bundle request = true) :
    bundle = kernelBundleId
      ∨ isHardwareCapability request.capability = false
        ∧ s.owns bundle request.target = true := by
  unfold canGrant at h
  split at h
  · exact .inl (by simpa using h)
  · grind

lemma mintedByPolicy_of_added {pre : List Call} {e : GraphEdge} (post : List Call)
    (hc : c.bundle ≠ kernelBundleId → Restrained ext pre c)
    (hadded : Added ext (reach ext pre).store c e) (hsrc : e.src ≠ kernelBundleId) :
    MintedByPolicy ext (pre ++ c :: post) (reach ext pre) c e := by
  by_cases hkernel : c.bundle = kernelBundleId
  · exact ⟨fun _ => hkernel, fun _ => .inl hkernel, fun _ => .inl hkernel⟩
  have hc := hc hkernel
  cases hadded with
  | owns request revision hop =>
    have hname : (ownershipEdge ext c.bundle (nodeId ext c.bundle request) revision).pred
        = "OWNS" := Canon.symbolToString_owns
    refine ⟨fun h => ?_, fun h => ?_, fun _ => .inr ?_⟩
    · rw [hname] at h
      exact absurd h (by decide)
    · rw [hname] at h
      exact absurd h (by decide)
    · rw [List.append_cons]
      exact firstDeclarer_append
        (hc.declares _ (by simp [Call.declares, hop, ownershipEdge])) post
  | link request revision hop hlink hnew =>
    obtain ⟨hhardware, hdata, howns⟩ := hc.links request hop hsrc hlink hnew
    exact ⟨fun h => absurd (hhardware.symm.trans h) Bool.false_ne_true,
      fun h => .inr (hdata h), fun h => .inr (firstDeclarer_append (howns h) _)⟩
  | grant request revision hop hcap hgrant =>
    -- the policy is what `grant_capability` checks
    obtain ⟨hhardware, howns⟩ := (canGrant_eq_true hgrant).resolve_left hkernel
    refine ⟨fun h => absurd (hhardware.symm.trans h) Bool.false_ne_true, fun _ => .inr howns,
      fun h => ?_⟩
    have hname : request.capability = "OWNS" := h.trans Canon.symbolToString_owns
    rw [hname] at hcap
    exact absurd hcap (by decide)
  | restored snapshot edge hop hedge =>
    obtain ⟨hhardware, hdata, howns⟩ := hc.restores snapshot hop _ hedge hsrc
    exact ⟨fun h => absurd (hhardware.symm.trans h) Bool.false_ne_true,
      fun h => absurd (hdata.symm.trans h) Bool.false_ne_true, fun h => absurd h howns⟩

/-- A call of the kernel added an edge that gives the bundle the capability. -/
def KernelGave (ext : Externs) (calls : List Call) (bundle : BundleId) (target : Uuid)
    (capability : Symbol) : Prop :=
  ∃ pre c post, calls = pre ++ c :: post ∧ c.bundle = kernelBundleId
    ∧ ∃ e ∉ (reach ext pre).store.edges, e ∈ (step ext (reach ext pre) c).store.edges
      ∧ e.src = bundle ∧ e.pred = Canon.symbolToString capability ∧ e.dst = target

section Minting

variable {calls : List Call}
  (hcalls : ∀ pre c post, calls = pre ++ c :: post → c.bundle ≠ kernelBundleId →
    Restrained ext pre c)
include hcalls

lemma exists_mintedByPolicy {e : GraphEdge} (he : e ∈ (reach ext calls).store.edges)
    (hsrc : e.src ≠ kernelBundleId) :
    ∃ pre c post, calls = pre ++ c :: post ∧ e ∉ (reach ext pre).store.edges
      ∧ e ∈ (step ext (reach ext pre) c).store.edges
      ∧ MintedByPolicy ext calls (reach ext pre) c e := by
  obtain ⟨pre, c, post, rfl, hpre, hc, hadded⟩ := exists_added ext he
  exact ⟨pre, c, post, rfl, hpre, hc,
    mintedByPolicy_of_added post (hcalls pre c post rfl) hadded hsrc⟩

/-- A hardware capability of a bundle other than the kernel goes back to a call of the kernel. -/
lemma kernelGave_of_hasCapability {target : Uuid} {capability : Symbol}
    (hbundle : bundle ≠ kernelBundleId)
    (hhardware : isHardwareCapability (Canon.symbolToString capability) = true)
    (h : (reach ext calls).store.hasCapability bundle target capability = true) :
    KernelGave ext calls bundle target capability := by
  obtain ⟨e, he, rfl, hpred, rfl⟩ := ((reach_wellFormed ext calls).hasCapability_iff _ _ _).mp h
  obtain ⟨pre, c, post, heq, hpre, hc, hminted⟩ := exists_mintedByPolicy hcalls he hbundle
  exact ⟨pre, c, post, heq, hminted.hardware (by rw [hpred]; exact hhardware), e, hpre, hc, rfl,
    hpred, rfl⟩

end Minting

/-- In a run whose calls are restrained, every capability of a bundle other than the kernel was
minted by policy, and interrupts and DMA buffers go only to bundles the kernel gave them to. -/
theorem minting_policy (ext : Externs) (calls : List Call)
    (hcalls : ∀ pre c post, calls = pre ++ c :: post → c.bundle ≠ kernelBundleId →
      Restrained ext pre c) :
    (∀ e ∈ (reach ext calls).store.edges, e.src ≠ kernelBundleId →
      ∃ pre c post, calls = pre ++ c :: post ∧ e ∉ (reach ext pre).store.edges
        ∧ e ∈ (step ext (reach ext pre) c).store.edges
        ∧ MintedByPolicy ext calls (reach ext pre) c e)
    ∧ (∀ (irq : IrqState) (bundle : BundleId) (device : Uuid) (irqLine : UInt8),
      bundle ≠ kernelBundleId →
      (irq.bind (reach ext calls).store bundle device irqLine).2.isSome = true →
      KernelGave ext calls bundle device Canon.canHandleIrq)
    ∧ ∀ (dma : DmaState) (bundle : BundleId) (buffer : Uuid) (flags : ℕ),
      bundle ≠ kernelBundleId →
      (dma.map (reach ext calls).store bundle buffer flags).2.isSome = true →
      KernelGave ext calls bundle buffer Canon.canDma := by
  refine ⟨fun e he hsrc => exists_mintedByPolicy hcalls he hsrc, ?_, ?_⟩
  · intro irq bundle device irqLine hbundle h
    exact kernelGave_of_hasCapability hcalls hbundle (by decide +kernel)
      (IrqState.hasCapability_of_bind h)
  · intro dma bundle buffer flags hbundle h
    exact kernelGave_of_hasCapability hcalls hbundle (by decide +kernel)
      (DmaState.hasCapability_of_map h)

/-- The kernel grants the bundle `0xb1` DMA on the Thing `0xd1`, and the bundle declares a Thing. -/
def grantedRun : List Call :=
  [⟨kernelBundleId, 0, .grantCapability ⟨0xb1#128, 0xd1#128, "CAN_DMA"⟩⟩, declareByFirst]

theorem minting_policy_grantedRun :
    (DmaState.init.map (reach crates grantedRun).store 0xb1#128 0xd1#128 0).2.isSome = true
      ∧ KernelGave crates grantedRun 0xb1#128 0xd1#128 Canon.canDma := by
  have hmap : (DmaState.init.map (reach crates grantedRun).store 0xb1#128 0xd1#128 0).2.isSome
      = true := by
    decide +kernel
  refine ⟨hmap, (minting_policy crates grantedRun ?_).2.2 _ _ _ _ (by decide) hmap⟩
  rintro (- | ⟨d, - | ⟨d', pre⟩⟩) c post h hkernel
  · cases h
    exact absurd rfl hkernel
  · cases h
    refine ⟨fun id hid => ?_, by simp [declareByFirst], by simp [declareByFirst]⟩
    obtain rfl : 1#128 = id := Option.some.inj hid
    decide +kernel
  · simp [grantedRun] at h

/-- The bundle `0xb1` declares its own node and links it to the Thing `0xd1` as a DMA capability. -/
def forgeRun : List Call :=
  [⟨0xb1#128, 0, .fiat ⟨some 0xb1#128, Canon.package, [], ∅⟩⟩,
    ⟨0xb1#128, 0, .linkEdge ⟨none, "CAN_DMA", 0xb1#128, 0xd1#128, ∅⟩⟩]

/-- Without any call of the kernel, a bundle obtains a hardware capability and maps a DMA buffer. -/
theorem forged_dma_capability : (∀ c ∈ forgeRun, c.bundle ≠ kernelBundleId)
      ∧ (reach crates forgeRun).store.hasCapability 0xb1#128 0xd1#128 Canon.canDma = true
      ∧ (DmaState.init.map (reach crates forgeRun).store 0xb1#128 0xd1#128 0).2 = some 1 := by
  decide +kernel

end GraphState

end ThingOS
