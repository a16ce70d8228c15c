import ThingOS.Kernel.Graph.KindIndex
import ThingOS.Kernel.Graph.Policy
import ThingOS.Userland.Canon
import ThingOS.Userland.Runtime

/-!
# Where new ids come from

Ids for new Things are made in four ways. `create_task` counts in the kernel
(`kernel/src/graph/bundle.rs`). `next_uuid` counts in every address space on its own and doubles the
count (`thing_abi/src/lib.rs`). An anonymous `fiat`, and `create_widget` with it, doubles a hash of
the kind and the fields (`userland/src/graph.rs`, `userland/src/ui_graph.rs`). `create_window_with`
doubles a hash of the title and a count of the app's own (`userland/src/app.rs`).

Equal fields, equal titles and equal counts make equal ids, whoever asks. A run in which an id is
new to the calls before it is a run in which it is new to the graph.
-/

namespace ThingOS

open GraphState Store List System

/-! ## The four sources -/

/-- `simple_uuid` before it is doubled. -/
def simpleHash (name : List UInt8) : BitVec 64 :=
  name.foldl (fun hash b => (hash ^^^ BitVec.ofNat 64 b.toNat) * 0x1099511628211#64)
    0xcbf29ce484222325#64

def simpleUuid (name : List UInt8) : Uuid := doubled (simpleHash name)

def fiatName (kind : Symbol) (fields : Map) : List UInt8 := kind.toBeBytes ++ encodeMap fields

def widgetFields (role : String) (visible enabled : Bool) (label : Option String) : Map :=
  let fields := (((∅ : Map).insert Canon.role (.text role)).insert Canon.visible
    (.bool visible)).insert Canon.active (.bool enabled)
  match label with
  | some label => fields.insert Canon.label (.text label)
  | none => fields

/-- A window as it is given to `create_window_with`: what that looks at or sets, and the entries of
`to_fields` that it leaves alone. -/
structure Window where
  title : String
  x : BitVec 64
  y : BitVec 64
  rest : Map

def windowName (title : String) (index : BitVec 64) : List UInt8 :=
  ("window-" ++ title ++ "-" ++ toString index.toNat).toUTF8.data.toList

def pixmapName (title : String) (index : BitVec 64) : List UInt8 :=
  ("pixmap-" ++ title ++ "-" ++ toString index.toNat).toUTF8.data.toList

/-- The fields of `create_window_with`: a window at the origin is moved by its index. -/
def windowFields (window : Window) (index : BitVec 64) : Map :=
  let offset := index * 24#64
  let (x, y) := if window.x = 0#64 ∧ window.y = 0#64 then (offset, offset) else (window.x, window.y)
  let pixmap := simpleUuid (pixmapName window.title index)
  window.rest.insertMany [(Canon.title, .text window.title), (Canon.x, .u64 x.toNat),
    (Canon.y, .u64 y.toNat), (Canon.z, .i64 index.toInt), (Canon.visible, .bool true),
    (Canon.active, .bool false), (Canon.name, .text window.title), (Canon.target, .uuid pixmap),
    (Canon.status, .symbol Canon.init)]

/-- What an id is made of: a count of tasks, or a count or a hash that is doubled. -/
inductive Seed where
  | task (n : BitVec 64)
  | word (w : BitVec 64)
deriving DecidableEq

def Seed.id : Seed → Uuid
  | task n => n.setWidth 128
  | word w => doubled w

/-- Two seeds that make the same id. A count of tasks is not doubled, so that only the first one
meets the others. -/
def Seed.Clash (s t : Seed) : Prop :=
  s = t ∨ (s = .task 0 ∧ t = .word 0) ∨ (s = .word 0 ∧ t = .task 0)
deriving Decidable

lemma toNat_setWidth (n : BitVec 64) : (n.setWidth 128).toNat = n.toNat := by
  rw [BitVec.toNat_setWidth]
  exact Nat.mod_eq_of_lt (n.isLt.trans (by decide))

lemma toNat_doubled (w : BitVec 64) : (doubled w).toNat = w.toNat * 2 ^ 64 + w.toNat := by
  have hlt := w.isLt
  have hhigh : (w.setWidth 128 <<< 64).toNat = w.toNat <<< 64 := by
    rw [BitVec.toNat_shiftLeft, toNat_setWidth, Nat.shiftLeft_eq]
    exact Nat.mod_eq_of_lt (by omega)
  rw [doubled, BitVec.toNat_or, hhigh, toNat_setWidth, ← Nat.shiftLeft_add_eq_or_of_lt hlt,
    Nat.shiftLeft_eq]

lemma doubled_inj {v w : BitVec 64} (h : doubled v = doubled w) : v = w := by
  have heq := congrArg BitVec.toNat h
  rw [toNat_doubled, toNat_doubled] at heq
  exact BitVec.eq_of_toNat_eq (by omega)

/-- Only the first task can have an id of the other kinds. -/
lemma eq_zero_of_setWidth_eq_doubled {n w : BitVec 64} (h : n.setWidth 128 = doubled w) :
    n = 0 ∧ w = 0 := by
  have heq := congrArg BitVec.toNat h
  rw [toNat_doubled, toNat_setWidth] at heq
  exact ⟨BitVec.eq_of_toNat_eq (by simp; omega), BitVec.eq_of_toNat_eq (by simp; omega)⟩

lemma task_id_inj {m n : BitVec 64} (h : (Seed.task m).id = (Seed.task n).id) : m = n := by
  have heq := congrArg BitVec.toNat h
  rw [Seed.id, Seed.id, toNat_setWidth, toNat_setWidth] at heq
  exact BitVec.eq_of_toNat_eq heq

lemma Seed.clash_of_id_eq {s t : Seed} (h : s.id = t.id) : s.Clash t := by
  cases s with
  | task m =>
    cases t with
    | task n => exact .inl (congrArg Seed.task (task_id_inj h))
    | word w =>
      obtain ⟨rfl, rfl⟩ := eq_zero_of_setWidth_eq_doubled h
      exact .inr (.inl ⟨rfl, rfl⟩)
  | word v =>
    cases t with
    | task n =>
      obtain ⟨rfl, rfl⟩ := eq_zero_of_setWidth_eq_doubled h.symm
      exact .inr (.inr ⟨rfl, rfl⟩)
    | word w => exact .inl (congrArg Seed.word (doubled_inj h))

/-! ## The system -/

/-- Whose call it is, and when. -/
structure Caller where
  bundle : BundleId
  now : ℕ

/-- The kernel and any number of user tasks. What calls named and what ids were made of is
recorded for the proofs. -/
structure System where
  graph : GraphState
  /-- `TASK_COUNTER` of the kernel. -/
  taskCounter : BitVec 64
  /-- `UUID_COUNTER` of every task. -/
  uuidCounter : ℕ → BitVec 64
  /-- `window_counter` of every app. -/
  windowCounter : ℕ → BitVec 64
  /-- The ids that calls have named so far of their own account. -/
  named : List Uuid
  /-- What ids were made of so far. -/
  seeds : List Seed

/-- Every counter starts at zero. -/
def System.init : System := ⟨GraphState.new, 0, fun _ => 0, fun _ => 0, [], []⟩

/-- What can happen: an id is made, with or without the Thing it is for, or any other call is made
of the graph. -/
inductive Activity where
  | createTask
  | nextUuid (task : ℕ)
  | fiat (caller : Caller) (kind : Symbol) (fields : Map)
  | createWidget (caller : Caller) (role : String) (visible enabled : Bool) (label : Option String)
  | createWindowWith (caller : Caller) (app : ℕ) (window : Window)
  | other (c : Call)

/-- The ids of the Things that a call can bring into the graph: the one it declares, bundle nodes,
and the Things of a snapshot. -/
def Call.names (ext : Externs) (c : Call) : List Uuid :=
  match c.op with
  | .fiat request => [c.bundle, nodeId ext c.bundle (fiatNodeRequest request)]
  | .fiatNode request => [c.bundle, nodeId ext c.bundle request]
  | .grantCapability request => [request.grantee]
  | .applySnapshot snapshot => snapshot.things.map GraphThing.id
  | _ => []

/-- The call that `fiat` of userland makes of the kernel. -/
def declaration (caller : Caller) (name : List UInt8) (kind : Symbol) (fields : Map) : Call :=
  ⟨caller.bundle, caller.now, .fiat ⟨some (simpleUuid name), kind, [kind], fields⟩⟩

namespace System

def declare (ext : Externs) (σ : System) (caller : Caller) (name : List UInt8) (kind : Symbol)
    (fields : Map) : System :=
  { σ with
    graph := GraphState.step ext σ.graph (declaration caller name kind fields)
    named := caller.bundle :: σ.named
    seeds := .word (simpleHash name) :: σ.seeds }

/-- One activity. The link that `create_window_with` makes afterwards is not read by the kernel. -/
def step (ext : Externs) (σ : System) : Activity → System
  | .createTask =>
    { σ with taskCounter := σ.taskCounter + 1, seeds := .task σ.taskCounter :: σ.seeds }
  | .nextUuid task =>
    let counter := σ.uuidCounter task
    { σ with
      uuidCounter := Function.update σ.uuidCounter task (ThingOS.nextUuid counter).2
      seeds := .word counter :: σ.seeds }
  | .fiat caller kind fields => σ.declare ext caller (fiatName kind fields) kind fields
  | .createWidget caller role visible enabled label =>
    let fields := widgetFields role visible enabled label
    σ.declare ext caller (fiatName Canon.widget fields) Canon.widget fields
  | .createWindowWith caller app window =>
    let index := σ.windowCounter app
    let σ := σ.declare ext caller (windowName window.title index) Canon.window
      (windowFields window index)
    { σ with windowCounter := Function.update σ.windowCounter app (index + 1) }
  | .other c =>
    { σ with graph := GraphState.step ext σ.graph c, named := c.names ext ++ σ.named }

end System

/-- What the id of an activity is made of. -/
def Activity.seed (σ : System) : Activity → Option Seed
  | .createTask => some (.task σ.taskCounter)
  | .nextUuid task => some (.word (σ.uuidCounter task))
  | .fiat _ kind fields => some (.word (simpleHash (fiatName kind fields)))
  | .createWidget _ role visible enabled label =>
    some (.word (simpleHash (fiatName Canon.widget (widgetFields role visible enabled label))))
  | .createWindowWith _ app window =>
    some (.word (simpleHash (windowName window.title (σ.windowCounter app))))
  | .other _ => none

def Activity.generated (σ : System) (a : Activity) : Option Uuid := (a.seed σ).map Seed.id

/-- The activities that make an id and leave the Thing to the caller. -/
def Activity.bare : Activity → Bool
  | .createTask => true
  | .nextUuid _ => true
  | _ => false

/-! ## The ids of the graph -/

section Names

variable {ext : Externs} {g : GraphState} {s : Store} {id : Uuid}

lemma versions_commitThing {thing : ℕ → GraphThing} (h : (s.commitThing thing).versions id ≠ []) :
    s.versions id ≠ [] ∨ id = (thing s.nextRevision).id := by
  rw [commitThing, versions_insertThing] at h
  split at h
  · rename_i hkept
    exact .inr hkept.1.symm
  · exact .inl h

lemma versions_ensureBundleNode {bundle : BundleId}
    (h : (s.ensureBundleNode bundle).versions id ≠ []) : s.versions id ≠ [] ∨ id = bundle := by
  rcases ensureBundleNode_cases s bundle with heq | ⟨-, heq⟩
  · rw [heq] at h
    exact .inl h
  · rw [heq] at h
    exact versions_commitThing h

lemma versions_step (hwf : g.store.WellFormed) {c : Call}
    (h : (GraphState.step ext g c).store.versions id ≠ []) :
    g.store.versions id ≠ [] ∨ id ∈ c.names ext := by
  obtain ⟨t, hwrote, hgraph⟩ := step_wrote ext g c
  rw [versions_eq_of_graph hgraph] at h
  cases hwrote with
  | nothing => exact .inl h
  | node request hop =>
    have hnames : c.names ext = [c.bundle, nodeId ext c.bundle request] := by
      grind [Call.names, Op.nodeRequest]
    rw [versions_commitOwned] at h
    rcases versions_commitThing h with h | rfl
    · rcases versions_ensureBundleNode h with h | rfl
      · exact .inl h
      · exact .inr (by simp [hnames])
    · exact .inr (by simp [hnames, nodeThing])
  | props request current hop hcurrent hwrite =>
    rcases versions_commitThing h with h | rfl
    · exact .inl h
    · left
      rw [propsThing, hwf.latest_id hcurrent]
      intro hnil
      rw [latest_eq_getLast?, hnil] at hcurrent
      cases hcurrent
  | link request hop hlink hnew =>
    rw [versions_commitEdge] at h
    exact .inl h
  | grant request hop hcap hgrant =>
    rw [versions_commitEdge] at h
    rcases versions_ensureBundleNode h with h | rfl
    · exact .inl h
    · exact .inr (by simp [Call.names, hop])
  | snapshot snap hop =>
    obtain ⟨v, hv⟩ := exists_mem_of_ne_nil _ h
    refine .inr ?_
    rw [Call.names, hop]
    exact mem_map.mpr ⟨v, mem_versions_applySnapshot hv,
      (wellFormed_applySnapshot g.store snap).versions_id id v hv⟩

lemma latest_step_of_declares (hwf : g.store.WellFormed) {c : Call} {request : GraphNodeRequest}
    (hop : c.op.nodeRequest = some request) {v : GraphThing} (hv : g.store.latest id = some v)
    (hne : nodeId ext c.bundle request ≠ id) :
    (GraphState.step ext g c).store.latest id = some v := by
  rw [latest_eq_of_graph (step_graph_of_nodeRequest ext g hop), latest_eq_getLast?,
    versions_commitOwned, ← latest_eq_getLast?]
  rw [latest_commitThing_of_ne hne]
  exact hwf.latest_ensureBundleNode c.bundle hv

end Names

/-! ## Runs -/

variable {a : Activity}

namespace System

/-- Every Thing of the graph has an id that a call named or that was made. -/
structure Inv (σ : System) : Prop where
  wellFormed : σ.graph.store.WellFormed
  known : ∀ id, σ.graph.store.versions id ≠ [] → id ∈ σ.named ∨ ∃ seed ∈ σ.seeds, id = seed.id

/-- What an id is made of is new to the run: no call named the id of its own account, and no other
id was made of the same. -/
structure Apart (σ : System) (a : Activity) : Prop where
  named : ∀ seed ∈ a.seed σ, seed.id ∉ σ.named
  seeds : ∀ seed ∈ a.seed σ, ∀ t ∈ σ.seeds, ¬ seed.Clash t

instance (σ : System) (a : Activity) : Decidable (Apart σ a) :=
  decidable_of_iff ((∀ seed ∈ a.seed σ, seed.id ∉ σ.named)
      ∧ ∀ seed ∈ a.seed σ, ∀ t ∈ σ.seeds, ¬ seed.Clash t)
    ⟨fun h => ⟨h.1, h.2⟩, fun h => ⟨h.named, h.seeds⟩⟩

variable {ext : Externs} {σ : System}

/-- What one activity does to the graph: nothing, or it declares a Thing under the hash of a name,
or it makes the call it stands for. -/
inductive Did (ext : Externs) (σ : System) : Activity → System → Prop where
  | nothing {a : Activity} {τ : System} (hbare : a.bare = true) (hgraph : τ.graph = σ.graph)
      (hnamed : τ.named = σ.named) : Did ext σ a τ
  | declared {a : Activity} {τ : System} (hbare : a.bare = false) (caller : Caller)
      (name : List UInt8) (kind : Symbol) (fields : Map)
      (hseed : a.seed σ = some (.word (simpleHash name)))
      (hgraph : τ.graph = GraphState.step ext σ.graph (declaration caller name kind fields))
      (hnamed : τ.named = caller.bundle :: σ.named) : Did ext σ a τ
  | called {τ : System} (c : Call) (hgraph : τ.graph = GraphState.step ext σ.graph c)
      (hnamed : τ.named = c.names ext ++ σ.named) : Did ext σ (.other c) τ

lemma did_step (ext : Externs) (σ : System) (a : Activity) : Did ext σ a (σ.step ext a) := by
  cases a with
  | createTask => exact .nothing rfl rfl rfl
  | nextUuid task => exact .nothing rfl rfl rfl
  | fiat caller kind fields => exact .declared rfl caller _ kind fields rfl rfl rfl
  | createWidget caller role visible enabled label =>
    exact .declared rfl caller _ _ _ rfl rfl rfl
  | createWindowWith caller app window => exact .declared rfl caller _ _ _ rfl rfl rfl
  | other c => exact .called c rfl rfl

lemma wellFormed_step (h : σ.graph.store.WellFormed) (a : Activity) :
    (σ.step ext a).graph.store.WellFormed := by
  have hcall (c : Call) : (GraphState.step ext σ.graph c).store.WellFormed := by
    obtain ⟨t, hwrote, hgraph⟩ := step_wrote ext σ.graph c
    exact Store.WellFormed.of_graph hgraph (h.of_wrote hwrote)
  cases did_step ext σ a with
  | nothing hbare hgraph hnamed => rwa [hgraph]
  | declared hbare caller name kind fields hseed hgraph hnamed =>
    rw [hgraph]
    exact hcall _
  | called c hgraph hnamed => exact hcall c

lemma named_subset_step (a : Activity) : σ.named ⊆ (σ.step ext a).named := by
  cases did_step ext σ a with
  | nothing hbare hgraph hnamed => exact hnamed ▸ List.Subset.refl _
  | declared hbare caller name kind fields hseed hgraph hnamed =>
    exact hnamed ▸ subset_cons_self ..
  | called c hgraph hnamed => exact subset_append_right ..

lemma seeds_step (a : Activity) : (σ.step ext a).seeds = (a.seed σ).toList ++ σ.seeds := by
  cases a <;> rfl

variable {id : Uuid}

/-- A Thing that is there after a step was there before, or has an id that a call named or the
step made. -/
lemma versions_step_cases (hwf : σ.graph.store.WellFormed) (a : Activity)
    (h : (σ.step ext a).graph.store.versions id ≠ []) :
    σ.graph.store.versions id ≠ [] ∨ id ∈ (σ.step ext a).named
      ∨ ∃ seed ∈ a.seed σ, id = seed.id := by
  cases did_step ext σ a with
  | nothing hbare hgraph hnamed =>
    rw [hgraph] at h
    exact .inl h
  | declared hbare caller name kind fields hseed hgraph hnamed =>
    have hnames : (declaration caller name kind fields).names ext
        = [caller.bundle, simpleUuid name] := rfl
    rw [hgraph] at h
    rcases versions_step hwf h with h | h
    · exact .inl h
    · rw [hnames, mem_pair] at h
      rcases h with rfl | rfl
      · exact .inr (.inl (hnamed ▸ mem_cons_self))
      · exact .inr (.inr ⟨_, hseed, rfl⟩)
  | called c hgraph hnamed =>
    exact (versions_step hwf h).imp_right fun hid => .inl (mem_append_left _ hid)

lemma Inv.step (h : σ.Inv) (a : Activity) : (σ.step ext a).Inv := by
  refine ⟨wellFormed_step h.wellFormed a, fun id hid => ?_⟩
  rcases versions_step_cases h.wellFormed a hid with hid | hid | ⟨seed, hseed, hid⟩
  · rcases h.known id hid with hid | ⟨seed, hseed, hid⟩
    · exact .inl (named_subset_step a hid)
    · exact .inr ⟨seed, by rw [seeds_step]; exact mem_append_right _ hseed, hid⟩
  · exact .inl hid
  · refine .inr ⟨seed, ?_, hid⟩
    rw [seeds_step]
    exact mem_append_left _ (Option.mem_toList.mpr hseed)

lemma inv_run (ext : Externs) (activities : List Activity) :
    (run (step ext) init activities).Inv := by
  refine run_invariant activities ?_ fun σ a h => h.step a
  exact ⟨wellFormed_new, fun id hid => absurd rfl hid⟩

lemma Inv.fresh (h : σ.Inv) (hapart : Apart σ a)
    (hid : id ∈ a.generated σ) : σ.graph.store.versions id = [] := by
  obtain ⟨seed, hseed, rfl⟩ := Option.map_eq_some_iff.mp hid
  by_contra hversions
  rcases h.known _ hversions with hnamed | ⟨t, ht, heq⟩
  · exact hapart.named seed hseed hnamed
  · exact hapart.seeds seed hseed t ht (Seed.clash_of_id_eq heq)

/-- A step that makes a new id leaves all Things as they are. -/
lemma Inv.latest_step (h : σ.Inv) (hapart : Apart σ a) {made : Uuid}
    (hmade : made ∈ a.generated σ) {v : GraphThing}
    (hv : σ.graph.store.latest id = some v) : (σ.step ext a).graph.store.latest id = some v := by
  have hfresh := h.fresh hapart hmade
  cases did_step ext σ a with
  | nothing hbare hgraph hnamed => rwa [hgraph]
  | declared hbare caller name kind fields hseed hgraph hnamed =>
    have hname : simpleUuid name = made := by
      rw [Activity.generated, hseed] at hmade
      exact Option.some.inj hmade
    rw [hgraph]
    refine latest_step_of_declares h.wellFormed rfl hv ?_
    intro heq
    have heq : simpleUuid name = id := heq
    rw [latest_eq_getLast?, ← heq, hname, hfresh] at hv
    cases hv
  | called c hgraph hnamed => cases hmade

/-! ### Ids without a Thing -/

/-- An id that was made and has no Thing. -/
structure Unused (seed : Seed) (σ : System) : Prop where
  made : seed ∈ σ.seeds
  wellFormed : σ.graph.store.WellFormed
  versions : seed.id ∉ σ.named → σ.graph.store.versions seed.id = []

/-- An id stays without a Thing until a call names it. -/
lemma Unused.step {seed : Seed} (h : Unused seed σ) (hapart : Apart σ a) :
    Unused seed (σ.step ext a) where
  made := by
    rw [seeds_step]
    exact mem_append_right _ h.made
  wellFormed := wellFormed_step h.wellFormed a
  versions hnamed := by
    by_contra hversions
    rcases versions_step_cases h.wellFormed a hversions with hold | hold | ⟨t, ht, heq⟩
    · exact hold (h.versions fun hmem => hnamed (named_subset_step a hmem))
    · exact hnamed hold
    · exact hapart.seeds t ht seed h.made (Seed.clash_of_id_eq heq.symm)

lemma Inv.unused (h : σ.Inv) (hbare : a.bare = true) (hapart : Apart σ a)
    {seed : Seed} (hseed : seed ∈ a.seed σ) : Unused seed (σ.step ext a) := by
  have hgraph : (σ.step ext a).graph = σ.graph := by
    cases did_step ext σ a with
    | nothing _ hgraph => exact hgraph
    | declared hnot => exact absurd (hbare.symm.trans hnot) (by decide)
    | called c => cases hbare
  refine ⟨?_, wellFormed_step h.wellFormed a, fun _ => ?_⟩
  · rw [seeds_step]
    exact mem_append_left _ (Option.mem_toList.mpr hseed)
  · rw [hgraph]
    exact h.fresh hapart (Option.mem_map_of_mem Seed.id hseed)

/-- In every run that keeps its ids apart, an id that is made belongs to no Thing yet. A Thing that
is made with it leaves all others as they are, and an id that is made on its own stays new until a
call names it. -/
theorem identity_fresh (ext : Externs) (activities : List Activity)
    (hapart : EachStep (step ext) Apart init activities) (pre post : List Activity)
    (a : Activity) (hrun : activities = pre ++ a :: post) :
    let σ := run (step ext) init pre
    ∀ id ∈ a.generated σ, σ.graph.store.versions id = []
      ∧ (∀ other v, σ.graph.store.latest other = some v →
        (σ.step ext a).graph.store.latest other = some v)
      ∧ (a.bare → ∀ mid, mid <+: post →
        let later := run (step ext) (σ.step ext a) mid
        id ∉ later.named → later.graph.store.versions id = []) := by
  intro σ id hid
  have hinv : σ.Inv := inv_run ext pre
  have ha : Apart σ a := hapart pre a post hrun
  refine ⟨hinv.fresh ha hid, fun other v hv => hinv.latest_step ha hid hv, ?_⟩
  rintro hbare mid ⟨rest, rfl⟩ later
  obtain ⟨seed, hseed, rfl⟩ := Option.map_eq_some_iff.mp hid
  have hmid : EachStep (step ext) Apart (σ.step ext a) mid := by
    rintro before b after rfl
    have hb := hapart (pre ++ a :: before) b (after ++ rest) (by simp [hrun])
    rwa [run_append, run_cons] at hb
  exact (run_invariant_of_eachStep hmid (hinv.unused hbare ha hseed)
    fun _ _ hb hunused => hunused.step hb).versions

def declarePackage : Activity := .fiat ⟨0xb1#128, 0⟩ Canon.package ∅

def openTerminal (app : ℕ) : Activity :=
  .createWindowWith ⟨BitVec.ofNat 128 (0xb1 + app), 1⟩ app ⟨"Terminal", 0, 0, ∅⟩

theorem identity_fresh_openTerminal :
    let σ := run (step crates) init [declarePackage]
    σ.graph.store.versions 0#128 = []
      ∧ (run (step crates) (σ.step crates (.nextUuid 1))
        [openTerminal 0]).graph.store.versions 0#128 = [] := by
  have hapart : EachStep (step crates) Apart init
      [declarePackage, .nextUuid 1, openTerminal 0] := by
    refine eachStep_cons.mpr ⟨by decide +kernel, eachStep_cons.mpr ⟨by decide +kernel, ?_⟩⟩
    exact eachStep_cons.mpr ⟨by decide +kernel, eachStep_nil _⟩
  obtain ⟨hfresh, -, hlater⟩ := identity_fresh crates _ hapart [declarePackage] [openTerminal 0]
    (.nextUuid 1) rfl 0#128 (by decide +kernel)
  exact ⟨hfresh, hlater rfl [openTerminal 0] (prefix_refl _) (by decide +kernel)⟩

/-- The bundle `0xb1` creates a list without a label. -/
def createList : Activity := .createWidget ⟨0xb1#128, 0⟩ "list" true true none

/-- The first task declares a Thing, and the kernel gives it a bundle node. -/
def declareByTask : Activity := .other ⟨0#128, 0, .fiat ⟨some 7#128, Canon.package, [], ∅⟩⟩

/-- Two widgets that look alike are one Thing, and an app's window becomes that of another app with
the same title. The first id that a task makes for itself is that of the first task. -/
theorem identity_shared :
    let widget := step crates init createList
    let window := step crates init (openTerminal 0)
    let called := run (step crates) init [.createTask, declareByTask]
    (∃ id ∈ createList.generated widget, (widget.graph.store.latest id).isSome
        ∧ (widget.step crates createList).graph.store.latest id ≠ widget.graph.store.latest id)
      ∧ (∃ id ∈ (openTerminal 1).generated window,
        (window.graph.store.latest id).map GraphThing.owner = some 0xb1#128
        ∧ ((window.step crates (openTerminal 1)).graph.store.latest id).map GraphThing.owner
          = some 0xb2#128)
      ∧ ∃ id ∈ Activity.generated init .createTask,
        id ∈ Activity.generated called (.nextUuid 1) ∧ called.graph.store.versions id ≠ [] := by
  refine ⟨⟨_, rfl, ?_⟩, ⟨_, rfl, ?_⟩, _, rfl, ?_⟩
  all_goals decide +kernel

end System

/-! ## Names that differ in one byte -/

/-- The factor has an inverse modulo `2 ^ 64`. -/
lemma mul_simpleHash_inj {v w : BitVec 64} (h : v * 0x1099511628211#64 = w * 0x1099511628211#64) :
    v = w := by
  have hinv := congrArg (· * 0xb9449d28341caef1#64) h
  simpa only [BitVec.mul_assoc, show 0x1099511628211#64 * 0xb9449d28341caef1#64 = 1#64 from rfl,
    BitVec.mul_one] using hinv

/-- The bytes that follow lose nothing of the hash. -/
lemma foldl_simpleHash_inj (name : List UInt8) : Function.Injective fun hash =>
    name.foldl (fun hash b => (hash ^^^ BitVec.ofNat 64 b.toNat) * 0x1099511628211#64) hash := by
  induction name with
  | nil => exact Function.injective_id
  | cons b name ih => exact ih.comp fun _ _ h => (BitVec.xor_left_inj _).mp (mul_simpleHash_inj h)

theorem simpleUuid_ne_of_byte_ne (p s : List UInt8) {a b : UInt8} (hab : a ≠ b) :
    simpleUuid (p ++ [a] ++ s) ≠ simpleUuid (p ++ [b] ++ s) := by
  intro h
  have hhash := doubled_inj h
  simp only [simpleHash, foldl_append, foldl_cons, foldl_nil] at hhash
  have hbyte := (BitVec.xor_right_inj _).mp (mul_simpleHash_inj (foldl_simpleHash_inj s hhash))
  have hnat := congrArg BitVec.toNat hbyte
  rw [BitVec.toNat_ofNat, BitVec.toNat_ofNat, Nat.mod_eq_of_lt, Nat.mod_eq_of_lt] at hnat
  · exact hab (UInt8.toNat_inj.mp hnat)
  · exact b.toNat_lt.trans (by decide)
  · exact a.toNat_lt.trans (by decide)

theorem simpleUuid_ne_of_byte_ne_zero_one : simpleUuid [7, 0, 9] ≠ simpleUuid [7, 1, 9] :=
  simpleUuid_ne_of_byte_ne [7] [9] (by decide)

end ThingOS
