import Mathlib

/-!
# Virtual addresses and page tables

What the kernel uses of the `x86_64` crate (version 0.14): canonical virtual addresses, pages, and
the operations of an `OffsetPageTable`. A virtual address is kept as its 48 significant bits and a
page as the upper 36 of them, so that both are ordered as the crate orders them and the upper half
follows on the lower half.

An address space is the tree of its page tables. An entry of a table is unused, maps a huge page, or
points to a table of the next level; a level 4 entry maps nothing itself. Entries that are set but
not present do not occur, and `translate` does not return `InvalidFrameAddress`, since the address
field of an entry is always aligned. What a frame holds while it serves as a page table is told by
the tree alone.
-/

namespace ThingOS

open Function

def pageSize : ℕ := 0x1000

lemma pageSize_pos : 0 < pageSize := by decide

/-- The significant bits of a canonical address. -/
structure VirtAddr where
  bits : ℕ
  lt : bits < 2 ^ 48

/-- The first page of the upper half, the one that belongs to the kernel. -/
def kernelHalf : ℕ := 2 ^ 35

/-- What bit 47 adds to an address when it is extended to 64 bits. -/
def signExtension : ℕ := 2 ^ 64 - 2 ^ 48

namespace VirtAddr

/-- `VirtAddr::try_new` extends bit 47; other bits above it must not be set. -/
def tryNew (addr : ℕ) : Option VirtAddr :=
  if h : addr < 2 ^ 48 then some ⟨addr, h⟩
  else if h : 2 ^ 64 - 2 ^ 47 ≤ addr ∧ addr < 2 ^ 64
    then some ⟨addr - signExtension, by unfold signExtension; omega⟩
  else none

def asU64 (v : VirtAddr) : ℕ := if v.bits < 2 ^ 47 then v.bits else v.bits + signExtension

/-- `Page::containing_address` -/
def page (v : VirtAddr) : ℕ := v.bits / pageSize

end VirtAddr

namespace Page

/-- `page.start_address().as_u64()` -/
def startU64 (page : ℕ) : ℕ :=
  if page < kernelHalf then page * pageSize else page * pageSize + signExtension

def rangeInclusive (first last : ℕ) : List ℕ := List.range' first (last + 1 - first)

@[simp] lemma mem_rangeInclusive {first last page : ℕ} :
    page ∈ rangeInclusive first last ↔ first ≤ page ∧ page ≤ last := by
  rw [rangeInclusive, List.mem_range'_1]
  omega

def p4Index (page : ℕ) : ℕ := page / 2 ^ 27
def p3Index (page : ℕ) : ℕ := page / 2 ^ 18 % 512
def p2Index (page : ℕ) : ℕ := page / 2 ^ 9 % 512
def p1Index (page : ℕ) : ℕ := page % 512

lemma eq_of_index {p q : ℕ} (h4 : Page.p4Index p = Page.p4Index q)
    (h3 : Page.p3Index p = Page.p3Index q) (h2 : Page.p2Index p = Page.p2Index q)
    (h1 : Page.p1Index p = Page.p1Index q) : p = q := by
  simp only [p4Index, p3Index, p2Index, p1Index] at h4 h3 h2 h1
  omega

lemma p4Index_lt {page : ℕ} : p4Index page < 256 ↔ page < kernelHalf := by
  unfold p4Index kernelHalf
  omega

end Page

abbrev PageTableFlags := BitVec 64

namespace PageTableFlags

def present : PageTableFlags := 0x1#64
def writable : PageTableFlags := 0x2#64
def userAccessible : PageTableFlags := 0x4#64
def noExecute : PageTableFlags := 0x8000000000000000#64

def contains (flags some : PageTableFlags) : Bool := flags &&& some == some

end PageTableFlags

/-- A frame, by its start address, with the flags it is mapped with. -/
structure Mapping where
  frame : ℕ
  flags : PageTableFlags

/-- An entry of a page table: `H` is what it can map itself, `α` an entry of the next level. -/
inductive Entry (H α : Type) where
  | unused
  | huge (mapping : H)
  | table (frame : ℕ) (flags : PageTableFlags) (entries : ℕ → α)

abbrev Level1 := Option Mapping
abbrev Level2 := Entry Mapping Level1
abbrev Level3 := Entry Mapping Level2
abbrev Level4 := Entry Empty Level3

/-- The entries of the level 4 table. -/
abbrev AddressSpace := ℕ → Level4

inductive MapToError where
  | frameAllocationFailed
  | parentEntryHugePage
  | pageAlreadyMapped

inductive FlagUpdateError where
  | pageNotMapped
  | parentEntryHugePage

namespace Entry

variable {H α β : Type}

def isUsed : Entry H α → Bool
  | unused => false
  | _ => true

/-- Walk on through the entry at an index of the next table. -/
def follow (index : ℕ) (onHuge : H → Option β) (next : α → Option β) : Entry H α → Option β
  | unused => none
  | huge h => onHuge h
  | table _ _ entries => next (entries index)

/-- Walk on through the entry at an index, creating the table if there is none and adding `insert`
to the flags of the entry on the way (`create_next_table`). The frame for a new table is the next
one the allocator has. -/
def createNext (empty : α) (raise : H → H) (insert : PageTableFlags) (index : ℕ)
    (next : α → List ℕ → Except MapToError Unit × α × List ℕ) :
    Entry H α → List ℕ → Except MapToError Unit × Entry H α × List ℕ
  | unused, [] => (.error .frameAllocationFailed, unused, [])
  | unused, frame :: frames =>
    let (result, entry, frames) := next empty frames
    (result, table frame insert (Function.update (fun _ => empty) index entry), frames)
  | huge h, frames => (.error .parentEntryHugePage, huge (raise h), frames)
  | table frame flags entries, frames =>
    let (result, entry, frames) := next (entries index) frames
    (result, table frame (flags ||| insert) (Function.update entries index entry), frames)

/-- Walk on through the entry at an index and change it, creating nothing. -/
def updateNext (index : ℕ) (next : α → Except FlagUpdateError Unit × α) :
    Entry H α → Except FlagUpdateError Unit × Entry H α
  | unused => (.error .pageNotMapped, unused)
  | huge h => (.error .parentEntryHugePage, huge h)
  | table frame flags entries =>
    let (result, entry) := next (entries index)
    (result, table frame flags (Function.update entries index entry))

section CreateNext

variable {empty : α} {raise : H → H} {insert : PageTableFlags} {i j : ℕ}
  {next : α → List ℕ → Except MapToError Unit × α × List ℕ} {onHuge : H → Option β}
  {view : α → Option β} {e : Entry H α} {frames : List ℕ}

/-- What an index leads to is not affected, if the raised flags of huge pages are not seen and the
rest of the walk, which ends as the walk does, keeps it. -/
lemma follow_createNext (hempty : view empty = none)
    (hraise : ∀ h, e = huge h → onHuge (raise h) = onHuge h)
    (hnext : j = i → ∀ a frames',
      (next a frames').1 = (createNext empty raise insert i next e frames).1 →
      view (next a frames').2.1 = view a) :
    (createNext empty raise insert i next e frames).2.1.follow j onHuge view
      = e.follow j onHuge view := by
  by_cases hji : j = i
  · subst hji
    cases e with
    | unused =>
      cases frames with
      | nil => rfl
      | cons frame frames =>
        simp only [createNext, follow, update_self]
        exact (hnext rfl empty frames rfl).trans hempty
    | huge h => exact hraise h rfl
    | table frame flags entries =>
      simp only [createNext, follow, update_self]
      exact hnext rfl (entries j) frames rfl
  · cases e with
    | unused =>
      cases frames with
      | nil => rfl
      | cons frame frames => simp [createNext, follow, update_of_ne hji, hempty]
    | huge h => exact hraise h rfl
    | table frame flags entries => simp [createNext, follow, update_of_ne hji]

/-- A walk that succeeds leads to what its last step has put there. -/
lemma follow_createNext_of_ok {x : Option β}
    (hok : (createNext empty raise insert i next e frames).1 = .ok ())
    (hnext : ∀ a frames, (next a frames).1 = .ok () → view (next a frames).2.1 = x) :
    (createNext empty raise insert i next e frames).2.1.follow i onHuge view = x := by
  cases e with
  | unused =>
    cases frames with
    | nil => cases hok
    | cons frame frames =>
      simp only [createNext, follow, update_self]
      exact hnext empty frames hok
  | huge h => cases hok
  | table frame flags entries =>
    simp only [createNext, follow, update_self]
    exact hnext (entries i) frames hok

/-- A walk that succeeds meets no huge page. -/
lemma follow_createNext_keeps_of_ok
    (hok : (createNext empty raise insert i next e frames).1 = .ok ()) (hempty : view empty = none)
    (hnext : j = i → ∀ a frames, (next a frames).1 = .ok () →
      view (next a frames).2.1 = view a) :
    (createNext empty raise insert i next e frames).2.1.follow j onHuge view
      = e.follow j onHuge view := by
  refine follow_createNext hempty ?_ fun hji a frames hends => hnext hji a frames (hends.trans hok)
  rintro h rfl
  cases hok

/-- Whether it succeeds or not, a walk keeps what the index leads to, unless that was nothing and
its last step puts `x` there. -/
lemma follow_createNext_or {x : Option β} (hempty : view empty = none)
    (hraise : ∀ h, onHuge (raise h) = onHuge h)
    (hnext : ∀ a frames, view (next a frames).2.1 = view a
      ∨ view a = none ∧ view (next a frames).2.1 = x) :
    (createNext empty raise insert i next e frames).2.1.follow i onHuge view
        = e.follow i onHuge view
      ∨ e.follow i onHuge view = none
        ∧ (createNext empty raise insert i next e frames).2.1.follow i onHuge view = x := by
  cases e with
  | unused =>
    cases frames with
    | nil => exact .inl rfl
    | cons frame frames =>
      simp only [createNext, follow, update_self]
      exact (hnext empty frames).imp (fun h => h.trans hempty) fun h => ⟨trivial, h.2⟩
  | huge h => exact .inl (hraise h)
  | table frame flags entries =>
    simp only [createNext, follow, update_self]
    exact hnext (entries i) frames

lemma frames_createNext (hnext : ∀ a frames, (next a frames).2.2 <:+ frames) :
    (createNext empty raise insert i next e frames).2.2 <:+ frames := by
  cases e with
  | unused =>
    cases frames with
    | nil => exact List.suffix_rfl
    | cons frame frames => exact (hnext empty frames).trans (List.suffix_cons frame frames)
  | huge h => exact List.suffix_rfl
  | table frame flags entries => exact hnext (entries i) frames

end CreateNext

lemma follow_updateNext {i j : ℕ} {next : α → Except FlagUpdateError Unit × α}
    {onHuge : H → Option β} {view : α → Option β} {e : Entry H α}
    (hnext : j = i → ∀ a, view (next a).2 = view a) :
    (updateNext i next e).2.follow j onHuge view = e.follow j onHuge view := by
  cases e with
  | unused => rfl
  | huge h => rfl
  | table frame flags entries =>
    by_cases hji : j = i
    · subst hji
      simp [updateNext, follow, hnext rfl]
    · simp [updateNext, follow, update_of_ne hji]

/-- What a change that succeeds does at the end of the walk, it does to what the index leads to. -/
lemma follow_updateNext_of_ok {i : ℕ} {next : α → Except FlagUpdateError Unit × α}
    {onHuge : H → Option β} {view : α → Option β} {e : Entry H α} {f : β → β}
    (hok : (updateNext i next e).1 = .ok ())
    (hnext : ∀ a, (next a).1 = .ok () → view (next a).2 = (view a).map f) :
    (updateNext i next e).2.follow i onHuge view = (e.follow i onHuge view).map f := by
  cases e with
  | unused => cases hok
  | huge h => cases hok
  | table frame flags entries =>
    simp only [updateNext, follow, update_self]
    exact hnext (entries i) hok

lemma map_follow {γ : Type} (f : β → γ) (i : ℕ) (onHuge : H → Option β) (view : α → Option β)
    (e : Entry H α) : (e.follow i onHuge view).map f
      = e.follow i (fun h => (onHuge h).map f) fun a => (view a).map f := by
  cases e <;> rfl

end Entry

def Mapping.raise (insert : PageTableFlags) (m : Mapping) : Mapping :=
  { m with flags := m.flags ||| insert }

namespace AddressSpace

open Entry

variable {space : AddressSpace} {frames : List ℕ} {p q frame : ℕ} {flags : PageTableFlags}

/-- The mapping that covers a page, if there is one. -/
def translate (space : AddressSpace) (page : ℕ) : Option Mapping :=
  (space (Page.p4Index page)).follow (Page.p3Index page) Empty.elim
    (follow (Page.p2Index page) some (follow (Page.p1Index page) some id))

/-- The last step of `map_to`: fill an unused entry of the level 1 table. -/
def mapEntry (frame : ℕ) (flags : PageTableFlags) :
    Level1 → List ℕ → Except MapToError Unit × Level1 × List ℕ
  | none, frames => (.ok (), some ⟨frame, flags⟩, frames)
  | some mapping, frames => (.error .pageAlreadyMapped, some mapping, frames)

/-- The flags `map_to` gives to the tables above a page. -/
def parentFlags (flags : PageTableFlags) : PageTableFlags :=
  flags &&& (.present ||| .writable ||| .userAccessible)

def mapTo (space : AddressSpace) (frames : List ℕ) (page : ℕ) (frame : ℕ)
    (flags : PageTableFlags) : Except MapToError Unit × AddressSpace × List ℕ :=
  let insert := parentFlags flags
  let (result, entry, frames) :=
    createNext unused Empty.elim insert (Page.p3Index page)
      (createNext unused (Mapping.raise insert) insert (Page.p2Index page)
        (createNext none (Mapping.raise insert) insert (Page.p1Index page) (mapEntry frame flags)))
      (space (Page.p4Index page)) frames
  (result, Function.update space (Page.p4Index page) entry, frames)

def updateEntry (flags : PageTableFlags) : Level1 → Except FlagUpdateError Unit × Level1
  | none => (.error .pageNotMapped, none)
  | some mapping => (.ok (), some { mapping with flags := flags })

def updateFlags (space : AddressSpace) (page : ℕ) (flags : PageTableFlags) :
    Except FlagUpdateError Unit × AddressSpace :=
  let (result, entry) :=
    updateNext (Page.p3Index page)
      (updateNext (Page.p2Index page) (updateNext (Page.p1Index page) (updateEntry flags)))
      (space (Page.p4Index page))
  (result, Function.update space (Page.p4Index page) entry)

def frameOf (space : AddressSpace) (page : ℕ) : Option ℕ :=
  (space.translate page).map (·.frame)

lemma isSome_frameOf :
    (space.frameOf p).isSome = true ↔ ∃ mapping, space.translate p = some mapping := by
  rw [frameOf, Option.isSome_map, Option.isSome_iff_exists]

lemma frameOf_eq (space : AddressSpace) (p : ℕ) :
    space.frameOf p = (space (Page.p4Index p)).follow (Page.p3Index p) Empty.elim
      (follow (Page.p2Index p) (fun m => some m.frame)
        (follow (Page.p1Index p) (fun m => some m.frame) (Option.map (·.frame)))) := by
  simp only [frameOf, translate, map_follow, Option.map_some, id]
  congr 1
  funext h
  exact h.elim

/-! ## What `map_to` and `update_flags` change -/

lemma mapTo_of_ne {i : ℕ} (hne : i ≠ Page.p4Index p) :
    (space.mapTo frames p frame flags).2.1 i = space i :=
  update_of_ne hne _ _

lemma frameOf_mapTo_of_ne (hne : q ≠ p) :
    frameOf (space.mapTo frames p frame flags).2.1 q = space.frameOf q := by
  rw [frameOf_eq, frameOf_eq]
  by_cases h4 : Page.p4Index q = Page.p4Index p
  case neg => rw [mapTo_of_ne h4]
  rw [h4, mapTo]
  dsimp only
  rw [update_self]
  -- the walks part at the first index where the pages differ
  refine follow_createNext rfl (fun h _ => h.elim) fun h3 e frames _ => ?_
  refine follow_createNext rfl (fun _ _ => rfl) fun h2 e frames _ => ?_
  refine follow_createNext rfl (fun _ _ => rfl) fun h1 => ?_
  exact absurd (Page.eq_of_index h4 h3 h2 h1) hne

lemma translate_mapTo (hok : (space.mapTo frames p frame flags).1 = .ok ()) :
    translate (space.mapTo frames p frame flags).2.1 p = some ⟨frame, flags⟩ := by
  rw [translate, mapTo]
  dsimp only
  rw [update_self]
  refine follow_createNext_of_ok hok fun e frames hok => ?_
  refine follow_createNext_of_ok hok fun e frames hok => ?_
  refine follow_createNext_of_ok hok fun leaf frames hok => ?_
  cases leaf with
  | none => rfl
  | some m => cases hok

/-- A `map_to` that succeeds leaves the other pages as they are, flags included. -/
lemma translate_mapTo_of_ne (hok : (space.mapTo frames p frame flags).1 = .ok ()) (hne : q ≠ p) :
    translate (space.mapTo frames p frame flags).2.1 q = space.translate q := by
  rw [translate, translate]
  by_cases h4 : Page.p4Index q = Page.p4Index p
  case neg => rw [mapTo_of_ne h4]
  rw [mapTo] at hok ⊢
  rw [h4]
  dsimp only at hok ⊢
  rw [update_self]
  refine follow_createNext_keeps_of_ok hok rfl fun h3 e frames hok => ?_
  refine follow_createNext_keeps_of_ok hok rfl fun h2 e frames hok => ?_
  refine follow_createNext_keeps_of_ok hok rfl fun h1 => ?_
  exact absurd (Page.eq_of_index h4 h3 h2 h1) hne

lemma frameOf_mapTo_self :
    frameOf (space.mapTo frames p frame flags).2.1 p = space.frameOf p
      ∨ space.frameOf p = none
        ∧ frameOf (space.mapTo frames p frame flags).2.1 p = some frame := by
  rw [frameOf_eq, frameOf_eq, mapTo]
  dsimp only
  rw [update_self]
  refine follow_createNext_or rfl (fun h => h.elim) fun e frames => ?_
  refine follow_createNext_or rfl (fun _ => rfl) fun e frames => ?_
  refine follow_createNext_or rfl (fun _ => rfl) fun leaf frames => ?_
  cases leaf with
  | none => exact .inr ⟨rfl, rfl⟩
  | some m => exact .inl rfl

/-- The frames of all pages after `map_to`: those from before, except that the page itself may have
been mapped to the new frame. -/
lemma frameOf_mapTo (space : AddressSpace) (frames : List ℕ) (p frame : ℕ)
    (flags : PageTableFlags) (q : ℕ) :
    frameOf (space.mapTo frames p frame flags).2.1 q = space.frameOf q
      ∨ q = p ∧ space.frameOf p = none
        ∧ frameOf (space.mapTo frames p frame flags).2.1 p = some frame := by
  by_cases hq : q = p
  · subst hq
    exact frameOf_mapTo_self.imp_right fun h => ⟨rfl, h⟩
  · exact .inl (frameOf_mapTo_of_ne hq)

lemma frames_mapTo : (space.mapTo frames p frame flags).2.2 <:+ frames := by
  rw [mapTo]
  refine frames_createNext fun e frames => ?_
  refine frames_createNext fun e frames => ?_
  refine frames_createNext fun leaf frames => ?_
  cases leaf <;> exact List.suffix_rfl

lemma updateFlags_of_ne {i : ℕ} (hne : i ≠ Page.p4Index p) :
    (space.updateFlags p flags).2 i = space i :=
  update_of_ne hne _ _

lemma frameOf_updateFlags : frameOf (space.updateFlags p flags).2 q = space.frameOf q := by
  rw [frameOf_eq, frameOf_eq]
  by_cases h4 : Page.p4Index q = Page.p4Index p
  case neg => rw [updateFlags_of_ne h4]
  rw [h4, updateFlags]
  dsimp only
  rw [update_self]
  refine follow_updateNext fun _ e => ?_
  refine follow_updateNext fun _ e => ?_
  refine follow_updateNext fun _ leaf => ?_
  cases leaf <;> rfl

lemma translate_updateFlags_of_ne (hne : q ≠ p) :
    translate (space.updateFlags p flags).2 q = space.translate q := by
  rw [translate, translate]
  by_cases h4 : Page.p4Index q = Page.p4Index p
  case neg => rw [updateFlags_of_ne h4]
  rw [h4, updateFlags]
  dsimp only
  rw [update_self]
  refine follow_updateNext fun h3 e => ?_
  refine follow_updateNext fun h2 e => ?_
  exact follow_updateNext fun h1 _ => absurd (Page.eq_of_index h4 h3 h2 h1) hne

lemma translate_updateFlags (hok : (space.updateFlags p flags).1 = .ok ()) :
    translate (space.updateFlags p flags).2 p
      = (space.translate p).map fun mapping => { mapping with flags := flags } := by
  rw [translate, translate]
  rw [updateFlags] at hok ⊢
  dsimp only at hok ⊢
  rw [update_self]
  refine follow_updateNext_of_ok hok fun e hok => ?_
  refine follow_updateNext_of_ok hok fun e hok => ?_
  refine follow_updateNext_of_ok hok fun leaf hok => ?_
  cases leaf <;> rfl

end AddressSpace

/-! ## When `map_to` and `update_flags` succeed -/

namespace Entry

variable {H α β : Type} {P : α → Prop} {e : Entry H α} {i n : ℕ} {onHuge : H → Option β}
  {view : α → Option β}

/-- No huge page is mapped here, and `P` holds of the entries of the next table. -/
def Small (P : α → Prop) : Entry H α → Prop
  | unused => True
  | huge _ => False
  | table _ _ entries => ∀ i, P (entries i)

/-- A walk has succeeded, leaves an entry that satisfies `P`, and has taken at most `n` frames. -/
structure Walked (P : α → Prop) (n : ℕ) (frames : List ℕ)
    (result : Except MapToError Unit × α × List ℕ) : Prop where
  ok : result.1 = .ok ()
  entry : P result.2.1
  frames : frames.length ≤ result.2.2.length + n

/-- A walk to an unmapped place succeeds if the rest of it does and there is a frame for the next
table. -/
lemma walked_createNext {empty : α} {raise : H → H} {insert : PageTableFlags} {frames : List ℕ}
    {next : α → List ℕ → Except MapToError Unit × α × List ℕ} (he : e.Small P) (hempty : P empty)
    (hview : view empty = none) (hnone : e.follow i onHuge view = none)
    (hframes : n + 1 ≤ frames.length)
    (hnext : ∀ a frames, P a → view a = none → n ≤ frames.length →
      Walked P n frames (next a frames)) :
    Walked (Small P) (n + 1) frames (createNext empty raise insert i next e frames) := by
  cases e with
  | unused =>
    cases frames with
    | nil => cases hframes
    | cons frame frames =>
      rw [List.length_cons] at hframes
      obtain ⟨hok, hkept, hlength⟩ := hnext empty frames hempty hview (by omega)
      refine ⟨hok, (forall_update_iff _ fun _ => P).mpr ⟨hkept, fun _ _ => hempty⟩, ?_⟩
      show (frame :: frames).length ≤ (next empty frames).2.2.length + (n + 1)
      rw [List.length_cons]
      omega
  | huge h => exact he.elim
  | table frame flags entries =>
    obtain ⟨hok, hkept, hlength⟩ := hnext (entries i) frames (he i) hnone (by omega)
    refine ⟨hok, (forall_update_iff _ fun _ => P).mpr ⟨hkept, fun j _ => he j⟩, ?_⟩
    show frames.length ≤ (next (entries i) frames).2.2.length + (n + 1)
    omega

/-- A walk to a mapped place finds its way. -/
lemma updateNext_ok {next : α → Except FlagUpdateError Unit × α} (he : e.Small P)
    (hsome : (e.follow i onHuge view).isSome = true)
    (hnext : ∀ a, P a → (view a).isSome = true → (next a).1 = .ok () ∧ P (next a).2) :
    (updateNext i next e).1 = .ok () ∧ (updateNext i next e).2.Small P := by
  cases e with
  | unused => cases hsome
  | huge h => exact he.elim
  | table frame flags entries =>
    obtain ⟨hok, hkept⟩ := hnext (entries i) (he i) hsome
    exact ⟨hok, (forall_update_iff _ fun _ => P).mpr ⟨hkept, fun j _ => he j⟩⟩

end Entry

namespace AddressSpace

open Entry

variable {space : AddressSpace} {frames : List ℕ} {p frame : ℕ} {flags : PageTableFlags}

def NoHuge (space : AddressSpace) : Prop := ∀ i, (space i).Small (Small (Small fun _ => True))

lemma NoHuge.update {i : ℕ} {e : Level4} (h : space.NoHuge)
    (he : e.Small (Small (Small fun _ => True))) : NoHuge (Function.update space i e) :=
  (forall_update_iff _ fun _ => Small _).mpr ⟨he, fun j _ => h j⟩

/-- Three frames are enough for the tables above a page. -/
lemma mapTo_ok (h : space.NoHuge) (hunmapped : space.translate p = none)
    (hframes : 3 ≤ frames.length) :
    (space.mapTo frames p frame flags).1 = .ok () ∧ NoHuge (space.mapTo frames p frame flags).2.1
      ∧ frames.length ≤ (space.mapTo frames p frame flags).2.2.length + 3 := by
  have hwalk : Walked (Small (Small (Small fun _ => True))) 3 frames
      (createNext unused Empty.elim (parentFlags flags) (Page.p3Index p)
        (createNext unused (Mapping.raise (parentFlags flags)) (parentFlags flags) (Page.p2Index p)
          (createNext none (Mapping.raise (parentFlags flags)) (parentFlags flags) (Page.p1Index p)
            (mapEntry frame flags))) (space (Page.p4Index p)) frames) := by
    refine walked_createNext (h _) trivial rfl hunmapped hframes fun e frames he hnone hlen => ?_
    refine walked_createNext he trivial rfl hnone hlen fun e frames he hnone hlen => ?_
    refine walked_createNext he trivial rfl hnone hlen fun leaf frames _ hnone _ => ?_
    cases leaf with
    | none => exact ⟨rfl, trivial, Nat.le_refl _⟩
    | some m => cases hnone
  exact ⟨hwalk.ok, h.update hwalk.entry, hwalk.frames⟩

lemma updateFlags_ok (h : space.NoHuge) (hmapped : (space.translate p).isSome = true) :
    (space.updateFlags p flags).1 = .ok () ∧ NoHuge (space.updateFlags p flags).2 := by
  have hwalk : (updateNext (Page.p3Index p) (updateNext (Page.p2Index p)
        (updateNext (Page.p1Index p) (updateEntry flags))) (space (Page.p4Index p))).1 = .ok ()
      ∧ (updateNext (Page.p3Index p) (updateNext (Page.p2Index p)
        (updateNext (Page.p1Index p) (updateEntry flags))) (space (Page.p4Index p))).2.Small
          (Small (Small fun _ => True)) := by
    refine updateNext_ok (h _) hmapped fun e he hsome => ?_
    refine updateNext_ok he hsome fun e he hsome => ?_
    refine updateNext_ok he hsome fun leaf _ hsome => ?_
    cases leaf with
    | none => cases hsome
    | some m => exact ⟨rfl, trivial⟩
  exact ⟨hwalk.1, h.update hwalk.2⟩

end AddressSpace

end ThingOS
