import ThingOS.Kernel.Graph.Representation

/-!
# Two spellings of a symbol

Userland turns a symbol into a predicate with `String::from` (`thing_abi/src/lib.rs`), which prints
its bytes. The kernel files and looks up edges under `symbol_to_string`
(`kernel/src/graph/canon.rs`), which prints the name in its table. The two agree on no symbol that
carries authority, so a grant made from a symbol is turned away and a link made from one is filed
where nobody looks.
-/

namespace ThingOS

open GraphState List Store

/-- `String::from` on a symbol: its bytes when they are UTF-8, else the number in hexadecimal. -/
def Symbol.toText (s : Symbol) : String :=
  match String.fromUTF8? ⟨(Canon.symbolBytes s).toArray⟩ with
  | some text => text
  | none => String.ofList (Nat.toDigits 16 s.toNat)

variable {s : Symbol}

namespace Canon

/-! ## What the bytes print -/

/-- No hexadecimal number has an underscore. -/
lemma underscore_not_mem_toDigits (n : ℕ) : '_' ∉ Nat.toDigits 16 n := by
  induction n using Nat.strong_induction_on with
  | _ n ih =>
    have hdigit (d : ℕ) : '_' ≠ d.digitChar := (Nat.digitChar_ne '_' rfl).symm
    rw [Nat.toDigits_eq_if (by decide)]
    split
    · simp
    · simpa [hdigit] using ih (n / 16) (by omega)

/-- Userland prints at most three bytes, or a number. -/
lemma toText_cases (s : Symbol) :
    s.toText.utf8ByteSize ≤ 3 ∨ '_' ∉ s.toText.toList := by
  unfold Symbol.toText
  split
  case h_1 text htext =>
    left
    rw [String.fromUTF8?] at htext
    split at htext
    · cases htext
      exact length_filter_le _ _
    · cases htext
  case h_2 =>
    right
    rw [String.toList_ofList]
    exact underscore_not_mem_toDigits s.toNat

/-- So it prints no longer name that has an underscore. -/
lemma toText_ne (s : Symbol) {name : String} (hsize : 3 < name.utf8ByteSize)
    (hunderscore : '_' ∈ name.toList) : s.toText ≠ name := by
  rintro rfl
  rcases toText_cases s with h | h
  · omega
  · exact h hunderscore

def byteChar (b : UInt8) : Char := Char.ofNat b.toNat

lemma utf8Encode_byteChar {b : UInt8} (h : b.toNat < 128) :
    String.utf8EncodeChar (byteChar b) = [b] := by
  have hall : ∀ n < 128, String.utf8EncodeChar (Char.ofNat n) = [UInt8.ofNat n] := by
    decide +kernel
  rw [byteChar, hall _ h, UInt8.ofNat_toNat]

lemma toText_of_ascii (h : ∀ b ∈ symbolBytes s, b.toNat < 128) :
    s.toText = String.ofList ((symbolBytes s).map byteChar) := by
  have hbytes : ((symbolBytes s).map byteChar).flatMap String.utf8EncodeChar = symbolBytes s := by
    rw [flatMap_map, flatMap_congr (fun b hb => utf8Encode_byteChar (h b hb)),
      flatMap_singleton']
  have hencoded : (String.ofList ((symbolBytes s).map byteChar)).toByteArray
      = ⟨(symbolBytes s).toArray⟩ := by
    rw [String.toByteArray_ofList, List.utf8Encode, hbytes]
    exact ByteArray.ext data_toByteArray
  rw [Symbol.toText, ← hencoded, String.fromUTF8?, dif_pos (String.isValidUTF8 _)]
  rfl

/-! ## Where the two agree -/

/-- An upper-case letter, a digit or an underscore. -/
def IsPlain (b : UInt8) : Prop :=
  (65 ≤ b.toNat ∧ b.toNat ≤ 90) ∨ (48 ≤ b.toNat ∧ b.toNat ≤ 57) ∨ b.toNat = 95
deriving Decidable

/-- The symbols that both print alike: five named ones, and the unnamed ones of plain bytes. -/
def Alike (s : Symbol) : Prop :=
  s ∈ [src, dst, key, bpp, app]
    ∨ s ∉ symbolToStringTable.map Prod.fst ∧ ∀ b ∈ symbolBytes s, IsPlain b
deriving Decidable

/-- The test of `symbol_to_string` on a character. -/
def isNameChar (c : Char) : Bool := c.isAlphanum || c == '_'

lemma isPlain_iff (b : UInt8) :
    IsPlain b ↔ isNameChar (byteChar b) = true ∧ (byteChar b).toUpper = byteChar b := by
  have hall : ∀ n < 256, IsPlain (UInt8.ofNat n)
      ↔ isNameChar (byteChar (UInt8.ofNat n)) = true
        ∧ (byteChar (UInt8.ofNat n)).toUpper = byteChar (UInt8.ofNat n) := by
    decide +kernel
  have := hall b.toNat b.toNat_lt
  rwa [UInt8.ofNat_toNat] at this

lemma lt_of_isNameChar {b : UInt8} (h : isNameChar (byteChar b) = true) : b.toNat < 128 := by
  have hall : ∀ n < 256, isNameChar (byteChar (UInt8.ofNat n)) = true → n < 128 := by
    decide +kernel
  apply hall b.toNat b.toNat_lt
  rwa [UInt8.ofNat_toNat]

lemma symbolToString_of_unnamed (h : s ∉ symbolToStringTable.map Prod.fst) :
    symbolToString s
      = if (∀ b ∈ symbolBytes s, isNameChar (byteChar b) = true) then
          toAsciiUppercase (String.ofList ((symbolBytes s).map byteChar))
        else "SYM_" ++ toString s.toNat := by
  have hnone : symbolToStringTable.find? (fun entry => entry.1 == s) = none := by
    rw [find?_eq_none]
    rintro entry hentry heq
    exact h (mem_map.mpr ⟨entry, hentry, by simpa using heq⟩)
  rw [symbolToString, hnone]
  simp only [all_map, all_eq_true, Function.comp_apply]
  rfl

lemma exists_entry_of_named (h : s ∈ symbolToStringTable.map Prod.fst) :
    ∃ entry ∈ symbolToStringTable, entry.1 = s ∧ symbolToString s = toAsciiUppercase entry.2 := by
  obtain ⟨entry, hentry, rfl⟩ := mem_map.mp h
  cases hfind : symbolToStringTable.find? (fun other => other.1 == entry.1) with
  | none => exact absurd (beq_self_eq_true _) (find?_eq_none.mp hfind entry hentry)
  | some first =>
    have heq := find?_some hfind
    exact ⟨first, mem_of_find?_eq_some hfind, by simpa using heq, by
      rw [symbolToString, hfind]⟩

lemma ascii_of_named {entry : Symbol × String} (h : entry ∈ symbolToStringTable) :
    ∀ b ∈ symbolBytes entry.1, b.toNat < 128 := by
  -- as a Boolean test, which the kernel evaluates faster than the decidable proposition
  have hall : symbolToStringTable.all
      (fun entry => (symbolBytes entry.1).all fun b => b.toNat < 128) = true := by
    decide +kernel
  intro b hb
  exact of_decide_eq_true (all_eq_true.mp (all_eq_true.mp hall entry h) b hb)

/-- They spell the name of five of them. -/
lemma spells_iff_of_named : ∀ entry ∈ symbolToStringTable,
    (symbolBytes entry.1).map byteChar = entry.2.toList.map Char.toUpper
      ↔ entry.1 ∈ [src, dst, key, bpp, app] := by
  decide +kernel

lemma toText_eq_iff_of_named (h : s ∈ symbolToStringTable.map Prod.fst) :
    s.toText = symbolToString s ↔ s ∈ [src, dst, key, bpp, app] := by
  obtain ⟨entry, hentry, rfl, hname⟩ := exists_entry_of_named h
  rw [hname, toText_of_ascii (ascii_of_named hentry), toAsciiUppercase, String.ofList_inj,
    spells_iff_of_named entry hentry]

lemma named_of_mem (h : s ∈ [src, dst, key, bpp, app]) :
    s ∈ symbolToStringTable.map Prod.fst := by
  have hall : [src, dst, key, bpp, app].all
      (fun s => symbolToStringTable.any fun entry => entry.1 == s) = true := by
    decide +kernel
  obtain ⟨entry, hentry, heq⟩ := any_eq_true.mp (all_eq_true.mp hall s h)
  exact mem_map.mpr ⟨entry, hentry, by simpa using heq⟩

lemma toText_eq_iff_of_unnamed (h : s ∉ symbolToStringTable.map Prod.fst) :
    s.toText = symbolToString s ↔ ∀ b ∈ symbolBytes s, IsPlain b := by
  rw [symbolToString_of_unnamed h]
  split
  case isTrue hname =>
    rw [toText_of_ascii fun b hb => lt_of_isNameChar (hname b hb), toAsciiUppercase,
      String.toList_ofList, String.ofList_inj, map_map, map_inj_left]
    refine forall₂_congr fun b hb => ?_
    rw [isPlain_iff, and_iff_right (hname b hb), Function.comp_apply, eq_comm]
  case isFalse hname =>
    refine iff_of_false (toText_ne s ?_ ?_) fun hplain => hname fun b hb => ?_
    · rw [String.utf8ByteSize_append]
      exact Nat.lt_add_right _ (by decide)
    · simp
    · exact ((isPlain_iff b).mp (hplain b hb)).1

lemma toText_eq_iff (s : Symbol) : s.toText = symbolToString s ↔ Alike s := by
  by_cases h : s ∈ symbolToStringTable.map Prod.fst
  · rw [toText_eq_iff_of_named h, Alike]
    exact ⟨Or.inl, fun halike => halike.resolve_right fun hs => hs.1 h⟩
  · have hnamed : s ∉ [src, dst, key, bpp, app] := fun hs => h (named_of_mem hs)
    rw [toText_eq_iff_of_unnamed h, Alike]
    simp only [hnamed, h, not_false_eq_true, true_and, false_or]

end Canon

open Canon

/-! ## Grants and links made from a symbol -/

lemma grantCapability_toText (ext : Externs) (now : ℕ) (g : GraphState)
    (bundle grantee target : Uuid) (s : Symbol) :
    grantCapability ext now g bundle ⟨grantee, target, s.toText⟩ = (g, false) := by
  rcases grantCapability_cases ext now g bundle ⟨grantee, target, s.toText⟩ with h | ⟨hcap, -⟩
  · exact h
  · exfalso
    have hnames : ∀ name ∈ ["CAN_READ", "CAN_WRITE", "CAN_LINK", "CAN_HANDLE_IRQ", "CAN_DMA",
        "CAN_MMIO", "CAN_PORT_IO"], 3 < name.utf8ByteSize ∧ '_' ∈ name.toList := by
      decide
    have hmem : s.toText ∈ ["CAN_READ", "CAN_WRITE", "CAN_LINK", "CAN_HANDLE_IRQ", "CAN_DMA",
        "CAN_MMIO", "CAN_PORT_IO"] := by
      simpa [isDataCapability, isHardwareCapability, or_assoc] using hcap
    obtain ⟨hsize, hunderscore⟩ := hnames _ hmem
    exact toText_ne s hsize hunderscore rfl

variable {bundle : BundleId}

namespace Store

/-- The `CAN_LINK` edges of a bundle at either end of a link. -/
def LinkEdge (bundle : BundleId) (src dst : Uuid) (e : GraphEdge) : Prop :=
  e.src = bundle ∧ e.pred = symbolToString Canon.canLink ∧ (e.dst = src ∨ e.dst = dst)
deriving Decidable

/-- A bundle may link the two Things only through edges for the predicate `k`. -/
structure LinksOnly (s : Store) (bundle : BundleId) (src dst : Uuid) (k : Symbol) : Prop where
  stranger : bundle ≠ kernelBundleId ∧ s.owns bundle src = false ∧ s.owns bundle dst = false
  edge : ∃ e ∈ s.edges, LinkEdge bundle src dst e
  kind : ∀ e ∈ s.edges, LinkEdge bundle src dst e → e.props[Canon.kind]? = some (.symbol k)

/-- For a bundle that owns neither end, `can_link` is a search among its `CAN_LINK` edges. -/
lemma canLink_eq_any {s : Store} {src dst : Uuid}
    (h : bundle ≠ kernelBundleId ∧ s.owns bundle src = false ∧ s.owns bundle dst = false)
    (pred : String) :
    s.canLink bundle src dst pred
      = (s.edgesOf bundle (symbolToString Canon.canLink)).any fun edge =>
        (edge.dst == src || edge.dst == dst) &&
          match edge.props[Canon.kind]? with
          | some (.symbol capKind) => symbolToString capKind == pred
          | _ => true := by
  have hkernel : (bundle == kernelBundleId) = false := by simpa using h.1
  rw [canLink, hkernel, h.2.1, h.2.2, edgesOf, bundleNodeId]
  cases s.edgesBySrcPred[(bundle, symbolToString Canon.canLink)]? <;> rfl

lemma WellFormed.canLink_toText {s : Store} (h : s.WellFormed)
    {src dst : Uuid} {k : Symbol} (honly : s.LinksOnly bundle src dst k) :
    s.canLink bundle src dst k.toText = true ↔ Alike k := by
  rw [canLink_eq_any honly.stranger, h.edgesOf_eq, any_eq_true, ← toText_eq_iff]
  constructor
  · rintro ⟨e, he, hpermits⟩
    obtain ⟨hmem, hsrc, hpred⟩ := mem_edgeGroup.mp he
    simp only [Bool.and_eq_true, Bool.or_eq_true, beq_iff_eq] at hpermits
    rw [honly.kind e hmem ⟨hsrc, hpred, hpermits.1⟩] at hpermits
    exact (beq_iff_eq.mp hpermits.2).symm
  · intro halike
    obtain ⟨e, hmem, hedge⟩ := honly.edge
    refine ⟨e, mem_edgeGroup.mpr ⟨hmem, hedge.1, hedge.2.1⟩, ?_⟩
    simpa [honly.kind e hmem hedge, halike] using hedge.2.2

end Store

/-- A link made from a symbol gives what is looked up under the symbol when both print it alike and
the store keeps the edge. -/
lemma hasCapability_linkEdge {g : GraphState} (h : g.store.WellFormed) (ext : Externs) (now : ℕ)
    {link : GraphLinkRequest} (hpred : link.pred = s.toText)
    (hlink : g.store.canLink bundle link.from_ link.to_ link.pred = true) :
    (linkEdge ext now g bundle link).1.store.hasCapability link.from_ link.to_ s = true
      ↔ g.store.hasCapability link.from_ link.to_ s = true
        ∨ Alike s
          ∧ g.store.KeepsEdge (linkRequestEdge ext bundle link g.store.nextRevision) := by
  rw [← toText_eq_iff]
  cases hedge : g.store.edgeBetween link.from_ link.pred link.to_ with
  | some edge =>
    -- the edge is there already and nothing is written
    obtain ⟨hmem, hsrc, hedgePred, hdst⟩ := h.of_edgeBetween hedge
    have hsame : (linkEdge ext now g bundle link).1 = g := by simp [linkEdge, hlink, hedge]
    rw [hsame, iff_self_or]
    rintro ⟨halike, -⟩
    exact (h.hasCapability_iff _ _ _).mpr
      ⟨edge, hmem, hsrc, by rw [hedgePred, hpred, halike], hdst⟩
  | none =>
    obtain ⟨hgraph, -⟩ := linkEdge_of_new ext now g bundle hlink hedge
    have hwf := Store.WellFormed.of_graph hgraph (h.commitEdge _)
    have hedges := edges_eq_of_graph hgraph
    rw [commitEdge, edges_insertEdge] at hedges
    rw [hwf.hasCapability_iff, h.hasCapability_iff, hedges]
    have hsame (e : GraphEdge) : g.store.takeNextRevision.2.KeepsEdge e ↔ g.store.KeepsEdge e :=
      .rfl
    by_cases hkeeps : g.store.KeepsEdge (linkRequestEdge ext bundle link g.store.nextRevision)
    · simp only [hsame, if_true, takeNextRevision_edges, mem_append,
        mem_singleton, or_and_right, exists_or, exists_eq_left, hkeeps, and_true]
      refine or_congr_right ?_
      simp [linkRequestEdge, hpred]
    · simp only [hsame, if_false, takeNextRevision_edges, hkeeps, and_false, or_false]

/-- For every symbol and in every reachable state: the two printers agree on it, a link made from it
is found under it, and a link made from it is let through by a capability for it, in the cases of
`Alike` and no others. A grant made from it is never accepted. -/
theorem spelling_agrees_iff (ext : Externs) (calls : List Call) (s : Symbol) :
    (s.toText = symbolToString s ↔ Alike s)
      ∧ (∀ now bundle grantee target,
        grantCapability ext now (reach ext calls) bundle ⟨grantee, target, s.toText⟩
          = (reach ext calls, false))
      ∧ (∀ now bundle (link : GraphLinkRequest), link.pred = s.toText →
        (reach ext calls).store.canLink bundle link.from_ link.to_ link.pred = true →
        ((linkEdge ext now (reach ext calls) bundle link).1.store.hasCapability
            link.from_ link.to_ s = true
          ↔ (reach ext calls).store.hasCapability link.from_ link.to_ s = true
            ∨ Alike s ∧ (reach ext calls).store.KeepsEdge
              (linkRequestEdge ext bundle link (reach ext calls).store.nextRevision)))
      ∧ ∀ bundle src dst, (reach ext calls).store.LinksOnly bundle src dst s →
        ((reach ext calls).store.canLink bundle src dst s.toText = true ↔ Alike s) :=
  have hwf := reach_wellFormed ext calls
  ⟨toText_eq_iff s, fun now bundle grantee target =>
      grantCapability_toText ext now _ bundle grantee target s,
    fun now _ _ hpred hlink => hasCapability_linkEdge hwf ext now hpred hlink,
    fun _ _ _ honly => hwf.canLink_toText honly⟩

/-- The kernel lets the bundle `0xb1` link from the Thing `1`, under one predicate only. -/
def linkGrant (k : Symbol) : List Call :=
  [⟨kernelBundleId, 0, .linkEdge
    ⟨none, "CAN_LINK", 0xb1#128, 1#128, (∅ : Map).insert Canon.kind (.symbol k)⟩⟩]

theorem spelling_agrees_iff_src :
    Canon.src.toText = symbolToString Canon.src
      ∧ (reach crates (linkGrant Canon.src)).store.canLink 0xb1#128 1#128 2#128 Canon.src.toText
        = true := by
  have hagree := spelling_agrees_iff crates (linkGrant Canon.src) Canon.src
  have halike : Alike Canon.src := Or.inl (by simp)
  refine ⟨hagree.1.mpr halike, (hagree.2.2.2 _ _ _ ⟨?_, ?_, ?_⟩).mpr halike⟩
  · decide +kernel
  · decide +kernel
  · decide +kernel

/-- `CAN_READ` is `CRD` in userland: the kernel's own grant is refused, its link gives nothing, and
a bundle that may link under `CAN_READ` may not. -/
theorem canRead_spelled_apart :
    Canon.canRead.toText = "CRD" ∧ symbolToString Canon.canRead = "CAN_READ"
      ∧ (grantCapability crates 0 new kernelBundleId
        ⟨0xb1#128, 1#128, Canon.canRead.toText⟩).2 = false
      ∧ (linkEdge crates 0 new kernelBundleId
        ⟨none, Canon.canRead.toText, 0xb1#128, 1#128, ∅⟩).2 = 1
      ∧ (linkEdge crates 0 new kernelBundleId
        ⟨none, Canon.canRead.toText, 0xb1#128, 1#128, ∅⟩).1.store.hasCapability
          0xb1#128 1#128 Canon.canRead = false
      ∧ (reach crates (linkGrant Canon.canRead)).store.canLink 0xb1#128 1#128 2#128
        Canon.canRead.toText = false := by
  decide +kernel

end ThingOS
