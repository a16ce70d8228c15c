import ThingOS.Drivers.Keyboard

/-!
# Dead keys

A dead key should wait for the next character and be composed with it. What takes it is the lookup
of a character, which the driver makes for releases as for presses. So it waits until a key with a
character is released, and that is nearly always its own release: only the key of the diaeresis has
no character while AltGr is up.
-/

namespace ThingOS.Drivers

open KeyboardDriver (Emitted)

def KeyCode.isModifier : KeyCode → Bool
  | .ctrlLeft | .ctrlRight | .shiftLeft | .shiftRight | .altLeft | .altRight | .capsLock | .numLock
  | .scrollLock | .guiLeft | .guiRight => true
  | _ => false

/-- What may come between a dead key and its character: any release, and what modifiers do. -/
structure Interlude where
  event : Emitted
  quiet : event.down = false ∨ (decodeKey event.code event.extended).isModifier = true

/-- What a dead key and a character make. -/
def composed (dead : DeadKey) (ch : Char) : Char := (applyDeadKey dead ch).getD ch

variable {code press : UInt8} {dead : DeadKey}

namespace Keyboard

variable (d : Keyboard)

def interlude (e : Interlude) : Keyboard := d.step e.event

/-- A release that takes the dead key: that of a key with a character, other than the key of the
diaeresis while AltGr is up. -/
def Takes (e : Emitted) : Prop :=
  (decodeKey e.code e.extended).isCharacter = true ∧ (e.code = 0x1A → d.altgr = true)

/-- The press of a key for its character, not as a dead key. -/
def CharacterPress (code : UInt8) : Prop :=
  (decodeKey code false).isCharacter = true ∧ (d.altgr = true ∨ deadKeyFor d.shift code = none)

instance instDecidableCharacterPress (code : UInt8) : Decidable (d.CharacterPress code) :=
  inferInstanceAs (Decidable (_ ∧ _))

/-- The press of a key gives its character composed with `dead`, and nothing waits any more. -/
def Composes (dead : DeadKey) (code : UInt8) : Prop :=
  ∃ ch, d.plainChar code = some ch ∧ (d.step ⟨code, false⟩).deadkey = .none
    ∧ let fields := eventFields d.deviceId code true (some (fromChar (composed dead ch)))
        (String.singleton (composed dead ch))
      d.declares ⟨code, false⟩ = [⟨Canon.keyEvent, fields⟩, ⟨Canon.keyPressed, fields⟩]

/-! ## Which keys have a character -/

/-- Each of the three tables of the layout by itself. -/
lemma plainKeys_character : ∀ entry ∈ plainKeys, entry.2.isCharacter = true →
    entry.1 &&& 0x80 = 0 ∧ entry.1 &&& 0x7F = entry.1
      ∧ (entry.1 ≠ 0x1A → ∀ shift altgr, (letterFromScancode entry.1).isSome
        ∨ (digitFromScancode entry.1 shift).isSome
        ∨ (symbolFromScancode entry.1 shift altgr).isSome) := by
  decide +kernel

lemma mem_plainKeys_of_isCharacter {extended : Bool}
    (h : (decodeKey code extended).isCharacter = true) :
    extended = false ∧ (code, decodeKey code extended) ∈ plainKeys := by
  have hextended : ∀ entry ∈ extendedKeys, entry.2.isCharacter = false := by decide +kernel
  rcases decodeKey_cases code extended with ⟨-, hmem⟩ | hmem | ⟨idx, hkey⟩ | hkey
  · rw [hextended _ hmem] at h
    cases h
  · exact hmem
  · rw [hkey] at h
    cases h
  · rw [hkey] at h
    cases h

lemma press_of_isCharacter (h : (decodeKey code false).isCharacter = true) :
    (⟨code, false⟩ : Emitted).down = true ∧ (⟨code, false⟩ : Emitted).code = code := by
  obtain ⟨-, hmem⟩ := mem_plainKeys_of_isCharacter h
  obtain ⟨hdown, hcode, -⟩ := plainKeys_character _ hmem h
  exact ⟨decide_eq_true hdown, hcode⟩

lemma plainChar_isSome_iff {extended : Bool} (h : (decodeKey code extended).isCharacter = true) :
    (d.plainChar code).isSome = true ↔ (code = 0x1A → d.altgr = true) := by
  obtain ⟨-, hmem⟩ := mem_plainKeys_of_isCharacter h
  by_cases hcode : code = 0x1A
  · subst hcode
    have hletter : letterFromScancode 0x1A = none := by decide
    have hdigit : ∀ shift, digitFromScancode 0x1A shift = none := by decide
    have hsymbol : ∀ shift altgr, symbolFromScancode 0x1A shift altgr = none := by decide
    cases haltgr : d.altgr <;>
      simp [plainChar, haltgr, hletter, hdigit, hsymbol, altgrCharFromScancode]
  · have hsome := (plainKeys_character _ hmem h).2.2 hcode d.shift d.altgr
    simp only [plainChar, Option.isSome_or, Option.isSome_map, Bool.or_eq_true, hcode,
      false_imp_iff, iff_true]
    exact .inr hsome

/-! ## Between a dead key and its character -/

lemma updateState_deadkey (keyCode : KeyCode) (down : Bool) :
    (d.updateState keyCode down).deadkey = d.deadkey := by
  unfold updateState
  split
  any_goals rfl
  all_goals split <;> rfl

/-- Only a character takes the dead key. -/
lemma emitKey_deadkey (code : UInt8) (extended down : Bool) :
    (d.emitKey code extended down).1.deadkey
      = if (decodeKey code extended).isCharacter ∧ (d.plainChar code).isSome then .none
        else d.deadkey := by
  rw [emitKey_fst, keyChar_fst]
  by_cases hkey : (decodeKey code extended).isCharacter
  · rw [updateState_of_isCharacter d hkey]
    split <;> rfl
  · rw [if_neg (fun h => hkey h.1), if_neg (fun h => hkey h.1), updateState_deadkey]

lemma not_starts_interlude (e : Interlude) : ¬ d.Starts e.event := by
  rintro ⟨hdown, hextended, -, hdead⟩
  have hcharacter := isCharacter_of_deadKeyFor hdead
  rcases e.quiet with hup | hmodifier
  · rw [hup] at hdown
    cases hdown
  · rw [hextended] at hmodifier
    revert hmodifier hcharacter
    cases decodeKey e.event.code false <;> simp [KeyCode.isModifier, KeyCode.isCharacter]

lemma interlude_deadkey_eq_iff (hdead : dead ≠ .none) (h : d.deadkey = dead)
    (e : Interlude) : (d.interlude e).deadkey = dead ↔ ¬ d.Takes e.event := by
  have hiff : (decodeKey e.event.code e.event.extended).isCharacter
      ∧ (d.plainChar e.event.code).isSome ↔ d.Takes e.event :=
    and_congr_right fun hkey => plainChar_isSome_iff d hkey
  rw [interlude, step, emitEvent_of_not_starts d _ (d.not_starts_interlude e), emitKey_deadkey]
  by_cases htakes : d.Takes e.event
  · rw [if_pos (hiff.mpr htakes)]
    exact iff_of_false hdead.symm (not_not.mpr htakes)
  · rw [if_neg (mt hiff.mp htakes)]
    exact iff_of_true h htakes

/-! ## The character -/

lemma describeKey_of_isCharacter {keyCode : KeyCode} (hkey : keyCode.isCharacter = true)
    {ch : Char} (hch : d.plainChar code = some ch) (down : Bool) :
    d.describeKey keyCode code down
      = ({ d with deadkey := .none }, some (fromChar (composed d.deadkey ch)),
        String.singleton (composed d.deadkey ch)) := by
  cases keyCode with
  | character base shifted =>
    unfold describeKey keyChar
    rw [hch]
    rfl
  | _ => cases hkey

lemma composes_of_characterPress (h : d.deadkey = dead)
    (hpress : d.CharacterPress code) : d.Composes dead code := by
  obtain ⟨hkey, hlive⟩ := hpress
  obtain ⟨hdown, hcode⟩ := press_of_isCharacter hkey
  have hstarts : ¬ d.Starts ⟨code, false⟩ := by
    rintro ⟨-, -, haltgr, hdead⟩
    rw [hcode] at hdead
    rcases hlive with haltgr' | hnone
    · rw [haltgr] at haltgr'
      cases haltgr'
    · rw [hnone] at hdead
      cases hdead
  have hsome : (d.plainChar code).isSome = true := by
    rw [plainChar_isSome_iff d hkey]
    rintro rfl
    exact hlive.resolve_right nofun
  obtain ⟨ch, hch⟩ := Option.isSome_iff_exists.mp hsome
  have hemit := emitEvent_of_not_starts d ⟨code, false⟩ hstarts
  rw [hdown, hcode] at hemit
  have hdescribe := describeKey_of_isCharacter d hkey hch true
  refine ⟨ch, hch, ?_, ?_⟩
  · rw [step, hemit, emitKey_deadkey, if_pos ⟨hkey, hsome⟩]
  · rw [declares, hemit, emitKey, updateState_of_isCharacter d hkey, hdescribe, h]
    rfl

/-! ## Runs -/

lemma step_deadkey_of_deadKeyFor (haltgr : d.altgr = false)
    (hdead : deadKeyFor d.shift press = some dead) :
    (d.step ⟨press, false⟩).deadkey = dead := by
  have hkey := isCharacter_of_deadKeyFor (Option.isSome_of_eq_some hdead)
  obtain ⟨hdown, hcode⟩ := press_of_isCharacter hkey
  rw [step, emitEvent_of_starts d ⟨press, false⟩ hdown rfl haltgr (by rwa [hcode])]

lemma ne_none_of_deadKeyFor {shift : Bool}
    (hdead : deadKeyFor shift press = some dead) : dead ≠ .none := by
  unfold deadKeyFor at hdead
  split at hdead <;> cases shift <;> cases hdead <;> exact nofun

/-- A dead key waits through an interlude, for the next character to be composed with it, exactly if
no key with a character is released meanwhile. -/
theorem deadKey_composes_iff (haltgr : d.altgr = false) {press : UInt8} {dead : DeadKey}
    (hdead : deadKeyFor d.shift press = some dead) (between : List Interlude) :
    ((∀ pre post, between = pre ++ post →
        (run interlude (d.step ⟨press, false⟩) pre).deadkey = dead)
      ∧ ∀ code, (run interlude (d.step ⟨press, false⟩) between).CharacterPress code →
        (run interlude (d.step ⟨press, false⟩) between).Composes dead code)
    ↔ EachStep interlude (fun d e => ¬ d.Takes e.event) (d.step ⟨press, false⟩) between := by
  have hpending := step_deadkey_of_deadKeyFor d haltgr hdead
  have hwaits : (∀ pre post, between = pre ++ post →
        (run interlude (d.step ⟨press, false⟩) pre).deadkey = dead)
      ↔ EachStep interlude (fun d e => ¬ d.Takes e.event) (d.step ⟨press, false⟩) between :=
    throughout_iff_eachStep (V := fun _ => True) (P := fun d => d.deadkey = dead) trivial hpending
      (fun _ _ _ => trivial)
      fun d e _ h => interlude_deadkey_eq_iff d (ne_none_of_deadKeyFor hdead) h e
  rw [← hwaits, and_iff_left_iff_imp]
  intro h code hpress
  exact composes_of_characterPress _ (h between [] (List.append_nil _).symm) hpress

def shiftDown : Interlude := ⟨⟨0x2A, false⟩, .inr (by decide +kernel)⟩

theorem deadKey_composes_shift :
    (run interlude ((init none none).step ⟨0x28, false⟩) [shiftDown]).Composes .acute 0x12 :=
  ((deadKey_composes_iff (init none none) rfl (rfl : deadKeyFor false 0x28 = some .acute)
      [shiftDown]).mpr
    (eachStep_cons.mpr ⟨fun h => absurd h.1 (by decide +kernel), eachStep_nil _⟩)).2 0x12
    ⟨by decide +kernel, .inr (by decide +kernel)⟩

def acuteUp : Interlude := ⟨⟨0xA8, false⟩, .inl (by decide)⟩

/-- The acute is taken by its own release: the e after it stays an e. -/
theorem deadKey_taken_by_release :
    let σ := run interlude ((init none none).step ⟨0x28, false⟩) [acuteUp]
    σ.deadkey = .none ∧ σ.CharacterPress 0x12 ∧ composed .acute 'e' = 'é'
      ∧ (σ.declares ⟨0x12, false⟩).map (·.fields[Canon.text]?)
        = [some (.text "e"), some (.text "e")] := by
  decide +kernel

end Keyboard

end ThingOS.Drivers
