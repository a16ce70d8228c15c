import ThingOS.Abi.Symbol

/-!
# Key codes and the layout

The tables of `keyboard_driver`: which key a scancode stands for, the characters of the layout
`UsAltGrIntl`, and what a dead key makes of a character. Quotes, backslash and braces are written by
their codes.
-/

namespace ThingOS.Drivers

inductive KeyCode where
  | character (base : Char) (shifted : Option Char)
  | enter | escape | backspace | tab
  | ctrlLeft | ctrlRight | shiftLeft | shiftRight | altLeft | altRight
  | capsLock | numLock | scrollLock
  | function (idx : UInt8)
  | arrowUp | arrowDown | arrowLeft | arrowRight
  | home | end_ | pageUp | pageDown | insert | delete
  | guiLeft | guiRight | contextMenu
  | keypad (digit : UInt8)
  | keypadDecimal | keypadAdd | keypadSubtract | keypadMultiply | keypadDivide | keypadEnter
  | unknown (code : UInt8) (extended : Bool)
deriving DecidableEq

def KeyCode.isCharacter : KeyCode → Bool
  | .character .. => true
  | _ => false

/-- Whether a key may stand in the tables below. -/
def KeyCode.isListed : KeyCode → Bool
  | .function _ | .unknown .. => false
  | _ => true

/-- The keys whose scancodes are prefixed. -/
def extendedKeys : List (UInt8 × KeyCode) :=
  [(0x1C, .keypadEnter), (0x1D, .ctrlRight), (0x35, .keypadDivide), (0x38, .altRight),
   (0x47, .home), (0x48, .arrowUp), (0x49, .pageUp), (0x4B, .arrowLeft), (0x4D, .arrowRight),
   (0x4F, .end_), (0x50, .arrowDown), (0x51, .pageDown), (0x52, .insert), (0x53, .delete),
   (0x5B, .guiLeft), (0x5C, .guiRight), (0x5D, .contextMenu)]

/-- The other keys, without the ten function keys in a row. -/
def plainKeys : List (UInt8 × KeyCode) :=
  [(0x01, .escape), (0x02, .character '1' (some '!')), (0x03, .character '2' (some '@')),
   (0x04, .character '3' (some '#')), (0x05, .character '4' (some '$')),
   (0x06, .character '5' (some '%')), (0x07, .character '6' (some '^')),
   (0x08, .character '7' (some '&')), (0x09, .character '8' (some '*')),
   (0x0A, .character '9' (some '(')), (0x0B, .character '0' (some ')')),
   (0x0C, .character '-' (some '_')), (0x0D, .character '=' (some '+')), (0x0E, .backspace),
   (0x0F, .tab), (0x10, .character 'q' none), (0x11, .character 'w' none),
   (0x12, .character 'e' none), (0x13, .character 'r' none), (0x14, .character 't' none),
   (0x15, .character 'y' none), (0x16, .character 'u' none), (0x17, .character 'i' none),
   (0x18, .character 'o' none), (0x19, .character 'p' none), (0x1A, .character '[' (some '\x7b')),
   (0x1B, .character ']' (some '\x7d')), (0x1C, .enter), (0x1D, .ctrlLeft),
   (0x1E, .character 'a' none), (0x1F, .character 's' none), (0x20, .character 'd' none),
   (0x21, .character 'f' none), (0x22, .character 'g' none), (0x23, .character 'h' none),
   (0x24, .character 'j' none), (0x25, .character 'k' none), (0x26, .character 'l' none),
   (0x27, .character ';' (some ':')), (0x28, .character '\x27' (some '\x22')),
   (0x29, .character '\x60' (some '~')), (0x2A, .shiftLeft), (0x2B, .character '\x5c' (some '|')),
   (0x2C, .character 'z' none), (0x2D, .character 'x' none), (0x2E, .character 'c' none),
   (0x2F, .character 'v' none), (0x30, .character 'b' none), (0x31, .character 'n' none),
   (0x32, .character 'm' none), (0x33, .character ',' (some '<')),
   (0x34, .character '.' (some '>')), (0x35, .character '/' (some '?')), (0x36, .shiftRight),
   (0x37, .keypadMultiply), (0x38, .altLeft), (0x39, .character ' ' none), (0x3A, .capsLock),
   (0x45, .numLock), (0x46, .scrollLock), (0x47, .keypad 7), (0x48, .keypad 8), (0x49, .keypad 9),
   (0x4A, .keypadSubtract), (0x4B, .keypad 4), (0x4C, .keypad 5), (0x4D, .keypad 6),
   (0x4E, .keypadAdd), (0x4F, .keypad 1), (0x50, .keypad 2), (0x51, .keypad 3), (0x52, .keypad 0),
   (0x53, .keypadDecimal), (0x57, .function 11), (0x58, .function 12)]

def decodeKey (code : UInt8) (extended : Bool) : KeyCode :=
  if extended then (extendedKeys.lookup code).getD (.unknown code true)
  else if 0x3B ≤ code ∧ code ≤ 0x44 then .function (code - 0x3A)
  else (plainKeys.lookup code).getD (.unknown code false)

lemma mem_of_lookup {table : List (UInt8 × KeyCode)} {code : UInt8} {key : KeyCode}
    (h : table.lookup code = some key) : (code, key) ∈ table := by
  obtain ⟨before, after, rfl, -⟩ := List.lookup_eq_some_iff.mp h
  simp

/-- A key is an entry of one of the tables, a function key or unknown. -/
lemma decodeKey_cases (code : UInt8) (extended : Bool) :
    (extended = true ∧ (code, decodeKey code extended) ∈ extendedKeys)
      ∨ (extended = false ∧ (code, decodeKey code extended) ∈ plainKeys)
      ∨ (∃ idx, decodeKey code extended = .function idx)
      ∨ decodeKey code extended = .unknown code extended := by
  cases extended with
  | true =>
    cases hkey : extendedKeys.lookup code with
    | some key => exact .inl ⟨rfl, by simpa [decodeKey, hkey] using mem_of_lookup hkey⟩
    | none => exact .inr (.inr (.inr (by simp [decodeKey, hkey])))
  | false =>
    by_cases hrow : 0x3B ≤ code ∧ code ≤ 0x44
    · exact .inr (.inr (.inl ⟨code - 0x3A, by simp [decodeKey, hrow]⟩))
    · cases hkey : plainKeys.lookup code with
      | some key =>
        exact .inr (.inl ⟨rfl, by simpa [decodeKey, hrow, hkey] using mem_of_lookup hkey⟩)
      | none => exact .inr (.inr (.inr (by simp [decodeKey, hrow, hkey])))

lemma decodeKey_eq_iff {c : UInt8} {e : Bool} {key : KeyCode} (hat : decodeKey c e = key)
    (hextended : ∀ entry ∈ extendedKeys, entry.2 = key → (entry.1, true) = (c, e))
    (hplain : ∀ entry ∈ plainKeys, entry.2 = key → (entry.1, false) = (c, e))
    (hlisted : key.isListed = true) (code : UInt8) (extended : Bool) :
    decodeKey code extended = key ↔ (code, extended) = (c, e) := by
  constructor
  · rintro rfl
    rcases decodeKey_cases code extended with ⟨rfl, hmem⟩ | ⟨rfl, hmem⟩ | ⟨idx, hkey⟩ | hkey
    · exact hextended _ hmem rfl
    · exact hplain _ hmem rfl
    · rw [hkey] at hlisted
      cases hlisted
    · rw [hkey] at hlisted
      cases hlisted
  · intro h
    cases h
    exact hat

def keySymbol : KeyCode → Option Symbol
  | .character .. | .unknown .. => none
  | .enter => some (cc 'E' 'N')
  | .escape => some (cc 'E' 'S')
  | .backspace => some (cc 'B' 'S')
  | .tab => some (cc 'T' 'B')
  | .ctrlLeft | .ctrlRight => some (cc 'C' 'T')
  | .shiftLeft | .shiftRight => some (cc 'S' 'F')
  | .altLeft | .altRight => some (cc 'A' 'L')
  | .capsLock => some (cc 'C' 'L')
  | .numLock => some (cc 'N' 'L')
  | .scrollLock => some (cc 'S' 'L')
  | .function idx => some (0xF000 ||| BitVec.ofNat 32 idx.toNat)
  | .arrowUp => some (cc 'A' 'U')
  | .arrowDown => some (cc 'A' 'D')
  -- the code of the two Alt keys
  | .arrowLeft => some (cc 'A' 'L')
  | .arrowRight => some (cc 'A' 'R')
  | .home => some (cc 'H' 'M')
  | .end_ => some (cc 'E' 'D')
  | .pageUp => some (cc 'P' 'U')
  | .pageDown => some (cc 'P' 'D')
  | .insert => some (cc 'I' 'N')
  | .delete => some (cc 'D' 'L')
  | .guiLeft | .guiRight => some (cc 'G' 'U')
  | .contextMenu => some (cc 'M' 'N')
  | .keypad _ => some (cc 'K' 'P')
  | .keypadDecimal => some (cc 'K' '.')
  | .keypadAdd => some (cc 'K' '+')
  | .keypadSubtract => some (cc 'K' '-')
  | .keypadMultiply => some (cc 'K' '*')
  | .keypadDivide => some (cc 'K' '/')
  | .keypadEnter => some (cc 'K' 'E')

/-! ## The characters of the layout -/

def letterFromScancode (scancode : UInt8) : Option Char :=
  [(0x10, 'q'), (0x11, 'w'), (0x12, 'e'), (0x13, 'r'), (0x14, 't'), (0x15, 'y'), (0x16, 'u'),
   (0x17, 'i'), (0x18, 'o'), (0x19, 'p'), (0x1E, 'a'), (0x1F, 's'), (0x20, 'd'), (0x21, 'f'),
   (0x22, 'g'), (0x23, 'h'), (0x24, 'j'), (0x25, 'k'), (0x26, 'l'), (0x2C, 'z'), (0x2D, 'x'),
   (0x2E, 'c'), (0x2F, 'v'), (0x30, 'b'), (0x31, 'n'), (0x32, 'm')].lookup scancode

def digitFromScancode (scancode : UInt8) (shift : Bool) : Option Char :=
  let digit :=
    [(0x0B, '0'), (0x02, '1'), (0x03, '2'), (0x04, '3'), (0x05, '4'), (0x06, '5'), (0x07, '6'),
     (0x08, '7'), (0x09, '8'), (0x0A, '9')].lookup scancode
  let shifted (c : Char) : Char :=
    ([('1', '!'), ('2', '@'), ('3', '#'), ('4', '$'), ('5', '%'), ('6', '^'), ('7', '&'),
      ('8', '*'), ('9', '('), ('0', ')')].lookup c).getD c
  digit.map fun c => if shift then shifted c else c

def symbolFromScancode (scancode : UInt8) (shift altgr : Bool) : Option Char :=
  let symbol :=
    match scancode with
    | 0x0C => some '-'
    | 0x0D => some '='
    | 0x1B => some ']'
    | 0x39 => some ' '
    | 0x27 => some ';'
    | 0x28 => some '\x27'
    | 0x29 => some '\x60'
    | 0x2B => some '\x5c'
    | 0x33 => some ','
    | 0x34 => some '.'
    | 0x35 => some '/'
    | 0x56 => some (if altgr then '\x5c' else '\x60')
    | 0x73 => some ';'
    | 0x7D => if altgr then some '|' else none
    -- among them the key of the diaeresis, 0x1A
    | _ => none
  let shifted (c : Char) : Char :=
    ([('[', '\x7b'), (']', '\x7d'), ('-', '_'), ('=', '+'), (';', ':'), ('\x27', '\x22'),
      ('\x60', '~'), ('\x5c', '|'), (',', '<'), ('.', '>'), ('/', '?')].lookup c).getD c
  symbol.map fun c => if shift then shifted c else c

def altgrCharFromScancode (scancode : UInt8) (shift uppercase : Bool) : Option Char :=
  match scancode with
  | 0x02 => some (if shift then '¹' else '¡')
  | 0x03 => some '²'
  | 0x04 => some '³'
  | 0x05 => some (if shift then '£' else '¤')
  | 0x06 => some '€'
  | 0x07 => some '¼'
  | 0x08 => some '½'
  | 0x09 => some '¾'
  | 0x0A => some '‘'
  | 0x0B => some '’'
  | 0x0C => some '¥'
  | 0x0D => some (if shift then '÷' else '×')
  | 0x10 => some (if uppercase then 'Ä' else 'ä')
  | 0x11 => some (if uppercase then 'Å' else 'å')
  | 0x12 => some (if uppercase then 'É' else 'é')
  | 0x13 => some '®'
  | 0x14 => some (if uppercase then 'Þ' else 'þ')
  | 0x15 => some (if uppercase then 'Ü' else 'ü')
  | 0x16 => some (if uppercase then 'Ú' else 'ú')
  | 0x17 => some (if uppercase then 'Í' else 'í')
  | 0x18 => some (if uppercase then 'Ó' else 'ó')
  | 0x19 => some (if uppercase then 'Ö' else 'ö')
  | 0x1A => some '«'
  | 0x1B => some '»'
  | 0x1E => some (if uppercase then 'Á' else 'á')
  | 0x1F => some (if shift then '§' else 'ß')
  | 0x20 => some (if uppercase then 'Ð' else 'ð')
  | 0x26 => some (if uppercase then 'Ø' else 'ø')
  | 0x27 => some (if shift then '°' else '¶')
  | 0x28 => some (if shift then '¨' else '´')
  | 0x2B => some (if shift then '¦' else '¬')
  | 0x2C => some (if uppercase then 'Æ' else 'æ')
  | 0x2E => some (if shift then '¢' else '©')
  | 0x31 => some (if uppercase then 'Ñ' else 'ñ')
  | 0x32 => some 'µ'
  | 0x33 => some (if shift then 'Ç' else 'ç')
  | 0x35 => some '¿'
  | _ => none

/-! ## Dead keys -/

inductive DeadKey where
  | none | acute | grave | circumflex | diaeresis | tilde
deriving DecidableEq

/-- The compositions, in lower case. -/
def compositions : List ((DeadKey × Char) × Char) :=
  [((.acute, 'a'), 'á'), ((.acute, 'e'), 'é'), ((.acute, 'i'), 'í'), ((.acute, 'o'), 'ó'),
   ((.acute, 'u'), 'ú'), ((.acute, 'c'), 'ć'), ((.acute, 'n'), 'ń'), ((.grave, 'a'), 'à'),
   ((.grave, 'e'), 'è'), ((.grave, 'i'), 'ì'), ((.grave, 'o'), 'ò'), ((.grave, 'u'), 'ù'),
   ((.circumflex, 'a'), 'â'), ((.circumflex, 'e'), 'ê'), ((.circumflex, 'i'), 'î'),
   ((.circumflex, 'o'), 'ô'), ((.circumflex, 'u'), 'û'), ((.circumflex, 'c'), 'ĉ'),
   ((.diaeresis, 'a'), 'ä'), ((.diaeresis, 'e'), 'ë'), ((.diaeresis, 'i'), 'ï'),
   ((.diaeresis, 'o'), 'ö'), ((.diaeresis, 'u'), 'ü'), ((.diaeresis, 'y'), 'ÿ'),
   ((.tilde, 'a'), 'ã'), ((.tilde, 'o'), 'õ'), ((.tilde, 'n'), 'ñ')]

/-- The first character of `to_uppercase`, for the letters that are composed. Most are 32 codes up
from their upper case, the others one or, for the last, far away. -/
def toUppercase (c : Char) : Char :=
  if c = 'ÿ' then 'Ÿ'
  else if c.toNat < 0x100 then Char.ofNat (c.toNat - 32)
  else Char.ofNat (c.toNat - 1)

/-- `apply_dead_key`; a character that has a composition is an ASCII letter. -/
def applyDeadKey (dead : DeadKey) (ch : Char) : Option Char :=
  (compositions.lookup (dead, ch.toLower)).map fun composed =>
    if ch.isUpper then toUppercase composed else composed

end ThingOS.Drivers
