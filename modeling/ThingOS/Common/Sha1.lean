import Mathlib

/-!
# SHA-1 and name-based UUIDs

An executable SHA-1 and, over it, the name-based (version 5) UUID. The kernel takes both from a
crate; this is what the crate computes, so that a run on concrete input can be evaluated.
-/

namespace ThingOS.Sha1

abbrev Word := BitVec 32

/-- The five words of chaining state. -/
structure State where
  a : Word
  b : Word
  c : Word
  d : Word
  e : Word

def init : State := ⟨0x67452301#32, 0xefcdab89#32, 0x98badcfe#32, 0x10325476#32, 0xc3d2e1f0#32⟩

/-- Big-endian bytes to a number. -/
def ofBytes (bs : List UInt8) : ℕ := bs.foldl (fun n b => n * 256 + b.toNat) 0

/-- The `len` low bytes of a number, most significant first. -/
def toBytes : (len n : ℕ) → List UInt8
  | 0, _ => []
  | len + 1, n => UInt8.ofNat (n / 256 ^ len) :: toBytes len n

/-- The message, a one bit, zeros up to a whole number of blocks and the length in bits. -/
def pad (message : List UInt8) : List UInt8 :=
  let zeros := (119 - message.length % 64) % 64
  message ++ [0x80] ++ List.replicate zeros 0 ++ toBytes 8 (8 * message.length)

def chunks {α : Type*} (k : ℕ) : (count : ℕ) → List α → List (List α)
  | 0, _ => []
  | count + 1, l => l.take k :: chunks k count (l.drop k)

/-- Extend the sixteen words of a block; `ws` holds the words so far, latest first. -/
def schedule : (rounds : ℕ) → (ws : List Word) → List Word
  | 0, ws => ws.reverse
  | rounds + 1, ws =>
    let word i := ws.getD i 0
    schedule rounds ((word 2 ^^^ word 7 ^^^ word 13 ^^^ word 15).rotateLeft 1 :: ws)

/-- The mixing function and the constant of a round. -/
def mix (round : ℕ) (s : State) : Word × Word :=
  if round < 20 then ((s.b &&& s.c) ||| (~~~s.b &&& s.d), 0x5a827999#32)
  else if round < 40 then (s.b ^^^ s.c ^^^ s.d, 0x6ed9eba1#32)
  else if round < 60 then ((s.b &&& s.c) ||| (s.b &&& s.d) ||| (s.c &&& s.d), 0x8f1bbcdc#32)
  else (s.b ^^^ s.c ^^^ s.d, 0xca62c1d6#32)

/-- One of the eighty rounds. -/
def roundStep (s : State) (word : Word × ℕ) : State :=
  let (f, k) := mix word.2 s
  ⟨s.a.rotateLeft 5 + f + s.e + k + word.1, s.a, s.b.rotateLeft 30, s.c, s.d⟩

/-- Fold a block into the chaining state. -/
def compress (s : State) (block : List UInt8) : State :=
  let words := (chunks 4 16 block).map fun w => BitVec.ofNat 32 (ofBytes w)
  let t := ((schedule 64 words.reverse).zipIdx).foldl roundStep s
  ⟨s.a + t.a, s.b + t.b, s.c + t.c, s.d + t.d, s.e + t.e⟩

def digest (message : List UInt8) : List UInt8 :=
  let padded := pad message
  let s := (chunks 64 (padded.length / 64) padded).foldl compress init
  [s.a, s.b, s.c, s.d, s.e].flatMap fun w => toBytes 4 w.toNat

/-- The version 5 UUID of a name: sixteen bytes of the digest with version and variant set. -/
def newV5 (namespaceId : BitVec 128) (name : List UInt8) : BitVec 128 :=
  let hash := BitVec.ofNat 128 (ofBytes ((digest (toBytes 16 namespaceId.toNat ++ name)).take 16))
  hash &&& 0xffffffffffff0fff3fffffffffffffff#128 ||| 0x00000000000050008000000000000000#128

example :
    ofBytes (digest "abc".toUTF8.data.toList) = 0xa9993e364706816aba3e25717850c26c9cd0d89d := by
  decide +kernel

example : newV5 0x6ba7b8109dad11d180b400c04fd430c8#128 "www.example.com".toUTF8.data.toList
    = 0x2ed6657de927568b95e12665a8aea6a2#128 := by
  decide +kernel

end ThingOS.Sha1
