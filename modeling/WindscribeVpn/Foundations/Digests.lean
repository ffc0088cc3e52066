import WindscribeVpn.Foundations.Positional
import WindscribeVpn.Foundations.Texts

/-!
# Base64 and SHA-256

`decodeBase64` is the basic decoder: groups of four characters, of which the last may be short or
padded, and nothing else. `sha256` is the digest of a message of bytes. Bytes are numbers below 256,
the words of the digest machine words of 32 bits.
-/

set_option autoImplicit false
set_option relaxedAutoImplicit false

namespace WindscribeVpn.Foundations.Digests

open Positional Texts

/-! ### Base64 -/

/-- The six bits of a character. -/
def sextet (c : Char) : Option ℕ :=
  if c.isUpper then some (c.toNat - 'A'.toNat)
  else if c.isLower then some (c.toNat - 'a'.toNat + 26)
  else if c.isDigit then some (c.toNat - '0'.toNat + 52)
  else if c = '+' then some 62
  else if c = '/' then some 63
  else none

/-- The whole bytes of a group of characters. -/
def groupBytes (group : Text) : Option (List ℕ) :=
  (group.mapM sextet).map fun sextets ↦
    let bits := ofBase 64 sextets
    let bytes := 6 * sextets.length / 8
    toBase 256 bytes (bits / 2 ^ (6 * sextets.length % 8))

/-- Decodes a text; `none` when the decoder throws. -/
def decodeBase64 : Text → Option (List ℕ)
  | [] => some []
  | [a, b] => groupBytes [a, b]
  | [a, b, c] => groupBytes [a, b, c]
  | [a, b, '=', '='] => groupBytes [a, b]
  | [a, b, c, '='] => groupBytes [a, b, c]
  | a :: b :: c :: d :: rest => do
    let first ← groupBytes [a, b, c, d]
    let others ← decodeBase64 rest
    pure (first ++ others)
  | [_] => none

/-! ### SHA-256 -/

/-- A word. -/
abbrev Word := BitVec 32

/-- The eight working variables. -/
structure Registers where
  a : Word
  b : Word
  c : Word
  d : Word
  e : Word
  f : Word
  g : Word
  h : Word
  deriving DecidableEq, Repr

/-- The initial hash value. -/
def initialHash : Registers :=
  { a := 0x6a09e667, b := 0xbb67ae85, c := 0x3c6ef372, d := 0xa54ff53a, e := 0x510e527f
    f := 0x9b05688c, g := 0x1f83d9ab, h := 0x5be0cd19 }

/-- The round constants. -/
def roundConstants : List Word :=
  [0x428a2f98, 0x71374491, 0xb5c0fbcf, 0xe9b5dba5, 0x3956c25b, 0x59f111f1, 0x923f82a4, 0xab1c5ed5,
    0xd807aa98, 0x12835b01, 0x243185be, 0x550c7dc3, 0x72be5d74, 0x80deb1fe, 0x9bdc06a7, 0xc19bf174,
    0xe49b69c1, 0xefbe4786, 0x0fc19dc6, 0x240ca1cc, 0x2de92c6f, 0x4a7484aa, 0x5cb0a9dc, 0x76f988da,
    0x983e5152, 0xa831c66d, 0xb00327c8, 0xbf597fc7, 0xc6e00bf3, 0xd5a79147, 0x06ca6351, 0x14292967,
    0x27b70a85, 0x2e1b2138, 0x4d2c6dfc, 0x53380d13, 0x650a7354, 0x766a0abb, 0x81c2c92e, 0x92722c85,
    0xa2bfe8a1, 0xa81a664b, 0xc24b8b70, 0xc76c51a3, 0xd192e819, 0xd6990624, 0xf40e3585, 0x106aa070,
    0x19a4c116, 0x1e376c08, 0x2748774c, 0x34b0bcb5, 0x391c0cb3, 0x4ed8aa4a, 0x5b9cca4f, 0x682e6ff3,
    0x748f82ee, 0x78a5636f, 0x84c87814, 0x8cc70208, 0x90befffa, 0xa4506ceb, 0xbef9a3f7, 0xc67178f2]

/-- One round with the schedule's word and the constant. -/
def round (r : Registers) (word constant : Word) : Registers :=
  let sum1 := r.e.rotateRight 6 ^^^ r.e.rotateRight 11 ^^^ r.e.rotateRight 25
  let choice := (r.e &&& r.f) ^^^ (~~~r.e &&& r.g)
  let first := r.h + sum1 + choice + constant + word
  let sum0 := r.a.rotateRight 2 ^^^ r.a.rotateRight 13 ^^^ r.a.rotateRight 22
  let majority := (r.a &&& r.b) ^^^ (r.a &&& r.c) ^^^ (r.b &&& r.c)
  { a := first + (sum0 + majority), b := r.a, c := r.b, d := r.c, e := r.d + first, f := r.e
    g := r.f, h := r.g }

/-- The word of the schedule that follows sixteen words. -/
def nextWord (window : List Word) : Word :=
  let late := window.getD 14 0
  let early := window.getD 1 0
  (late.rotateRight 17 ^^^ late.rotateRight 19 ^^^ late >>> 10) + window.getD 9 0 +
    (early.rotateRight 7 ^^^ early.rotateRight 18 ^^^ early >>> 3) + window.getD 0 0

/-- The rounds, along the constants; the window holds the sixteen next words of the schedule. -/
def rounds : List Word → List Word → Registers → Registers
  | [], _, r => r
  | constant :: constants, window, r =>
    rounds constants (window.tail ++ [nextWord window]) (round r (window.getD 0 0) constant)

/-- Adds a block of sixteen words to a hash value. -/
def compress (hash : Registers) (block : List Word) : Registers :=
  let r := rounds roundConstants block hash
  { a := hash.a + r.a, b := hash.b + r.b, c := hash.c + r.c, d := hash.d + r.d, e := hash.e + r.e
    f := hash.f + r.f, g := hash.g + r.g, h := hash.h + r.h }

/-- The message with a one bit, as many zeros as fill the last block, and its length in bits. -/
def padded (message : List ℕ) : List ℕ :=
  message ++ 0x80 :: List.replicate ((119 - message.length % 64) % 64) 0 ++
    toBase 256 8 (8 * message.length)

/-- The words of a list of bytes. -/
def words : List ℕ → List Word
  | a :: b :: c :: d :: rest => BitVec.ofNat 32 (ofBase 256 [a, b, c, d]) :: words rest
  | _ => []

/-- The bytes of a hash value. -/
def Registers.bytes (r : Registers) : List ℕ :=
  [r.a, r.b, r.c, r.d, r.e, r.f, r.g, r.h].flatMap fun word ↦ toBase 256 4 word.toNat

/-- The digest of a message, 32 bytes. -/
def sha256 (message : List ℕ) : List ℕ :=
  (((words (padded message)).toChunks 16).foldl compress initialHash).bytes

@[simp] theorem length_sha256 (message : List ℕ) : (sha256 message).length = 32 := by
  simp [sha256, Registers.bytes]

theorem lt_of_mem_sha256 {message : List ℕ} {byte : ℕ} (hmem : byte ∈ sha256 message) :
    byte < 256 := by
  obtain ⟨word, -, hword⟩ := List.mem_flatMap.mp hmem
  exact lt_of_mem_toBase (by decide) hword

end WindscribeVpn.Foundations.Digests
