import WindscribeVpn.Foundations.Texts
import Mathlib.Tactic.IntervalCases

/-!
# Keys of WireGuard

`Key` of the WireGuard library: 32 bytes, written in Base64 and read from it. Writing and reading
take no branch on the key; digits are chosen by arithmetic on machine words. `fromBase64_toBase64`
says that a key is read back from its text, and `isBase64_of_mem_writeBytes` which characters the
text has.
-/

set_option autoImplicit false
set_option relaxedAutoImplicit false

namespace WindscribeVpn.Backend.WgKey

open Foundations.Texts

/-- `Key`. -/
structure Key where
  bytes : List (BitVec 8)
  length_bytes : bytes.length = 32
  deriving DecidableEq

/-! ### Writing -/

/-- The numbers of the digits that three bytes are written with. -/
def sextets (a b c : BitVec 8) : BitVec 32 × BitVec 32 × BitVec 32 × BitVec 32 :=
  let a := a.signExtend 32
  let b := b.signExtend 32
  let c := c.signExtend 32
  ((a >>> 2) &&& 63, (a <<< 4 ||| (b &&& 0xff) >>> 4) &&& 63,
    (b <<< 2 ||| (c &&& 0xff) >>> 6) &&& 63, c &&& 63)

/-- The digit of a number. -/
def base64Char (input : BitVec 32) : Char :=
  Char.ofNat (input + 65 + (((25 - input) >>> 8) &&& 6) - (((51 - input) >>> 8) &&& 75) -
    (((61 - input) >>> 8) &&& 15) + (((62 - input) >>> 8) &&& 3)).toNat

/-- `encodeBase64`. -/
def encodeBase64 (a b c : BitVec 8) : Char × Char × Char × Char :=
  let (first, second, third, fourth) := sextets a b c
  (base64Char first, base64Char second, base64Char third, base64Char fourth)

/-- The loop of `toBase64` and its end segment of two bytes. -/
def writeBytes : List (BitVec 8) → Text
  | [a, b] =>
    let (first, second, third, _) := encodeBase64 a b 0
    [first, second, third, '=']
  | a :: b :: c :: rest =>
    let (first, second, third, fourth) := encodeBase64 a b c
    first :: second :: third :: fourth :: writeBytes rest
  | _ => []

/-- `toBase64`. -/
def Key.toBase64 (key : Key) : Text := writeBytes key.bytes

/-! ### Reading -/

/-- All ones in the low bytes when a character lies between two others, the bounds included. -/
def between (c low high : BitVec 32) : BitVec 32 := ((low - 1 - c) &&& (c - (high + 1))) >>> 8

/-- The number of a digit, all ones when it is none. -/
def digitValue (c : Char) : BitVec 32 :=
  let c := BitVec.ofNat 32 c.toNat
  BitVec.allOnes 32 + (between c 65 90 &&& (c - 64)) + (between c 97 122 &&& (c - 70)) +
    (between c 48 57 &&& (c + 5)) + (between c 43 43 &&& 63) + (between c 47 47 &&& 64)

/-- `decodeBase64`. -/
def decodeBase64 (first second third fourth : Char) : BitVec 32 :=
  digitValue first <<< 18 ||| digitValue second <<< 12 ||| digitValue third <<< 6 |||
    digitValue fourth

/-- The loop of `fromBase64` and its end segment; `none` where it throws. -/
def readBytes : Text → Option (List (BitVec 8))
  | [first, second, third, '='] =>
    let val := decodeBase64 first second third 'A'
    if val >>> 31 = 0 ∧ val &&& 0xff = 0 then
      some [(val >>> 16).setWidth 8, (val >>> 8).setWidth 8]
    else none
  | first :: second :: third :: fourth :: rest =>
    let val := decodeBase64 first second third fourth
    if val >>> 31 = 0 then
      (readBytes rest).map fun bytes ↦
        (val >>> 16).setWidth 8 :: (val >>> 8).setWidth 8 :: val.setWidth 8 :: bytes
    else none
  | _ => none

/-- `fromBase64`, `none` when it throws. -/
def Key.fromBase64 (str : Text) : Option Key :=
  if str.length = 44 ∧ str.getLast? = some '=' then
    (readBytes str).bind fun bytes ↦
      if hlength : bytes.length = 32 then some ⟨bytes, hlength⟩ else none
  else none

/-! ### Digits -/

theorem digitValue_base64Char {input : BitVec 32} (hlt : input.toNat < 64) :
    digitValue (base64Char input) = input := by
  have hall : ∀ n < 64, digitValue (base64Char (BitVec.ofNat 32 n)) = BitVec.ofNat 32 n := by
    decide
  have hinput := hall input.toNat hlt
  rwa [BitVec.ofNat_toNat, BitVec.setWidth_eq] at hinput

/-- A digit is a letter, a digit, a plus or a slash. -/
theorem base64Char_spec {input : BitVec 32} (hlt : input.toNat < 64) :
    (base64Char input).isAlphanum = true ∨ base64Char input = '+' ∨ base64Char input = '/' := by
  have hall : ∀ n < 64, (base64Char (BitVec.ofNat 32 n)).isAlphanum = true ∨
      base64Char (BitVec.ofNat 32 n) = '+' ∨ base64Char (BitVec.ofNat 32 n) = '/' := by
    decide
  have hinput := hall input.toNat hlt
  rwa [BitVec.ofNat_toNat, BitVec.setWidth_eq] at hinput

theorem toNat_and_63 (x : BitVec 32) : (x &&& 63).toNat < 64 := by
  rw [BitVec.toNat_and]
  exact Nat.lt_of_le_of_lt Nat.and_le_right (by decide)

theorem sextets_lt (a b c : BitVec 8) :
    (sextets a b c).1.toNat < 64 ∧ (sextets a b c).2.1.toNat < 64 ∧
      (sextets a b c).2.2.1.toNat < 64 ∧ (sextets a b c).2.2.2.toNat < 64 :=
  ⟨toNat_and_63 _, toNat_and_63 _, toNat_and_63 _, toNat_and_63 _⟩

/-- The sextets of three bytes, put together, are the bytes put together. -/
theorem join_sextets (a b c : BitVec 8) :
    (sextets a b c).1 <<< 18 ||| (sextets a b c).2.1 <<< 12 ||| (sextets a b c).2.2.1 <<< 6 |||
      (sextets a b c).2.2.2 =
      a.setWidth 32 <<< 16 ||| b.setWidth 32 <<< 8 ||| c.setWidth 32 := by
  refine BitVec.eq_of_getLsbD_eq fun i hi ↦ ?_
  interval_cases i <;> simp [sextets, BitVec.getElem_signExtend]

/-- The number that is decoded from what three bytes were written with. -/
theorem decodeBase64_encodeBase64 (a b c : BitVec 8) :
    decodeBase64 (encodeBase64 a b c).1 (encodeBase64 a b c).2.1 (encodeBase64 a b c).2.2.1
      (encodeBase64 a b c).2.2.2 =
      a.setWidth 32 <<< 16 ||| b.setWidth 32 <<< 8 ||| c.setWidth 32 := by
  obtain ⟨hfirst, hsecond, hthird, hfourth⟩ := sextets_lt a b c
  rw [decodeBase64, encodeBase64, digitValue_base64Char hfirst, digitValue_base64Char hsecond,
    digitValue_base64Char hthird, digitValue_base64Char hfourth, join_sextets]

/-- Three bytes that were put together are taken apart again, and the sign bit is free. -/
theorem split_bytes (a b c : BitVec 8) :
    let val := a.setWidth 32 <<< 16 ||| b.setWidth 32 <<< 8 ||| c.setWidth 32
    val >>> 31 = 0 ∧ (val >>> 16).setWidth 8 = a ∧ (val >>> 8).setWidth 8 = b ∧
      val.setWidth 8 = c := by
  refine ⟨?_, ?_, ?_, ?_⟩
  all_goals
    refine BitVec.eq_of_getLsbD_eq fun i hi ↦ ?_
    interval_cases i <;> simp

theorem and_255_join (a b : BitVec 8) :
    (a.setWidth 32 <<< 16 ||| b.setWidth 32 <<< 8 ||| (0 : BitVec 8).setWidth 32) &&& 0xff = 0 := by
  refine BitVec.eq_of_getLsbD_eq fun i hi ↦ ?_
  interval_cases i <;> simp

/-! ### The round trip -/

theorem length_writeBytes (n : ℕ) (bytes : List (BitVec 8)) (hlength : bytes.length = 3 * n + 2) :
    (writeBytes bytes).length = 4 * n + 4 := by
  induction n generalizing bytes with
  | zero =>
    match bytes, hlength with
    | [a, b], _ => rfl
  | succ n ih =>
    match bytes, hlength with
    | a :: b :: c :: rest, hlength =>
      have hrest : rest.length = 3 * n + 2 := by
        simp only [List.length_cons] at hlength
        omega
      simp only [writeBytes, List.length_cons, ih rest hrest]
      omega

/-- What is written is read back. -/
theorem readBytes_writeBytes (n : ℕ) (bytes : List (BitVec 8))
    (hlength : bytes.length = 3 * n + 2) : readBytes (writeBytes bytes) = some bytes := by
  induction n generalizing bytes with
  | zero =>
    match bytes, hlength with
    | [a, b], _ =>
      obtain ⟨hsign, hfirst, hsecond, -⟩ := split_bytes a b 0
      -- The digit that is not written is the one that is read in its place.
      have hval := decodeBase64_encodeBase64 a b 0
      have hlast : (encodeBase64 a b 0).2.2.2 = 'A' := by
        change base64Char 0 = 'A'
        decide
      rw [hlast] at hval
      simp only [writeBytes, readBytes, hval, hsign, hfirst, hsecond, and_255_join, and_self,
        if_true]
  | succ n ih =>
    match bytes, hlength with
    | a :: b :: c :: rest, hlength =>
      have hrest : rest.length = 3 * n + 2 := by
        simp only [List.length_cons] at hlength
        omega
      have hmore : 0 < (writeBytes rest).length := by
        rw [length_writeBytes n rest hrest]
        omega
      obtain ⟨hsign, hfirst, hsecond, hthird⟩ := split_bytes a b c
      simp only [writeBytes]
      rw [readBytes]
      · simp only [decodeBase64_encodeBase64, hsign, hfirst, hsecond, hthird, ih rest hrest]
        rfl
      · rintro - hnil
        rw [hnil] at hmore
        cases hmore

theorem getLast?_writeBytes (n : ℕ) (bytes : List (BitVec 8)) (hlength : bytes.length = 3 * n + 2) :
    (writeBytes bytes).getLast? = some '=' := by
  induction n generalizing bytes with
  | zero =>
    match bytes, hlength with
    | [a, b], _ => rfl
  | succ n ih =>
    match bytes, hlength with
    | a :: b :: c :: rest, hlength =>
      have hrest : rest.length = 3 * n + 2 := by
        simp only [List.length_cons] at hlength
        omega
      simp only [writeBytes, List.getLast?_cons, ih rest hrest, Option.getD_some]

/-- A key is read back from its text. -/
theorem fromBase64_toBase64 (key : Key) : Key.fromBase64 key.toBase64 = some key := by
  have hlength : key.bytes.length = 3 * 10 + 2 := key.length_bytes
  rw [Key.fromBase64, Key.toBase64, if_pos ⟨length_writeBytes 10 _ hlength,
    getLast?_writeBytes 10 _ hlength⟩, readBytes_writeBytes 10 _ hlength, Option.bind_some,
    dif_pos key.length_bytes]

/-- The characters of a text in Base64. -/
def isBase64 (c : Char) : Bool := c.isAlphanum || c == '+' || c == '/' || c == '='

theorem isBase64_of_mem_encodeBase64 (a b c : BitVec 8) :
    ∀ d ∈ [(encodeBase64 a b c).1, (encodeBase64 a b c).2.1, (encodeBase64 a b c).2.2.1,
      (encodeBase64 a b c).2.2.2], isBase64 d = true := by
  have hchar : ∀ {input : BitVec 32}, input.toNat < 64 → isBase64 (base64Char input) = true := by
    intro input hlt
    rcases base64Char_spec hlt with halnum | hplus | hslash
    · rw [isBase64, halnum]
      rfl
    · rw [hplus]
      rfl
    · rw [hslash]
      rfl
  obtain ⟨hfirst, hsecond, hthird, hfourth⟩ := sextets_lt a b c
  simp only [List.forall_mem_cons]
  exact ⟨hchar hfirst, hchar hsecond, hchar hthird, hchar hfourth, by simp⟩

/-- The characters of the text of a key. -/
theorem isBase64_of_mem_writeBytes {bytes : List (BitVec 8)} {d : Char}
    (hmem : d ∈ writeBytes bytes) : isBase64 d = true := by
  induction bytes using writeBytes.induct with
  | case1 a b first second third fourth hencode =>
    have hall := isBase64_of_mem_encodeBase64 a b 0
    simp only [writeBytes, List.mem_cons, List.not_mem_nil, or_false] at hmem
    rcases hmem with rfl | rfl | rfl | rfl
    · exact hall _ (by simp)
    · exact hall _ (by simp)
    · exact hall _ (by simp)
    · rfl
  | case2 a b c rest first second third fourth hencode ih =>
    have hall := isBase64_of_mem_encodeBase64 a b c
    simp only [writeBytes, List.mem_cons] at hmem
    rcases hmem with rfl | rfl | rfl | rfl | hrest
    · exact hall _ (by simp)
    · exact hall _ (by simp)
    · exact hall _ (by simp)
    · exact hall _ (by simp)
    · exact ih hrest
  | case3 bytes htwo hthree =>
    rw [writeBytes] at hmem
    · cases hmem
    · exact htwo
    · exact hthree

end WindscribeVpn.Backend.WgKey
