import Mathlib.Algebra.Order.Ring.Int
import Mathlib.Data.List.Basic
import Mathlib.Data.List.DropRight
import Mathlib.Data.Nat.Notation
import Mathlib.Tactic.SplitIfs

/-!
# Texts

A text is the list of its characters. The module has the decimal numerals that programs write
(`decimal`) and read (`toIntOrNull`), hexadecimal ones (`hexadecimal`, `readHex`), dotted quads, and
the search for the last separator. A number is read with an optional sign and in the digits of any
script, so more texts are read than written; `toIntOrNull_decimal` says that what is written is read
back.
-/

set_option autoImplicit false
set_option relaxedAutoImplicit false

namespace WindscribeVpn.Foundations.Texts

/-- A text. -/
abbrev Text := List Char

/-! ### Decimal numerals -/

/-- The numeral of a natural number. -/
def decimal (n : ℕ) : Text := Nat.toDigits 10 n

/-- The code points of the digit zero in the scripts of the basic plane. -/
def zeros : List ℕ :=
  [0x0030, 0x0660, 0x06F0, 0x07C0, 0x0966, 0x09E6, 0x0A66, 0x0AE6, 0x0B66, 0x0BE6, 0x0C66, 0x0CE6,
    0x0D66, 0x0DE6, 0x0E50, 0x0ED0, 0x0F20, 0x1040, 0x1090, 0x17E0, 0x1810, 0x1946, 0x19D0, 0x1A80,
    0x1A90, 0x1B50, 0x1BB0, 0x1C40, 0x1C50, 0xA620, 0xA8D0, 0xA900, 0xA9D0, 0xA9F0, 0xAA50, 0xABF0,
    0xFF10]

/-- The value of a digit, `Character.digit` for the radix ten. -/
def digitOf (c : Char) : Option ℕ :=
  (zeros.find? fun least ↦ decide (least ≤ c.toNat) && decide (c.toNat < least + 10)).map
    (c.toNat - ·)

/-- Reads digits after a value that has been read. -/
def readDigits : Text → ℕ → Option ℕ
  | [], value => some value
  | c :: rest, value => (digitOf c).bind fun digit ↦ readDigits rest (10 * value + digit)

/-- The digits of a number of at most `limit`. -/
def readNumber (digits : Text) (limit : ℕ) : Option ℕ :=
  if digits = [] then none
  else (readDigits digits 0).bind fun value ↦ if value ≤ limit then some value else none

/-- Reads a number with an optional sign, from `-bound` up to but without `bound`. -/
def readSigned (bound : ℕ) : Text → Option ℤ
  | '-' :: digits => (readNumber digits bound).map fun value : ℕ ↦ -(value : ℤ)
  | '+' :: digits => (readNumber digits (bound - 1)).map fun value : ℕ ↦ (value : ℤ)
  | digits => (readNumber digits (bound - 1)).map fun value : ℕ ↦ (value : ℤ)

/-- `toIntOrNull`, and `toInt` and `Integer.parseInt` where they do not throw. -/
def toIntOrNull (text : Text) : Option ℤ := readSigned (2 ^ 31) text

/-- `toLong` where it does not throw. -/
def toLongOrNull (text : Text) : Option ℤ := readSigned (2 ^ 63) text

theorem isDigit_iff (c : Char) : c.isDigit = true ↔ 48 ≤ c.toNat ∧ c.toNat ≤ 57 := by
  simp only [Char.isDigit, ge_iff_le, Bool.and_eq_true, decide_eq_true_eq]
  rfl

/-- A digit of ASCII is first in the table. -/
theorem digitOf_isDigit {c : Char} (hdigit : c.isDigit = true) :
    digitOf c = some (c.toNat - '0'.toNat) := by
  obtain ⟨hlo, hhi⟩ := (isDigit_iff c).mp hdigit
  have hfirst : (zeros.find? fun least ↦
      decide (least ≤ c.toNat) && decide (c.toNat < least + 10)) = some 0x0030 := by
    refine List.find?_cons_of_pos ?_
    simp only [Bool.and_eq_true, decide_eq_true_eq]
    omega
  rw [digitOf, hfirst]
  rfl

theorem readDigits_isDigit {digits : Text} (hdigits : ∀ c ∈ digits, c.isDigit = true) (value : ℕ) :
    readDigits digits value = some (Nat.ofDigitChars 10 digits value) := by
  induction digits generalizing value with
  | nil => rw [readDigits, Nat.ofDigitChars_nil]
  | cons c rest ih =>
    rw [List.forall_mem_cons] at hdigits
    rw [readDigits, digitOf_isDigit hdigits.1, Option.bind_some, ih hdigits.2,
      Nat.ofDigitChars_cons]

theorem readNumber_isDigit {digits : Text} (hdigits : ∀ c ∈ digits, c.isDigit = true)
    (hne : digits ≠ []) (limit : ℕ) :
    readNumber digits limit =
      if Nat.ofDigitChars 10 digits 0 ≤ limit then some (Nat.ofDigitChars 10 digits 0)
      else none := by
  rw [readNumber, if_neg hne, readDigits_isDigit hdigits]
  rfl

/-- Digits without a sign. -/
theorem readSigned_isDigit {digits : Text} (hdigits : ∀ c ∈ digits, c.isDigit = true)
    (hne : digits ≠ []) {bound : ℕ} (hpos : 0 < bound) :
    readSigned bound digits =
      if Nat.ofDigitChars 10 digits 0 < bound then some (Nat.ofDigitChars 10 digits 0 : ℤ)
      else none := by
  have hunsigned : readSigned bound digits =
      (readNumber digits (bound - 1)).map fun value : ℕ ↦ (value : ℤ) := by
    unfold readSigned
    split
    · exact absurd (hdigits '-' List.mem_cons_self) (by decide)
    · exact absurd (hdigits '+' List.mem_cons_self) (by decide)
    · rfl
  rw [hunsigned, readNumber_isDigit hdigits hne]
  by_cases hlt : Nat.ofDigitChars 10 digits 0 < bound
  · rw [if_pos hlt, if_pos (Nat.le_sub_one_of_lt hlt), Option.map_some]
  · rw [if_neg hlt, if_neg fun hle ↦ hlt (Nat.lt_of_le_sub_one hpos hle), Option.map_none]

theorem toIntOrNull_isDigit {digits : Text} (hdigits : ∀ c ∈ digits, c.isDigit = true)
    (hne : digits ≠ []) :
    toIntOrNull digits =
      if Nat.ofDigitChars 10 digits 0 < 2 ^ 31 then some (Nat.ofDigitChars 10 digits 0 : ℤ)
      else none := readSigned_isDigit hdigits hne (by decide)

theorem readNumber_mono {digits : Text} {limit limit' value : ℕ} (hle : limit ≤ limit')
    (hread : readNumber digits limit = some value) : readNumber digits limit' = some value := by
  unfold readNumber at hread ⊢
  split_ifs at hread ⊢ with hnil
  obtain ⟨read, hdigits, hlimit⟩ := Option.bind_eq_some_iff.mp hread
  split_ifs at hlimit with hsmall
  rw [hdigits, Option.bind_some, if_pos (hsmall.trans hle), ← Option.some.inj hlimit]

/-- What is read is read alike with a larger bound. -/
theorem readSigned_mono {text : Text} {bound bound' : ℕ} {value : ℤ} (hle : bound ≤ bound')
    (hread : readSigned bound text = some value) : readSigned bound' text = some value := by
  unfold readSigned at hread ⊢
  split at hread
  · obtain ⟨number, hnumber, rfl⟩ := Option.map_eq_some_iff.mp hread
    rw [readNumber_mono hle hnumber]
    rfl
  · obtain ⟨number, hnumber, rfl⟩ := Option.map_eq_some_iff.mp hread
    rw [readNumber_mono (Nat.sub_le_sub_right hle 1) hnumber]
    rfl
  · obtain ⟨number, hnumber, rfl⟩ := Option.map_eq_some_iff.mp hread
    rw [readNumber_mono (Nat.sub_le_sub_right hle 1) hnumber]
    rfl

theorem toLongOrNull_of_toIntOrNull {text : Text} {value : ℤ}
    (hread : toIntOrNull text = some value) : toLongOrNull text = some value :=
  readSigned_mono (by decide) hread

theorem readDigits_eq_some {digits : Text} {start value : ℕ}
    (hread : readDigits digits start = some value) : ∀ c ∈ digits, (digitOf c).isSome = true := by
  induction digits generalizing start with
  | nil => exact fun c hmem ↦ absurd hmem List.not_mem_nil
  | cons c rest ih =>
    obtain ⟨digit, hdigit, hrest⟩ := Option.bind_eq_some_iff.mp hread
    exact List.forall_mem_cons.mpr ⟨by rw [hdigit]; rfl, ih hrest⟩

theorem readNumber_eq_some {digits : Text} {limit value : ℕ}
    (hread : readNumber digits limit = some value) :
    digits ≠ [] ∧ ∀ c ∈ digits, (digitOf c).isSome = true := by
  unfold readNumber at hread
  split_ifs at hread with hnil
  obtain ⟨number, hnumber, -⟩ := Option.bind_eq_some_iff.mp hread
  exact ⟨hnil, readDigits_eq_some hnumber⟩

/-- A text that is read as a number is not empty, and has a sign and digits only. -/
theorem readSigned_eq_some {text : Text} {bound : ℕ} {value : ℤ}
    (hread : readSigned bound text = some value) :
    text ≠ [] ∧ ∀ c ∈ text, c = '-' ∨ c = '+' ∨ (digitOf c).isSome = true := by
  unfold readSigned at hread
  split at hread
  · next digits =>
    obtain ⟨number, hnumber, -⟩ := Option.map_eq_some_iff.mp hread
    exact ⟨List.cons_ne_nil _ _, List.forall_mem_cons.mpr ⟨Or.inl rfl,
      fun c hmem ↦ Or.inr (Or.inr ((readNumber_eq_some hnumber).2 c hmem))⟩⟩
  · next digits =>
    obtain ⟨number, hnumber, -⟩ := Option.map_eq_some_iff.mp hread
    exact ⟨List.cons_ne_nil _ _, List.forall_mem_cons.mpr ⟨Or.inr (Or.inl rfl),
      fun c hmem ↦ Or.inr (Or.inr ((readNumber_eq_some hnumber).2 c hmem))⟩⟩
  · obtain ⟨number, hnumber, -⟩ := Option.map_eq_some_iff.mp hread
    exact ⟨(readNumber_eq_some hnumber).1,
      fun c hmem ↦ Or.inr (Or.inr ((readNumber_eq_some hnumber).2 c hmem))⟩

theorem isDigit_of_mem_decimal {n : ℕ} {c : Char} (hmem : c ∈ decimal n) : c.isDigit = true :=
  Nat.isDigit_of_mem_toDigits (by decide) (by decide) hmem

theorem decimal_ne_nil (n : ℕ) : decimal n ≠ [] := Nat.toDigits_ne_nil

/-- A number is read back from its numeral. -/
theorem toIntOrNull_decimal {n : ℕ} (hlt : n < 2 ^ 31) :
    toIntOrNull (decimal n) = some (n : ℤ) := by
  rw [toIntOrNull_isDigit (fun c ↦ isDigit_of_mem_decimal) (decimal_ne_nil n), decimal,
    Nat.ofDigitChars_ten_toDigits, if_pos hlt]

/-! ### Hexadecimal numerals -/

/-- The numeral of a natural number, in small letters. -/
def hexadecimal (n : ℕ) : Text := Nat.toDigits 16 n

/-- The value of a digit, large or small. -/
def hexDigitOf (c : Char) : Option ℕ :=
  if c.isDigit then some (c.toNat - '0'.toNat)
  else if 'a' ≤ c ∧ c ≤ 'f' then some (c.toNat - 'a'.toNat + 10)
  else if 'A' ≤ c ∧ c ≤ 'F' then some (c.toNat - 'A'.toNat + 10)
  else none

/-- Reads digits after a value that has been read. -/
def readHex : Text → ℕ → Option ℕ
  | [], value => some value
  | c :: rest, value => (hexDigitOf c).bind fun digit ↦ readHex rest (16 * value + digit)

theorem hexDigitOf_digitChar {digit : ℕ} (hlt : digit < 16) :
    hexDigitOf digit.digitChar = some digit := by
  revert hlt digit
  decide

theorem readHex_append (first second : Text) (value : ℕ) :
    readHex (first ++ second) value = (readHex first value).bind (readHex second) := by
  induction first generalizing value with
  | nil => rfl
  | cons c rest ih =>
    rw [List.cons_append, readHex, readHex, Option.bind_assoc]
    exact Option.bind_congr fun digit _ ↦ ih _

/-- A number is read back from its numeral. -/
theorem readHex_hexadecimal (n : ℕ) : readHex (hexadecimal n) 0 = some n := by
  induction n using Nat.base_induction 16 (by decide) with
  | single digit hlt =>
    rw [hexadecimal, Nat.toDigits_of_lt_base hlt, readHex, hexDigitOf_digitChar hlt]
    rw [Option.bind_some, readHex, Nat.mul_zero, Nat.zero_add]
  | digit upper digit hlt hpos ih =>
    rw [hexadecimal, ← Nat.toDigits_append_toDigits (by decide) hpos hlt, readHex_append]
    rw [← hexadecimal, ih, Option.bind_some, Nat.toDigits_of_lt_base hlt, readHex,
      hexDigitOf_digitChar hlt]
    rfl

theorem readHex_eq_some {digits : Text} {start value : ℕ}
    (hread : readHex digits start = some value) : ∀ c ∈ digits, (hexDigitOf c).isSome = true := by
  induction digits generalizing start with
  | nil => exact fun c hmem ↦ absurd hmem List.not_mem_nil
  | cons c rest ih =>
    obtain ⟨digit, hdigit, hrest⟩ := Option.bind_eq_some_iff.mp hread
    exact List.forall_mem_cons.mpr ⟨by rw [hdigit]; rfl, ih hrest⟩

/-! ### Pieces of a text -/

/-- No piece contains the separator. -/
theorem not_mem_of_mem_splitOn {separator : Char} {text piece : Text}
    (hmem : piece ∈ text.splitOn separator) :
    separator ∉ piece := by
  induction text generalizing piece with
  | nil =>
    rw [List.splitOn_nil, List.mem_singleton] at hmem
    exact hmem ▸ List.not_mem_nil
  | cons c rest ih =>
    rw [List.splitOn_cons_eq_if_modifyHead] at hmem
    by_cases hsame : (c == separator) = true
    · rw [if_pos hsame, List.mem_cons] at hmem
      rcases hmem with rfl | hrest
      · exact List.not_mem_nil
      · exact ih hrest
    · rw [if_neg hsame] at hmem
      obtain ⟨head, tail, hsplit⟩ := List.exists_cons_of_ne_nil (List.splitOn_ne_nil separator rest)
      rw [hsplit, List.modifyHead_cons, List.mem_cons] at hmem
      rcases hmem with rfl | htail
      · rw [List.mem_cons, not_or]
        exact ⟨fun hc ↦ hsame (beq_iff_eq.mpr hc.symm), ih (hsplit ▸ List.mem_cons_self)⟩
      · exact ih (hsplit ▸ List.mem_cons_of_mem _ htail)

/-- A character of a text is the separator or lies in a piece. -/
theorem exists_mem_splitOn (separator : Char) {c : Char} {text : Text} (hmem : c ∈ text) :
    c = separator ∨ ∃ piece ∈ text.splitOn separator, c ∈ piece := by
  induction text with
  | nil => cases hmem
  | cons first rest ih =>
    rw [List.splitOn_cons_eq_if_modifyHead]
    obtain ⟨head, tail, hsplit⟩ := List.exists_cons_of_ne_nil (List.splitOn_ne_nil separator rest)
    rw [hsplit] at ih ⊢
    by_cases hsame : (first == separator) = true
    · rw [if_pos hsame]
      rcases List.mem_cons.mp hmem with rfl | hrest
      · exact Or.inl (beq_iff_eq.mp hsame)
      · refine (ih hrest).imp_right ?_
        rintro ⟨piece, hpiece, hc⟩
        exact ⟨piece, List.mem_cons_of_mem _ hpiece, hc⟩
    · rw [if_neg hsame, List.modifyHead_cons]
      rcases List.mem_cons.mp hmem with rfl | hrest
      · exact Or.inr ⟨_, List.mem_cons_self, List.mem_cons_self⟩
      · refine (ih hrest).imp_right ?_
        rintro ⟨piece, hpiece, hc⟩
        rcases List.mem_cons.mp hpiece with rfl | htail
        · exact ⟨_, List.mem_cons_self, List.mem_cons_of_mem _ hc⟩
        · exact ⟨piece, List.mem_cons_of_mem _ htail, hc⟩

theorem mem_of_mem_splitOn {separator c : Char} {text piece : Text}
    (hpiece : piece ∈ text.splitOn separator) (hmem : c ∈ piece) : c ∈ text := by
  induction text generalizing piece with
  | nil =>
    rw [List.splitOn_nil, List.mem_singleton] at hpiece
    exact hpiece ▸ hmem
  | cons first rest ih =>
    rw [List.splitOn_cons_eq_if_modifyHead] at hpiece
    obtain ⟨head, tail, hsplit⟩ := List.exists_cons_of_ne_nil (List.splitOn_ne_nil separator rest)
    rw [hsplit] at ih hpiece
    by_cases hsame : (first == separator) = true
    · rw [if_pos hsame, List.mem_cons] at hpiece
      rcases hpiece with rfl | hrest
      · cases hmem
      · exact List.mem_cons_of_mem _ (ih hrest hmem)
    · rw [if_neg hsame, List.modifyHead_cons, List.mem_cons] at hpiece
      rcases hpiece with rfl | htail
      · rcases List.mem_cons.mp hmem with rfl | hhead
        · exact List.mem_cons_self
        · exact List.mem_cons_of_mem _ (ih List.mem_cons_self hhead)
      · exact List.mem_cons_of_mem _ (ih (List.mem_cons_of_mem _ htail) hmem)

/-- The characters of a text are checked one by one. -/
theorem forall_mem_of_all {p : Char → Prop} [DecidablePred p] {text : Text}
    (hall : (text.all fun c ↦ decide (p c)) = true) : ∀ c ∈ text, p c :=
  fun c hc ↦ of_decide_eq_true (List.all_eq_true.mp hall c hc)

/-- A text of two pieces. -/
theorem eq_append_of_splitOn {separator : Char} {text first second : Text}
    (hsplit : text.splitOn separator = [first, second]) : text = first ++ separator :: second := by
  have hjoin : [separator].intercalate (text.splitOn separator) = text :=
    List.intercalate_splitOn separator
  rw [← hjoin, hsplit, List.intercalate_cons_cons, List.intercalate_singleton, List.append_assoc]
  rfl

/-- What does not satisfy the predicate is not dropped. -/
theorem mem_dropWhile {α : Type*} {p : α → Bool} {x : α} (hx : ¬ p x = true) (l : List α) :
    x ∈ l.dropWhile p ↔ x ∈ l := by
  refine ⟨fun hmem ↦ (List.dropWhile_sublist p).subset hmem, fun hmem ↦ ?_⟩
  rw [← List.takeWhile_append_dropWhile (p := p) (l := l), List.mem_append] at hmem
  exact hmem.resolve_left fun htake ↦ hx (List.mem_takeWhile_imp htake)

theorem mem_rdropWhile {α : Type*} {p : α → Bool} {x : α} (hx : ¬ p x = true) (l : List α) :
    x ∈ l.rdropWhile p ↔ x ∈ l := by
  rw [List.rdropWhile, List.mem_reverse, mem_dropWhile hx, List.mem_reverse]

/-- Once both ends are taken off there is nothing more to take off. -/
theorem dropWhile_rdropWhile_dropWhile {α : Type*} (p : α → Bool) (l : List α) :
    ((l.dropWhile p).rdropWhile p).dropWhile p = (l.dropWhile p).rdropWhile p := by
  obtain ⟨after, happend⟩ := List.rdropWhile_prefix p (l := l.dropWhile p)
  cases htrimmed : (l.dropWhile p).rdropWhile p with
  | nil => rfl
  | cons first rest =>
    rw [htrimmed, List.cons_append] at happend
    have hfirst : ¬ p first = true := by
      have hhead := List.dropWhile_eq_self_iff.mp (List.dropWhile_idempotent (p := p) (l := l))
      rw [← happend] at hhead
      exact hhead (Nat.succ_pos _)
    exact List.dropWhile_cons_of_neg hfirst

/-- Every element of a list that is mapped without failure is mapped. -/
theorem exists_of_mapM_eq_some {α β : Type*} {f : α → Option β} {xs : List α} {ys : List β}
    (hmap : xs.mapM f = some ys) {x : α} (hmem : x ∈ xs) : ∃ y, f x = some y := by
  induction xs generalizing ys with
  | nil => cases hmem
  | cons first rest ih =>
    rw [List.mapM_cons] at hmap
    simp only [Option.bind_eq_bind, Option.bind_eq_some_iff] at hmap
    obtain ⟨y, hfirst, others, hrest, -⟩ := hmap
    rcases List.mem_cons.mp hmem with rfl | htail
    · exact ⟨y, hfirst⟩
    · exact ih hrest htail

theorem length_of_mapM_eq_some {α β : Type*} {f : α → Option β} {xs : List α} {ys : List β}
    (hmap : xs.mapM f = some ys) : ys.length = xs.length := by
  induction xs generalizing ys with
  | nil =>
    cases hmap
    rfl
  | cons first rest ih =>
    rw [List.mapM_cons] at hmap
    simp only [Option.bind_eq_bind, Option.bind_eq_some_iff] at hmap
    obtain ⟨y, -, others, hrest, hys⟩ := hmap
    cases hys
    rw [List.length_cons, List.length_cons, ih hrest]

/-- A list whose elements are all mapped is mapped. -/
theorem exists_mapM_eq_some {α β : Type*} {f : α → Option β} {xs : List α}
    (hall : ∀ x ∈ xs, (f x).isSome = true) : ∃ ys, xs.mapM f = some ys := by
  induction xs with
  | nil => exact ⟨[], rfl⟩
  | cons first rest ih =>
    rw [List.forall_mem_cons] at hall
    obtain ⟨y, hfirst⟩ := Option.isSome_iff_exists.mp hall.1
    obtain ⟨ys, hrest⟩ := ih hall.2
    exact ⟨y :: ys, by rw [List.mapM_cons, hfirst, hrest]; rfl⟩

/-- Elements that are read back one by one are read back as a list. -/
theorem mapM_map_eq_some {α β : Type*} {write : α → β} {read : β → Option α} {xs : List α}
    (hread : ∀ x ∈ xs, read (write x) = some x) : (xs.map write).mapM read = some xs := by
  induction xs with
  | nil => rfl
  | cons first rest ih =>
    rw [List.forall_mem_cons] at hread
    rw [List.map_cons, List.mapM_cons, hread.1, ih hread.2]
    rfl

/-! ### Dotted quads -/

/-- The four octets of a number of 32 bits, the highest first. -/
def octets (address : ℕ) : List ℕ :=
  [address / 2 ^ 24 % 256, address / 2 ^ 16 % 256, address / 2 ^ 8 % 256, address % 256]

theorem lt_of_mem_octets {address octet : ℕ} (hmem : octet ∈ octets address) : octet < 256 := by
  simp only [octets, List.mem_cons, List.not_mem_nil, or_false] at hmem
  omega

/-- The dotted quad of a number of 32 bits. -/
def quad (address : ℕ) : Text := ['.'].intercalate ((octets address).map decimal)

theorem mem_quad {address : ℕ} {c : Char} (hmem : c ∈ quad address) :
    c = '.' ∨ c.isDigit = true := by
  simp only [quad, octets, List.map_cons, List.map_nil, List.intercalate_cons_cons,
    List.intercalate_singleton, List.mem_append, List.mem_singleton] at hmem
  rcases hmem with (hdigit | hdot) | (hdigit | hdot) | (hdigit | hdot) | hdigit
  · exact Or.inr (isDigit_of_mem_decimal hdigit)
  · exact Or.inl hdot
  · exact Or.inr (isDigit_of_mem_decimal hdigit)
  · exact Or.inl hdot
  · exact Or.inr (isDigit_of_mem_decimal hdigit)
  · exact Or.inl hdot
  · exact Or.inr (isDigit_of_mem_decimal hdigit)

/-- Whether a text has digits only is decided character by character. -/
instance decidableAllDigits (part : Text) : Decidable (∀ c ∈ part, c.isDigit = true) :=
  List.decidableBAll _ _

/-- Reads an octet in the digits of ASCII. -/
def readOctet (part : Text) : Option ℕ :=
  if part ≠ [] ∧ (∀ c ∈ part, c.isDigit = true) ∧ Nat.ofDigitChars 10 part 0 < 256 then
    some (Nat.ofDigitChars 10 part 0)
  else none

/-- The number of 32 bits that four octets make. -/
def ofOctets (a b c d : ℕ) : ℕ := ((a * 256 + b) * 256 + c) * 256 + d

instance neZeroQuads : NeZero (2 ^ 32) := ⟨by decide⟩

/-- Reads a dotted quad: four octets in the digits of ASCII. -/
def readQuad (text : Text) : Option (Fin (2 ^ 32)) :=
  match (text.splitOn '.').mapM readOctet with
  | some [a, b, c, d] => some (Fin.ofNat (2 ^ 32) (ofOctets a b c d))
  | _ => none

theorem readOctet_decimal {n : ℕ} (hlt : n < 256) : readOctet (decimal n) = some n := by
  have hvalue : Nat.ofDigitChars 10 (decimal n) 0 = n := Nat.ofDigitChars_ten_toDigits
  rw [readOctet, hvalue]
  exact if_pos ⟨decimal_ne_nil n, fun c ↦ isDigit_of_mem_decimal, hlt⟩

theorem splitOn_quad (address : ℕ) : (quad address).splitOn '.' = (octets address).map decimal := by
  refine List.splitOn_intercalate '.' ?_ ?_
  · intro part hpart hdot
    obtain ⟨octet, -, rfl⟩ := List.mem_map.mp hpart
    exact absurd (isDigit_of_mem_decimal hdot) (by decide)
  · exact List.cons_ne_nil _ _

theorem ofOctets_octets (address : ℕ) (hlt : address < 2 ^ 32) :
    ofOctets (address / 2 ^ 24 % 256) (address / 2 ^ 16 % 256) (address / 2 ^ 8 % 256)
      (address % 256) = address := by
  simp only [ofOctets]
  omega

/-- A number is read back from its dotted quad. -/
theorem readQuad_quad (address : Fin (2 ^ 32)) : readQuad (quad address) = some address := by
  have hparts : ((octets address.val).map decimal).mapM readOctet = some (octets address.val) :=
    mapM_map_eq_some fun octet hmem ↦ readOctet_decimal (lt_of_mem_octets hmem)
  rw [readQuad, splitOn_quad, hparts]
  simp only [octets, ofOctets_octets address.val address.isLt]
  exact congrArg some (Fin.ofNat_val_eq_self address)

theorem readOctet_eq_some {part : Text} {octet : ℕ} (hread : readOctet part = some octet) :
    ∀ c ∈ part, c.isDigit = true := by
  unfold readOctet at hread
  split_ifs at hread with hpart
  exact hpart.2.1

/-- What is read as a dotted quad has digits of ASCII and dots only. -/
theorem readQuad_eq_some {text : Text} {address : Fin (2 ^ 32)}
    (hread : readQuad text = some address) : ∀ c ∈ text, c.isDigit = true ∨ c = '.' := by
  intro c hmem
  unfold readQuad at hread
  split at hread
  · next a b c' d hparts =>
    rcases exists_mem_splitOn '.' hmem with hdot | ⟨piece, hpiece, hc⟩
    · exact Or.inr hdot
    · obtain ⟨octet, hoctet⟩ := exists_of_mapM_eq_some hparts hpiece
      exact Or.inl (readOctet_eq_some hoctet c hc)
  · cases hread

/-- A text of four groups is a dotted quad if each group is an octet. -/
theorem isSome_readQuad_iff {text : Text} (hfour : (text.splitOn '.').length = 4) :
    (readQuad text).isSome = true ↔ ∀ part ∈ text.splitOn '.', (readOctet part).isSome = true := by
  constructor
  · intro hsome part hpart
    cases hparts : (text.splitOn '.').mapM readOctet with
    | none =>
      rw [readQuad, hparts] at hsome
      cases hsome
    | some octets =>
      obtain ⟨octet, hoctet⟩ := exists_of_mapM_eq_some hparts hpart
      rw [hoctet]
      rfl
  · intro hall
    obtain ⟨octets, hparts⟩ := exists_mapM_eq_some hall
    have hlength := (length_of_mapM_eq_some hparts).trans hfour
    obtain ⟨a, b, c, d, rfl⟩ := List.length_eq_four.mp hlength
    rw [readQuad, hparts]
    rfl

/-! ### The last separator -/

/-- The text before and the text after the last occurrence of a character. -/
def splitLast (separator : Char) : Text → Option (Text × Text)
  | [] => none
  | c :: rest =>
    match splitLast separator rest with
    | some (before, after) => some (c :: before, after)
    | none => if c = separator then some ([], rest) else none

theorem splitLast_eq_none {separator : Char} {text : Text} (hnot : separator ∉ text) :
    splitLast separator text = none := by
  induction text with
  | nil => rfl
  | cons c rest ih =>
    rw [List.mem_cons, not_or] at hnot
    rw [splitLast, ih hnot.2]
    exact if_neg (Ne.symm hnot.1)

theorem splitLast_append {separator : Char} {before after : Text} (hnot : separator ∉ after) :
    splitLast separator (before ++ separator :: after) = some (before, after) := by
  induction before with
  | nil =>
    rw [List.nil_append, splitLast, splitLast_eq_none hnot]
    exact if_pos rfl
  | cons c rest ih => rw [List.cons_append, splitLast, ih]

/-! ### Replacing -/

/-- `replace` behind `skip` characters that belong to the last occurrence. -/
def replaceFrom (old new : Text) : ℕ → Text → Text
  | _, [] => []
  | skip + 1, _ :: rest => replaceFrom old new skip rest
  | 0, c :: rest =>
    if old.isPrefixOf (c :: rest) then new ++ replaceFrom old new (old.length - 1) rest
    else c :: replaceFrom old new 0 rest

/-- Replaces every occurrence of a text that is not empty, from the left. -/
def replace (text old new : Text) : Text := replaceFrom old new 0 text

theorem replaceFrom_length_append (old new skipped rest : Text) :
    replaceFrom old new skipped.length (skipped ++ rest) = replaceFrom old new 0 rest := by
  induction skipped with
  | nil => rfl
  | cons c skipped ih => rwa [List.cons_append, List.length_cons, replaceFrom]

/-- An occurrence at the start. -/
theorem replace_append {old : Text} (hne : old ≠ []) (new rest : Text) :
    replace (old ++ rest) old new = new ++ replace rest old new := by
  cases old with
  | nil => exact absurd rfl hne
  | cons c others =>
    have hstarts : (c :: others).isPrefixOf (c :: (others ++ rest)) = true :=
      List.isPrefixOf_iff_prefix.mpr (List.prefix_append (c :: others) rest)
    rw [replace, List.cons_append, replaceFrom, if_pos hstarts, List.length_cons,
      Nat.add_sub_cancel, replaceFrom_length_append, replace]

/-- No occurrence begins where its first character does not stand. -/
theorem replace_append_of_not_mem {c : Char} {before : Text} (hnot : c ∉ before)
    (others new rest : Text) :
    replace (before ++ rest) (c :: others) new = before ++ replace rest (c :: others) new := by
  unfold replace
  induction before with
  | nil => rfl
  | cons d before ih =>
    rw [List.mem_cons, not_or] at hnot
    have hstarts : ¬ (c :: others).isPrefixOf (d :: (before ++ rest)) = true := by
      rw [List.isPrefixOf_iff_prefix, List.cons_prefix_cons]
      exact fun hstarts ↦ hnot.1 hstarts.1
    rw [List.cons_append, replaceFrom, if_neg hstarts, ih hnot.2, List.cons_append]

/-- Without one of its characters there is no occurrence. -/
theorem replace_of_not_mem {old text : Text} {c : Char} (hold : c ∈ old) (hnot : c ∉ text)
    (new : Text) : replace text old new = text := by
  unfold replace
  induction text with
  | nil => rfl
  | cons d rest ih =>
    have hstarts : ¬ old.isPrefixOf (d :: rest) = true := fun hstarts ↦
      hnot ((List.isPrefixOf_iff_prefix.mp hstarts).subset hold)
    rw [replaceFrom, if_neg hstarts, ih fun hmem ↦ hnot (List.mem_cons_of_mem _ hmem)]

end WindscribeVpn.Foundations.Texts
