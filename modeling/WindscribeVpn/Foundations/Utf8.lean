import WindscribeVpn.Foundations.Texts

/-!
# Texts as bytes

A file holds the bytes of a text in UTF-8, and a program that reads it byte by byte takes every byte
for a character. ASCII characters are their own bytes, and the bytes of any other character are none
of them (`isAscii_of_mem_charBytes`), so that a word in ASCII is found in the bytes where it stands
in the text (`eq_of_utf8_eq`).
-/

set_option autoImplicit false
set_option relaxedAutoImplicit false

namespace WindscribeVpn.Foundations.Utf8

open Texts

/-- A character of seven bits. -/
def isAscii (c : Char) : Bool := decide (c.toNat < 128)

/-- The bytes of a character, each as the character of its number. -/
def charBytes (c : Char) : Text := (String.utf8EncodeChar c).map fun byte ↦ Char.ofNat byte.toNat

/-- The bytes of a text. -/
def utf8 (text : Text) : Text := text.flatMap charBytes

variable {c byte : Char} {text word : Text}

@[simp] theorem utf8_nil : utf8 [] = [] := rfl

@[simp] theorem utf8_cons (c : Char) (text : Text) : utf8 (c :: text) = charBytes c ++ utf8 text :=
  rfl

@[simp] theorem utf8_append (first second : Text) :
    utf8 (first ++ second) = utf8 first ++ utf8 second := List.flatMap_append

theorem charBytes_of_isAscii (hascii : isAscii c = true) : charBytes c = [c] := by
  have hlt : c.val.toNat < 128 := of_decide_eq_true hascii
  have hle : c.val.toNat ≤ 0x7f := by omega
  simp only [charBytes, String.utf8EncodeChar, if_pos hle, List.map_cons, List.map_nil]
  rw [UInt8.toNat_ofNat', Nat.mod_eq_of_lt (by omega)]
  exact congrArg (fun d ↦ [d]) (Char.ofNat_toNat c)

theorem charBytes_ne_nil (c : Char) : charBytes c ≠ [] := by
  rw [charBytes, Ne, List.map_eq_nil_iff]
  exact String.utf8EncodeChar_ne_nil

theorem toNat_ofNat_byte {n : ℕ} (hlt : n < 256) :
    (Char.ofNat (UInt8.ofNat n).toNat).toNat = n := by
  have hvalid : n.isValidChar := Or.inl (by omega)
  rw [UInt8.toNat_ofNat', Nat.mod_eq_of_lt hlt, Char.ofNat, dif_pos hvalid]
  rfl

/-- The bytes of a character that is not in ASCII are not in ASCII either. -/
theorem isAscii_of_mem_charBytes (hascii : isAscii c = false) (hmem : byte ∈ charBytes c) :
    isAscii byte = false := by
  have hge : ¬ c.val.toNat ≤ 0x7f := by
    have hnot : ¬ c.val.toNat < 128 := of_decide_eq_false hascii
    omega
  have hbyte : ∀ n : ℕ, 128 ≤ n → n < 256 → isAscii (Char.ofNat (UInt8.ofNat n).toNat) = false := by
    intro n hlow hhigh
    rw [isAscii, toNat_ofNat_byte hhigh]
    exact decide_eq_false (by omega)
  rw [charBytes, String.utf8EncodeChar, if_neg hge] at hmem
  split at hmem
  · simp only [List.map_cons, List.map_nil, List.mem_cons, List.not_mem_nil, or_false] at hmem
    rcases hmem with rfl | rfl
    · exact hbyte _ (by omega) (by omega)
    · exact hbyte _ (by omega) (by omega)
  · split at hmem
    · simp only [List.map_cons, List.map_nil, List.mem_cons, List.not_mem_nil, or_false] at hmem
      rcases hmem with rfl | rfl | rfl
      · exact hbyte _ (by omega) (by omega)
      · exact hbyte _ (by omega) (by omega)
      · exact hbyte _ (by omega) (by omega)
    · simp only [List.map_cons, List.map_nil, List.mem_cons, List.not_mem_nil, or_false] at hmem
      rcases hmem with rfl | rfl | rfl | rfl
      · exact hbyte _ (by omega) (by omega)
      · exact hbyte _ (by omega) (by omega)
      · exact hbyte _ (by omega) (by omega)
      · exact hbyte _ (by omega) (by omega)

/-- A text in ASCII is its own bytes. -/
theorem utf8_of_isAscii (hascii : ∀ c ∈ text, isAscii c = true) : utf8 text = text := by
  induction text with
  | nil => rfl
  | cons c rest ih =>
    rw [List.forall_mem_cons] at hascii
    rw [utf8_cons, charBytes_of_isAscii hascii.1, ih hascii.2, List.singleton_append]

/-- An ASCII character is in the bytes exactly when it is in the text. -/
theorem mem_utf8 (hascii : isAscii c = true) : c ∈ utf8 text ↔ c ∈ text := by
  rw [utf8, List.mem_flatMap]
  constructor
  · rintro ⟨d, hmem, hbyte⟩
    cases hd : isAscii d with
    | true =>
      rw [charBytes_of_isAscii hd, List.mem_singleton] at hbyte
      exact hbyte ▸ hmem
    | false =>
      rw [isAscii_of_mem_charBytes hd hbyte] at hascii
      exact absurd hascii Bool.false_ne_true
  · intro hmem
    exact ⟨c, hmem, by rw [charBytes_of_isAscii hascii]; exact List.mem_singleton_self c⟩

/-- Only an ASCII text has the bytes of one. -/
theorem eq_of_utf8_eq (hword : ∀ c ∈ word, isAscii c = true) (heq : utf8 text = word) :
    text = word := by
  have hascii : ∀ c ∈ text, isAscii c = true := by
    intro c hmem
    by_contra hnot
    obtain ⟨byte, hbyte⟩ := List.exists_mem_of_ne_nil _ (charBytes_ne_nil c)
    have hall := hword byte (heq ▸ List.mem_flatMap.mpr ⟨c, hmem, hbyte⟩)
    rw [isAscii_of_mem_charBytes (Bool.eq_false_iff.mpr hnot) hbyte] at hall
    exact Bool.false_ne_true hall
  rw [← heq, utf8_of_isAscii hascii]

end WindscribeVpn.Foundations.Utf8
