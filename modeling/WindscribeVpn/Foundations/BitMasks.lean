import WindscribeVpn.Foundations.Texts

/-!
# Masks of machine words

Addresses and their prefixes are put together with masks: the low bits are kept by `lowMask`, one
shifted to the left less one, and the rest by its complement or by all ones shifted to the left. The
lemmas say which bits a mask has, what it keeps of a number, and what two parts that were masked
against each other make. The octets of a word are written and put together the same way in words of
any width from 32 bits on.
-/

set_option autoImplicit false
set_option relaxedAutoImplicit false

namespace WindscribeVpn.Foundations.BitMasks

open Texts

variable {w : ℕ}

/-- Ones in the positions below `k`. -/
def lowMask (w k : ℕ) : BitVec w := (1#w <<< k) - 1#w

theorem toNat_lowMask {k : ℕ} (hlt : k < w) : (lowMask w k).toNat = 2 ^ k - 1 := by
  have hone : 1 < 2 ^ w := Nat.one_lt_two_pow (Nat.ne_of_gt (Nat.zero_lt_of_lt hlt))
  have hpow : 2 ^ k < 2 ^ w := Nat.pow_lt_pow_right (by decide) hlt
  have hpos : 0 < 2 ^ k := Nat.two_pow_pos k
  have hsum : 2 ^ w - 1 + 2 ^ k = 2 ^ k - 1 + 2 ^ w := by omega
  rw [lowMask, BitVec.toNat_sub, BitVec.toNat_shiftLeft, BitVec.toNat_ofNat,
    Nat.mod_eq_of_lt hone, Nat.one_shiftLeft, Nat.mod_eq_of_lt hpow, hsum, Nat.add_mod_right,
    Nat.mod_eq_of_lt (Nat.lt_of_le_of_lt (Nat.sub_le _ _) hpow)]

theorem getLsbD_lowMask {k : ℕ} (hlt : k < w) (i : ℕ) :
    (lowMask w k).getLsbD i = decide (i < k) := by
  rw [BitVec.getLsbD, toNat_lowMask hlt, Nat.testBit_two_pow_sub_one]

/-- The bits of what is put together from a part above a mask and one below it. -/
theorem getLsbD_join (mask upper lower : BitVec w) (i : ℕ) :
    ((upper &&& ~~~mask) ||| (lower &&& mask)).getLsbD i =
      if mask.getLsbD i then lower.getLsbD i else upper.getLsbD i := by
  rw [BitVec.getLsbD_or, BitVec.getLsbD_and, BitVec.getLsbD_and, BitVec.getLsbD_not]
  cases hmask : mask.getLsbD i with
  | true => simp
  | false =>
    by_cases hlt : i < w
    · simp [hlt]
    · simp [hlt, BitVec.getLsbD_of_ge upper i (Nat.not_lt.mp hlt)]

/-- Dropping the low bits. -/
theorem and_allOnes_shiftLeft (x : BitVec w) (k : ℕ) :
    x &&& (BitVec.allOnes w <<< k) = (x >>> k) <<< k := by
  refine BitVec.eq_of_getLsbD_eq fun i hi ↦ ?_
  rw [BitVec.getLsbD_and, BitVec.getLsbD_shiftLeft, BitVec.getLsbD_shiftLeft,
    BitVec.getLsbD_allOnes, BitVec.getLsbD_ushiftRight]
  by_cases hk : i < k
  · simp [hk]
  · have hadd : k + (i - k) = i := by omega
    have hlt : i - k < w := by omega
    simp [hk, hi, hadd, hlt]

/-- The multiple of a power of two below a number. -/
theorem toNat_shiftRight_shiftLeft (x : BitVec w) (k : ℕ) :
    ((x >>> k) <<< k).toNat = x.toNat / 2 ^ k * 2 ^ k := by
  have hle : x.toNat / 2 ^ k * 2 ^ k ≤ x.toNat := Nat.div_mul_le_self _ _
  rw [BitVec.toNat_shiftLeft, BitVec.toNat_ushiftRight, Nat.shiftLeft_eq, Nat.shiftRight_eq_div_pow,
    Nat.mod_eq_of_lt (Nat.lt_of_le_of_lt hle x.isLt)]

/-- A shift by an octet followed by an octet in the place that became free. -/
theorem toNat_shiftLeft_or {x : BitVec w} {octet : ℕ} (hoctet : octet < 256)
    (hfits : x.toNat * 256 + octet < 2 ^ w) :
    ((x <<< 8) ||| BitVec.ofNat w octet).toNat = x.toNat * 256 + octet := by
  have hshift : x.toNat * 256 < 2 ^ w := Nat.lt_of_le_of_lt (Nat.le_add_right _ _) hfits
  have hsmall : octet < 2 ^ w := Nat.lt_of_le_of_lt (Nat.le_add_left _ _) hfits
  rw [BitVec.toNat_or, BitVec.toNat_shiftLeft, BitVec.toNat_ofNat, Nat.mod_eq_of_lt hsmall,
    Nat.shiftLeft_eq, Nat.mod_eq_of_lt hshift]
  exact (Nat.shiftLeft_eq x.toNat 8 ▸ Nat.shiftLeft_add_eq_or_of_lt hoctet x.toNat).symm

/-- An octet of a number, whether or not the shift brings in its sign. -/
theorem toNat_octet (x : BitVec w) {k : ℕ} (hfits : k + 8 ≤ w) :
    (x.sshiftRight k &&& 255#w).toNat = x.toNat / 2 ^ k % 256 := by
  have hmask : (255#w).toNat = 2 ^ 8 - 1 := by
    have hle : 2 ^ 8 ≤ 2 ^ w := Nat.pow_le_pow_right (by decide) (by omega)
    rw [BitVec.toNat_ofNat, Nat.mod_eq_of_lt (Nat.lt_of_lt_of_le (by decide) hle)]
    rfl
  rw [BitVec.toNat_and, hmask, Nat.and_two_pow_sub_one_eq_mod]
  change _ = x.toNat / 2 ^ k % 2 ^ 8
  refine Nat.eq_of_testBit_eq fun i ↦ ?_
  rw [Nat.testBit_mod_two_pow, Nat.testBit_mod_two_pow, Nat.testBit_div_two_pow]
  by_cases hi : i < 8
  · have hlow : ¬ w ≤ i := by omega
    have hin : k + i < w := by omega
    change (decide (i < 8) && (x.sshiftRight k).getLsbD i) = (decide (i < 8) && x.getLsbD (i + k))
    rw [BitVec.getLsbD_sshiftRight, Nat.add_comm i k]
    simp [hlow, hin]
  · simp [hi]

/-- The octets of a word, written with dots between them. -/
theorem intercalate_octets (x : BitVec w) (hfits : 32 ≤ w) :
    ['.'].intercalate ([24, 16, 8, 0].map fun shift ↦
      decimal (x.sshiftRight shift &&& 255#w).toNat) = quad x.toNat := by
  have hoctet : ∀ k, k ≤ 24 → (x.sshiftRight k &&& 255#w).toNat = x.toNat / 2 ^ k % 256 :=
    fun k hk ↦ toNat_octet x (by omega)
  rw [quad, octets]
  simp only [List.map_cons, List.map_nil, hoctet 24 (by decide), hoctet 16 (by decide),
    hoctet 8 (by decide), hoctet 0 (by decide), Nat.pow_zero, Nat.div_one]

/-- Four octets that are shifted to their places are put together one after the other. -/
theorem or_shiftLeft_octets (a b c d : BitVec w) :
    (a <<< 24) ||| (b <<< 16) ||| (c <<< 8) ||| d =
      (((((a <<< 8) ||| b) <<< 8) ||| c) <<< 8) ||| d := by
  simp only [BitVec.shiftLeft_or_distrib, ← BitVec.shiftLeft_add]

/-- The word that four octets make. -/
theorem toNat_or_shiftLeft_octets {a b c d : ℕ} (ha : a < 256) (hb : b < 256) (hc : c < 256)
    (hd : d < 256) (hfits : 32 ≤ w) :
    ((BitVec.ofNat w a <<< 24) ||| (BitVec.ofNat w b <<< 16) ||| (BitVec.ofNat w c <<< 8) |||
      BitVec.ofNat w d).toNat = ofOctets a b c d := by
  have hpow : 2 ^ 32 ≤ 2 ^ w := Nat.pow_le_pow_right (by decide) hfits
  have hfirst : (BitVec.ofNat w a).toNat = a := by
    rw [BitVec.toNat_ofNat, Nat.mod_eq_of_lt (by omega)]
  have hsecond : ((BitVec.ofNat w a <<< 8) ||| BitVec.ofNat w b).toNat = a * 256 + b := by
    rw [toNat_shiftLeft_or hb (by omega), hfirst]
  have hthird : ((((BitVec.ofNat w a <<< 8) ||| BitVec.ofNat w b) <<< 8) |||
      BitVec.ofNat w c).toNat = (a * 256 + b) * 256 + c := by
    rw [toNat_shiftLeft_or hc (by omega), hsecond]
  rw [or_shiftLeft_octets, toNat_shiftLeft_or hd (by omega), hthird, ofOctets]

end WindscribeVpn.Foundations.BitMasks
