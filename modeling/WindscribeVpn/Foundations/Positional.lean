import Mathlib.Data.List.Induction
import Mathlib.Algebra.Order.Ring.Nat
import Mathlib.Tactic.Ring

/-!
# Positional numerals

A number of bounded size is written as a list of digits of some base, the highest first, and as many
of them as are asked for: the bytes of a word, the groups of an address. `ofBase_toBase` reads the
number back, and `ofBase_take_append` says what comes of replacing the low digits.
-/

set_option autoImplicit false
set_option relaxedAutoImplicit false

namespace WindscribeVpn.Foundations.Positional

/-- The last `count` digits of a number. -/
def toBase (base : ℕ) : ℕ → ℕ → List ℕ
  | 0, _ => []
  | count + 1, n => toBase base count (n / base) ++ [n % base]

/-- The number of the digits. -/
def ofBase (base : ℕ) (digits : List ℕ) : ℕ :=
  digits.foldl (fun value digit ↦ value * base + digit) 0

variable {base : ℕ}

@[simp] theorem length_toBase (base count n : ℕ) : (toBase base count n).length = count := by
  induction count generalizing n with
  | zero => rfl
  | succ count ih => rw [toBase, List.length_append, ih, List.length_singleton]

theorem lt_of_mem_toBase (hpos : 0 < base) {count n digit : ℕ}
    (hmem : digit ∈ toBase base count n) : digit < base := by
  induction count generalizing n with
  | zero => cases hmem
  | succ count ih =>
    rw [toBase, List.mem_append, List.mem_singleton] at hmem
    rcases hmem with hrest | rfl
    · exact ih hrest
    · exact Nat.mod_lt n hpos

theorem ofBase_snoc (base : ℕ) (digits : List ℕ) (digit : ℕ) :
    ofBase base (digits ++ [digit]) = ofBase base digits * base + digit := by
  rw [ofBase, List.foldl_append]
  rfl

theorem ofBase_append (base : ℕ) (upper lower : List ℕ) :
    ofBase base (upper ++ lower) = ofBase base upper * base ^ lower.length + ofBase base lower := by
  induction lower using List.reverseRecOn with
  | nil => simp [ofBase]
  | append_singleton lower digit ih =>
    rw [← List.append_assoc, ofBase_snoc, ih, ofBase_snoc, List.length_append,
      List.length_singleton]
    ring

/-- The digits are read back. -/
theorem ofBase_toBase (base count n : ℕ) :
    ofBase base (toBase base count n) = n % base ^ count := by
  induction count generalizing n with
  | zero => rw [pow_zero, Nat.mod_one]; rfl
  | succ count ih =>
    rw [toBase, ofBase_snoc, ih, pow_succ, Nat.mul_comm (base ^ count), Nat.mod_mul]
    ring

theorem ofBase_lt {digits : List ℕ} (hdigits : ∀ digit ∈ digits, digit < base) :
    ofBase base digits < base ^ digits.length := by
  induction digits using List.reverseRecOn with
  | nil => exact Nat.one_pos
  | append_singleton digits digit ih =>
    have hlast : digit < base := hdigits digit (by simp)
    have hrest := ih fun d hd ↦ hdigits d (List.mem_append_left _ hd)
    rw [ofBase_snoc, List.length_append, List.length_singleton, pow_succ]
    calc ofBase base digits * base + digit < ofBase base digits * base + base := by omega
      _ = (ofBase base digits + 1) * base := by ring
      _ ≤ base ^ digits.length * base := Nat.mul_le_mul_right base hrest

/-- The number is written back in the same digits. -/
theorem toBase_ofBase {digits : List ℕ} (hdigits : ∀ digit ∈ digits, digit < base) :
    toBase base digits.length (ofBase base digits) = digits := by
  induction digits using List.reverseRecOn with
  | nil => rfl
  | append_singleton digits digit ih =>
    have hlast : digit < base := hdigits digit (by simp)
    have hrest := ih fun d hd ↦ hdigits d (List.mem_append_left _ hd)
    have hquotient : (ofBase base digits * base + digit) / base = ofBase base digits := by
      rw [Nat.mul_comm, Nat.mul_add_div (Nat.zero_lt_of_lt hlast), Nat.div_eq_of_lt hlast,
        Nat.add_zero]
    rw [ofBase_snoc, List.length_append, List.length_singleton, toBase, hquotient, hrest,
      Nat.mul_comm, Nat.mul_add_mod, Nat.mod_eq_of_lt hlast]

/-- Digits of the same number are the same, if there are as many. -/
theorem ofBase_inj {digits others : List ℕ} (hdigits : ∀ digit ∈ digits, digit < base)
    (hothers : ∀ digit ∈ others, digit < base) (hlength : digits.length = others.length)
    (hvalue : ofBase base digits = ofBase base others) : digits = others := by
  rw [← toBase_ofBase hdigits, hvalue, hlength, toBase_ofBase hothers]

/-- The high digits are the digits of the quotient. -/
theorem take_toBase (base upper lower n : ℕ) :
    (toBase base (upper + lower) n).take upper = toBase base upper (n / base ^ lower) := by
  induction lower generalizing n with
  | zero =>
    rw [pow_zero, Nat.div_one, Nat.add_zero, List.take_of_length_le (length_toBase ..).le]
  | succ lower ih =>
    have hle : upper ≤ (toBase base (upper + lower) (n / base)).length := by simp
    rw [← Nat.add_assoc, toBase, List.take_append_of_le_length hle, ih, Nat.div_div_eq_div_mul,
      pow_succ, Nat.mul_comm base]

/-- Replacing the low digits keeps the high part of the number. -/
theorem ofBase_take_append (upper : ℕ) {lower : List ℕ} {n : ℕ}
    (hlt : n < base ^ (upper + lower.length)) :
    ofBase base ((toBase base (upper + lower.length) n).take upper ++ lower) =
      n / base ^ lower.length * base ^ lower.length + ofBase base lower := by
  have hquotient : n / base ^ lower.length < base ^ upper := by
    refine Nat.div_lt_of_lt_mul ?_
    rwa [← pow_add, Nat.add_comm]
  rw [ofBase_append, take_toBase, ofBase_toBase, Nat.mod_eq_of_lt hquotient]

end WindscribeVpn.Foundations.Positional
