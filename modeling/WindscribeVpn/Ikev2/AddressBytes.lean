import WindscribeVpn.Foundations.Positional
import Mathlib.Data.List.GetD
import Mathlib.Tactic.Linarith

/-!
# Addresses as bytes

`IPRange` works on the bytes of its two addresses: it compares them, counts them up and down, looks
at their bits one by one and masks them with a prefix. `value` is the number that the bytes of an
address make, the highest first, and the lemmas say what each of these operations does to it: the
comparison is that of the numbers (`compareAddr_eq_lt_iff`), `inc` and `dec` add and subtract one,
the bit at a position is a binary digit, and a prefix leaves out the digits after it.

`determinePrefix` finds out whether two addresses are the ends of a subnet, and
`determinePrefix_eq_some_iff` says that it does: exactly for the first and the last address of an
aligned block there is a prefix, and it is the one of the block.
-/

set_option autoImplicit false
set_option relaxedAutoImplicit false

namespace WindscribeVpn.Ikev2

open Foundations.Positional

/-- A `byte[]`. -/
abbrev Bytes := List (BitVec 8)

namespace AddressBytes

/-- The number that the bytes make. -/
def value (addr : Bytes) : ℕ := ofBase 256 (addr.map BitVec.toNat)

/-- Compares byte by byte, up to the first that differs. -/
def compareBytes : Bytes → Bytes → Ordering
  | a :: as, b :: bs =>
    if a = b then compareBytes as bs else if a.toNat < b.toNat then .lt else .gt
  | _, _ => .eq

/-- `compareAddr`. -/
def compareAddr (a b : Bytes) : Ordering :=
  if a.length ≠ b.length then if a.length < b.length then .lt else .gt else compareBytes a b

/-- The loop of `dec`, the last byte first. -/
def decBytes : Bytes → Bytes
  | [] => []
  | byte :: rest => if byte - 1 ≠ 0xff then (byte - 1) :: rest else (byte - 1) :: decBytes rest

/-- `dec`. -/
def dec (addr : Bytes) : Bytes := (decBytes addr.reverse).reverse

/-- The loop of `inc`, the last byte first. -/
def incBytes : Bytes → Bytes
  | [] => []
  | byte :: rest => if byte + 1 ≠ 0 then (byte + 1) :: rest else (byte + 1) :: incBytes rest

/-- `inc`. -/
def inc (addr : Bytes) : Bytes := (incBytes addr.reverse).reverse

/-- `mBitmask`. -/
def mBitmask : List (BitVec 8) := [0x80, 0x40, 0x20, 0x10, 0x08, 0x04, 0x02, 0x01]

/-- The mask of the bit at a position, which is `i * 8 + bit` for a byte and a bit of it. -/
def maskAt (position : ℕ) : BitVec 8 := mBitmask.getD (position % 8) 0

/-- The byte of an address masked with a bit of it. -/
def bitAt (addr : Bytes) (position : ℕ) : BitVec 8 :=
  addr.getD (position / 8) 0 &&& maskAt position

/-- The address with a bit inverted. -/
def invertAt (addr : Bytes) (position : ℕ) : Bytes :=
  addr.modify (position / 8) (· ^^^ maskAt position)

/-- The address with a bit cleared. -/
def clearAt (addr : Bytes) (position : ℕ) : Bytes :=
  addr.modify (position / 8) (· &&& ~~~maskAt position)

/-- The first position at which two addresses differ, or the number of their bits. -/
def commonPrefix (mFrom mTo : Bytes) : ℕ :=
  (List.range (8 * mFrom.length)).findIdx fun position ↦ bitAt mFrom position != bitAt mTo position

/-- `determinePrefix`: the first position that differs, unless a later one is not clear in `mFrom`
and set in `mTo`. -/
def determinePrefix (mFrom mTo : Bytes) : Option ℕ :=
  let matching := commonPrefix mFrom mTo
  if ((List.range (8 * mFrom.length)).drop (matching + 1)).all fun position ↦
      bitAt mFrom position == 0 && bitAt mTo position != 0 then
    some matching
  else none

/-- The mask of the byte in which a prefix ends, `(byte)(0xff << (8 - prefix % 8))`. -/
def prefixMask (pre : ℕ) : BitVec 8 := ((0xff : BitVec 32) <<< (8 - pre % 8)).setWidth 8

/-- The address with the bits after a prefix cleared. -/
def networkBytes (addr : Bytes) (pre : ℕ) : Bytes :=
  let i := pre / 8
  if i < addr.length then
    addr.take i ++ (addr.getD i 0 &&& prefixMask pre) ::
      List.replicate (addr.length - (i + 1)) 0
  else addr

/-- The address with the bits after a prefix set. -/
def broadcastBytes (addr : Bytes) (pre : ℕ) : Bytes :=
  let i := pre / 8
  if i < addr.length then
    addr.take i ++ (addr.getD i 0 ||| ~~~prefixMask pre) ::
      List.replicate (addr.length - (i + 1)) 0xff
  else addr

/-! ### The number of an address -/

variable {a b addr : Bytes}

theorem value_append (upper lower : Bytes) :
    value (upper ++ lower) = value upper * 256 ^ lower.length + value lower := by
  rw [value, List.map_append, ofBase_append, List.length_map]
  rfl

theorem value_cons (byte : BitVec 8) (rest : Bytes) :
    value (byte :: rest) = byte.toNat * 256 ^ rest.length + value rest := by
  rw [← List.singleton_append, value_append]
  simp [value, ofBase]

theorem value_snoc (addr : Bytes) (byte : BitVec 8) :
    value (addr ++ [byte]) = value addr * 256 + byte.toNat := by
  rw [value, List.map_append, List.map_singleton, ofBase_snoc]
  rfl

theorem value_lt (addr : Bytes) : value addr < 256 ^ addr.length := by
  have hlt := @ofBase_lt 256 (addr.map BitVec.toNat) fun digit hdigit ↦ by
    obtain ⟨byte, _, rfl⟩ := List.mem_map.mp hdigit
    exact byte.isLt
  rwa [List.length_map] at hlt

theorem value_inj (hlength : a.length = b.length) (hvalue : value a = value b) : a = b := by
  induction a generalizing b with
  | nil => exact (List.length_eq_zero_iff.mp hlength.symm).symm
  | cons first rest ih =>
    cases b with
    | nil => cases hlength
    | cons other others =>
      have hrest : rest.length = others.length := Nat.succ.inj hlength
      have hlt := value_lt rest
      have hlt' := value_lt others
      rw [value_cons, value_cons, ← hrest] at hvalue
      rw [← hrest] at hlt'
      have hdiv := congrArg (· / 256 ^ rest.length) hvalue
      have hmod := congrArg (· % 256 ^ rest.length) hvalue
      have hpos : 0 < 256 ^ rest.length := Nat.pow_pos (by decide)
      simp only [Nat.mul_comm _ (256 ^ rest.length), Nat.mul_add_div hpos, Nat.div_eq_of_lt hlt,
        Nat.div_eq_of_lt hlt', Nat.add_zero, Nat.mul_add_mod, Nat.mod_eq_of_lt hlt,
        Nat.mod_eq_of_lt hlt'] at hdiv hmod
      rw [BitVec.eq_of_toNat_eq hdiv, ih hrest hmod]

theorem value_replicate_zero (count : ℕ) : value (List.replicate count 0) = 0 := by
  induction count with
  | zero => rfl
  | succ count ih => rw [List.replicate_succ, value_cons, ih]; simp

theorem value_replicate_full (count : ℕ) :
    value (List.replicate count 0xff) + 1 = 256 ^ count := by
  induction count with
  | zero => rfl
  | succ count ih =>
    rw [List.replicate_succ, value_cons, List.length_replicate, Nat.add_assoc, ih, pow_succ]
    change 255 * 256 ^ count + 256 ^ count = 256 ^ count * 256
    omega

/-! ### Comparing, counting up and down -/

theorem compareBytes_eq_lt_iff (hlength : a.length = b.length) :
    compareBytes a b = .lt ↔ value a < value b := by
  induction a generalizing b with
  | nil => rw [List.length_eq_zero_iff.mp hlength.symm]; simp [compareBytes]
  | cons first rest ih =>
    cases b with
    | nil => cases hlength
    | cons other others =>
      have hrest : rest.length = others.length := Nat.succ.inj hlength
      have hlt := value_lt rest
      have hlt' := value_lt others
      rw [← hrest] at hlt'
      rw [compareBytes, value_cons, value_cons, ← hrest]
      split
      · rename_i hsame
        rw [ih hrest, hsame, Nat.add_lt_add_iff_left]
      · rename_i hne
        have hne' : first.toNat ≠ other.toNat := fun h ↦ hne (BitVec.eq_of_toNat_eq h)
        split
        · rename_i hless
          have hmul := Nat.mul_le_mul_right (256 ^ rest.length) (Nat.succ_le_of_lt hless)
          rw [Nat.succ_mul] at hmul
          simp only [true_iff]
          omega
        · rename_i hless
          have hmore : other.toNat < first.toNat := by omega
          have hmul := Nat.mul_le_mul_right (256 ^ rest.length) (Nat.succ_le_of_lt hmore)
          rw [Nat.succ_mul] at hmul
          simp only [reduceCtorEq, false_iff]
          omega

theorem compareBytes_swap (a b : Bytes) : (compareBytes a b).swap = compareBytes b a := by
  induction a generalizing b with
  | nil => cases b <;> rfl
  | cons first rest ih =>
    cases b with
    | nil => rfl
    | cons other others =>
      rw [compareBytes, compareBytes]
      by_cases hsame : first = other
      · rw [if_pos hsame, if_pos hsame.symm, ih]
      · have hne : first.toNat ≠ other.toNat := fun h ↦ hsame (BitVec.eq_of_toNat_eq h)
        rw [if_neg hsame, if_neg (Ne.symm hsame)]
        split
        · rename_i hless
          rw [if_neg (by omega)]
          rfl
        · rename_i hless
          rw [if_pos (by omega)]
          rfl

theorem compareAddr_swap (a b : Bytes) : (compareAddr a b).swap = compareAddr b a := by
  rw [compareAddr, compareAddr]
  by_cases hlength : a.length = b.length
  · rw [if_neg (not_not.mpr hlength), if_neg (not_not.mpr hlength.symm), compareBytes_swap]
  · rw [if_pos hlength, if_pos (Ne.symm hlength)]
    split
    · rename_i hless
      rw [if_neg (by omega)]
      rfl
    · rename_i hless
      rw [if_pos (by omega)]
      rfl

/-- The length of an address of either family. -/
def OfFamily (addr : Bytes) : Prop := addr.length = 4 ∨ addr.length = 16

instance (addr : Bytes) : Decidable (OfFamily addr) := inferInstanceAs (Decidable (_ ∨ _))

/-- Where the addresses of a family begin on one line for both: IPv4 first, then IPv6 with one place
left free between them, so that no range goes on from one family to the other. -/
def offset (length : ℕ) : ℕ := if length = 4 then 0 else 2 ^ 32 + 1

/-- The place of an address on the line. -/
def place (addr : Bytes) : ℕ := offset addr.length + value addr

/-- An address of the shorter family comes first, with room before the other. -/
theorem place_lt_of_length_lt (ha : OfFamily a) (hb : OfFamily b) (hlength : a.length < b.length) :
    place a + 1 < place b := by
  have hshort : a.length = 4 := by rcases ha with h | h <;> rcases hb with h' | h' <;> omega
  have hlong : b.length ≠ 4 := by omega
  have hlt := value_lt a
  rw [hshort] at hlt
  rw [place, place, offset, offset, if_pos hshort, if_neg hlong]
  omega

theorem compareAddr_eq_lt_iff (ha : OfFamily a) (hb : OfFamily b) :
    compareAddr a b = .lt ↔ place a < place b := by
  rw [compareAddr]
  by_cases hlength : a.length = b.length
  · rw [if_neg (not_not.mpr hlength), compareBytes_eq_lt_iff hlength, place, place, hlength]
    omega
  · rw [if_pos hlength]
    split
    · rename_i hless
      have hlt := place_lt_of_length_lt ha hb hless
      simp only [true_iff]
      omega
    · rename_i hless
      have hlt := place_lt_of_length_lt hb ha (by omega)
      simp only [reduceCtorEq, false_iff]
      omega

theorem compareAddr_eq_gt_iff (ha : OfFamily a) (hb : OfFamily b) :
    compareAddr a b = .gt ↔ place b < place a := by
  rw [← compareAddr_eq_lt_iff hb ha, ← compareAddr_swap a b]
  cases compareAddr a b <;> simp

theorem place_inj (ha : OfFamily a) (hb : OfFamily b) (hplace : place a = place b) : a = b := by
  have hlength : a.length = b.length := by
    by_contra hne
    rcases Nat.lt_or_gt_of_ne hne with hlt | hlt
    · have hless := place_lt_of_length_lt ha hb hlt; omega
    · have hless := place_lt_of_length_lt hb ha hlt; omega
  rw [place, place, hlength] at hplace
  exact value_inj hlength (by omega)

theorem compareAddr_eq_eq_iff (ha : OfFamily a) (hb : OfFamily b) :
    compareAddr a b = .eq ↔ a = b := by
  have hlt := compareAddr_eq_lt_iff ha hb
  have hgt := compareAddr_eq_gt_iff ha hb
  constructor
  · intro heq
    rw [heq] at hlt hgt
    exact place_inj ha hb (by simp at hlt hgt; omega)
  · rintro rfl
    cases heq : compareAddr a a with
    | lt => exact absurd (hlt.mp heq) (Nat.lt_irrefl _)
    | eq => rfl
    | gt => exact absurd (hgt.mp heq) (Nat.lt_irrefl _)

theorem length_incBytes (addr : Bytes) : (incBytes addr).length = addr.length := by
  induction addr with
  | nil => rfl
  | cons byte rest ih => rw [incBytes]; split <;> simp [ih]

theorem length_decBytes (addr : Bytes) : (decBytes addr).length = addr.length := by
  induction addr with
  | nil => rfl
  | cons byte rest ih => rw [decBytes]; split <;> simp [ih]

@[simp] theorem length_inc (addr : Bytes) : (inc addr).length = addr.length := by
  rw [inc, List.length_reverse, length_incBytes, List.length_reverse]

@[simp] theorem length_dec (addr : Bytes) : (dec addr).length = addr.length := by
  rw [dec, List.length_reverse, length_decBytes, List.length_reverse]

theorem value_incBytes {addr : Bytes} (hlt : value addr.reverse + 1 < 256 ^ addr.length) :
    value (incBytes addr).reverse = value addr.reverse + 1 := by
  induction addr with
  | nil => simp [value, ofBase] at hlt
  | cons byte rest ih =>
    rw [List.reverse_cons, value_snoc, List.length_cons, pow_succ] at hlt
    rw [incBytes]
    have hbyte := byte.isLt
    split
    · rename_i hcarry
      have hsucc : (byte + 1).toNat = byte.toNat + 1 := by
        have hne : byte.toNat ≠ 255 := fun h ↦
          hcarry (BitVec.eq_of_toNat_eq (by rw [BitVec.toNat_add, h]; rfl))
        rw [BitVec.toNat_add]
        exact Nat.mod_eq_of_lt (by change byte.toNat + 1 < 256; omega)
      rw [List.reverse_cons, value_snoc, List.reverse_cons, value_snoc, hsucc, Nat.add_assoc]
    · rename_i hcarry
      rw [not_not] at hcarry
      have hfull : byte.toNat = 255 := by
        have h := congrArg BitVec.toNat hcarry
        rw [BitVec.toNat_add] at h
        change (byte.toNat + 1) % 256 = 0 at h
        omega
      have hzero : (0 : BitVec 8).toNat = 0 := rfl
      rw [List.reverse_cons, value_snoc, List.reverse_cons, value_snoc, ih (by omega), hcarry,
        hzero, hfull]
      omega

/-- Counting up, short of the last address. -/
theorem value_inc (hlt : value addr + 1 < 256 ^ addr.length) : value (inc addr) = value addr + 1 := by
  have hreversed := @value_incBytes addr.reverse (by
    rwa [List.reverse_reverse, List.length_reverse])
  rwa [List.reverse_reverse] at hreversed

theorem value_decBytes {addr : Bytes} (hpos : 0 < value addr.reverse) :
    value (decBytes addr).reverse + 1 = value addr.reverse := by
  induction addr with
  | nil => simp [value, ofBase] at hpos
  | cons byte rest ih =>
    rw [List.reverse_cons, value_snoc] at hpos ⊢
    rw [decBytes]
    have hbyte := byte.isLt
    split
    · rename_i hborrow
      have hne : byte.toNat ≠ 0 := fun h ↦
        hborrow (by rw [BitVec.eq_of_toNat_eq (y := 0#8) h]; rfl)
      have hpred : (byte - 1).toNat + 1 = byte.toNat := by
        rw [BitVec.toNat_sub]
        change (256 - 1 + byte.toNat) % 256 + 1 = byte.toNat
        omega
      rw [List.reverse_cons, value_snoc]
      omega
    · rename_i hborrow
      rw [not_not] at hborrow
      have hzero : byte.toNat = 0 := by
        have h := congrArg BitVec.toNat hborrow
        rw [BitVec.toNat_sub] at h
        change (256 - 1 + byte.toNat) % 256 = 255 at h
        omega
      have hrest := ih (by omega)
      rw [List.reverse_cons, value_snoc, hborrow, hzero]
      change value (decBytes rest).reverse * 256 + 255 + 1 = value rest.reverse * 256 + 0
      omega

/-- Counting down, short of the first address. -/
theorem value_dec (hpos : 0 < value addr) : value (dec addr) + 1 = value addr := by
  have hreversed := @value_decBytes addr.reverse (by rwa [List.reverse_reverse])
  rwa [List.reverse_reverse] at hreversed

/-! ### The bits of an address -/

/-- An address is what comes before a byte, the byte, and what comes after it. -/
theorem value_split {i : ℕ} (hi : i < addr.length) :
    value addr = (value (addr.take i) * 256 + (addr.getD i 0).toNat) *
      256 ^ (addr.length - 1 - i) + value (addr.drop (i + 1)) := by
  have hsplit : addr = addr.take i ++ [addr.getD i 0] ++ addr.drop (i + 1) := by
    rw [List.getD_eq_getElem _ _ hi, List.append_assoc, List.singleton_append,
      List.getElem_cons_drop, List.take_append_drop]
  have hlength : (addr.drop (i + 1)).length = addr.length - 1 - i := by
    rw [List.length_drop]; omega
  calc value addr = value (addr.take i ++ [addr.getD i 0] ++ addr.drop (i + 1)) := by rw [← hsplit]
    _ = _ := by rw [value_append, value_snoc, hlength]

/-- The quotient that leaves out the bytes after one of them. -/
theorem div_pow_bytes {i : ℕ} (hi : i < addr.length) :
    value addr / 256 ^ (addr.length - 1 - i) =
      value (addr.take i) * 256 + (addr.getD i 0).toNat := by
  have hpos : 0 < 256 ^ (addr.length - 1 - i) := Nat.pow_pos (by decide)
  have hrest := value_lt (addr.drop (i + 1))
  have hlength : addr.length - (i + 1) = addr.length - 1 - i := by omega
  rw [List.length_drop, hlength] at hrest
  rw [value_split hi, Nat.mul_comm _ (256 ^ _), Nat.mul_add_div hpos, Nat.div_eq_of_lt hrest,
    Nat.add_zero]

/-- The quotient of a byte and of what comes before it. -/
theorem div_byte {bits : ℕ} (hle : bits ≤ 8) (upper byte : ℕ) :
    (upper * 256 + byte) / 2 ^ bits = upper * 2 ^ (8 - bits) + byte / 2 ^ bits := by
  have hfactor : upper * 256 = 2 ^ bits * (upper * 2 ^ (8 - bits)) := by
    calc upper * 256 = upper * 2 ^ (bits + (8 - bits)) := by rw [Nat.add_sub_cancel' hle]; rfl
      _ = _ := by rw [pow_add]; ring
  rw [hfactor, Nat.mul_add_div (Nat.two_pow_pos _)]

/-- Another byte in the place of one. -/
theorem value_modify {i : ℕ} (hi : i < addr.length) (f : BitVec 8 → BitVec 8) :
    value (addr.modify i f) + (addr.getD i 0).toNat * 256 ^ (addr.length - 1 - i) =
      value addr + (f (addr.getD i 0)).toNat * 256 ^ (addr.length - 1 - i) := by
  have hlength : (addr.drop (i + 1)).length = addr.length - 1 - i := by
    rw [List.length_drop]; omega
  rw [List.modify_eq_take_cons_drop hi, value_append, value_cons, List.length_cons, hlength,
    value_split hi, List.getD_eq_getElem _ _ hi]
  ring

/-- What a mask keeps of a byte, and what the byte is with the bit inverted and with it cleared. -/
theorem byte_mask : ∀ (bit : Fin 8) (byte : BitVec 8),
    byte &&& mBitmask.getD bit 0 =
      (if byte.toNat / 2 ^ (7 - bit.val) % 2 = 1 then mBitmask.getD bit 0 else 0) ∧
    (byte ^^^ mBitmask.getD bit 0).toNat +
        byte.toNat / 2 ^ (7 - bit.val) % 2 * 2 * 2 ^ (7 - bit.val) =
      byte.toNat + 2 ^ (7 - bit.val) ∧
    (byte &&& ~~~mBitmask.getD bit 0).toNat +
        byte.toNat / 2 ^ (7 - bit.val) % 2 * 2 ^ (7 - bit.val) = byte.toNat := by
  decide +kernel

theorem maskAt_ne_zero (position : ℕ) : maskAt position ≠ 0 := by
  have hmask : ∀ bit : Fin 8, mBitmask.getD bit 0 ≠ 0 := by decide
  exact hmask ⟨position % 8, Nat.mod_lt _ (by decide)⟩

/-- The binary digit of the address at a position, counted from the highest. -/
def digitAt (addr : Bytes) (position : ℕ) : ℕ :=
  value addr / 2 ^ (8 * addr.length - 1 - position) % 2

theorem pow_position {position : ℕ} (hlt : position < 8 * addr.length) :
    2 ^ (7 - position % 8) * 256 ^ (addr.length - 1 - position / 8) =
      2 ^ (8 * addr.length - 1 - position) := by
  have hexponent : 8 * addr.length - 1 - position =
      7 - position % 8 + 8 * (addr.length - 1 - position / 8) := by omega
  rw [hexponent, pow_add, pow_mul]
  rfl

/-- The digit at a position is one of the byte's digits. -/
theorem digitAt_eq {position : ℕ} (hlt : position < 8 * addr.length) :
    digitAt addr position =
      (addr.getD (position / 8) 0).toNat / 2 ^ (7 - position % 8) % 2 := by
  have hi : position / 8 < addr.length := by omega
  have hbits : 8 - (7 - position % 8) = position % 8 + 1 := by omega
  rw [digitAt, ← pow_position hlt, Nat.mul_comm (2 ^ _), ← Nat.div_div_eq_div_mul,
    div_pow_bytes hi, div_byte (by omega), hbits, pow_succ, ← Nat.mul_assoc, Nat.add_mod,
    Nat.mul_mod_left, Nat.zero_add, Nat.mod_mod]

theorem bitAt_eq {position : ℕ} (hlt : position < 8 * addr.length) :
    bitAt addr position = if digitAt addr position = 1 then maskAt position else 0 := by
  rw [digitAt_eq hlt]
  exact (byte_mask ⟨position % 8, Nat.mod_lt _ (by decide)⟩ _).1

theorem digitAt_lt_two (addr : Bytes) (position : ℕ) : digitAt addr position < 2 :=
  Nat.mod_lt _ (by decide)

theorem bitAt_ne_zero_iff {position : ℕ} (hlt : position < 8 * addr.length) :
    bitAt addr position ≠ 0 ↔ digitAt addr position = 1 := by
  rw [bitAt_eq hlt]
  split
  · rename_i hset; exact iff_of_true (maskAt_ne_zero _) hset
  · rename_i hclear; exact iff_of_false (not_not.mpr rfl) hclear

theorem bitAt_eq_iff (hlength : a.length = b.length) {position : ℕ}
    (hlt : position < 8 * a.length) :
    bitAt a position = bitAt b position ↔ digitAt a position = digitAt b position := by
  have hfirst := digitAt_lt_two a position
  have hsecond := digitAt_lt_two b position
  rw [bitAt_eq hlt, bitAt_eq (hlength ▸ hlt)]
  split
  · rename_i hset
    split
    · rename_i hset'; exact iff_of_true rfl (hset.trans hset'.symm)
    · rename_i hclear
      exact iff_of_false (maskAt_ne_zero _) fun heq ↦ hclear (heq ▸ hset)
  · rename_i hclear
    split
    · rename_i hset
      exact iff_of_false (maskAt_ne_zero _).symm fun heq ↦ hclear (heq ▸ hset)
    · rename_i hclear'; exact iff_of_true rfl (by omega)

theorem value_invertAt {position : ℕ} (hlt : position < 8 * addr.length) :
    value (invertAt addr position) +
        digitAt addr position * 2 * 2 ^ (8 * addr.length - 1 - position) =
      value addr + 2 ^ (8 * addr.length - 1 - position) := by
  have hi : position / 8 < addr.length := by omega
  have hmodified := value_modify hi (· ^^^ maskAt position)
  have hbyte := (byte_mask ⟨position % 8, Nat.mod_lt _ (by decide)⟩ (addr.getD (position / 8) 0)).2.1
  change ((addr.getD (position / 8) 0) ^^^ maskAt position).toNat + _ = _ at hbyte
  dsimp only at hbyte
  rw [← digitAt_eq hlt] at hbyte
  rw [← pow_position hlt]
  have hscaled := congrArg (· * 256 ^ (addr.length - 1 - position / 8)) hbyte
  simp only [Nat.add_mul] at hscaled
  rw [invertAt]
  linarith

theorem value_clearAt {position : ℕ} (hlt : position < 8 * addr.length) :
    value (clearAt addr position) +
        digitAt addr position * 2 ^ (8 * addr.length - 1 - position) = value addr := by
  have hi : position / 8 < addr.length := by omega
  have hmodified := value_modify hi (· &&& ~~~maskAt position)
  have hbyte := (byte_mask ⟨position % 8, Nat.mod_lt _ (by decide)⟩ (addr.getD (position / 8) 0)).2.2
  change ((addr.getD (position / 8) 0) &&& ~~~maskAt position).toNat + _ = _ at hbyte
  dsimp only at hbyte
  rw [← digitAt_eq hlt] at hbyte
  rw [← pow_position hlt]
  have hscaled := congrArg (· * 256 ^ (addr.length - 1 - position / 8)) hbyte
  simp only [Nat.add_mul] at hscaled
  rw [clearAt]
  linarith

@[simp] theorem length_invertAt (addr : Bytes) (position : ℕ) :
    (invertAt addr position).length = addr.length := List.length_modify ..

@[simp] theorem length_clearAt (addr : Bytes) (position : ℕ) :
    (clearAt addr position).length = addr.length := List.length_modify ..

/-! ### Prefixes -/

theorem commonPrefix_le (mFrom mTo : Bytes) : commonPrefix mFrom mTo ≤ 8 * mFrom.length := by
  have hle : commonPrefix mFrom mTo ≤ (List.range (8 * mFrom.length)).length :=
    List.findIdx_le_length
  rwa [List.length_range] at hle

/-- The quotients of two numbers of as many digits whose first digits are the same. -/
theorem div_eq_of_digitAt_eq (hlength : a.length = b.length) {count : ℕ}
    (hle : count ≤ 8 * a.length)
    (hsame : ∀ position < count, digitAt a position = digitAt b position) :
    value a / 2 ^ (8 * a.length - count) = value b / 2 ^ (8 * a.length - count) := by
  induction count with
  | zero =>
    have hpow : 256 ^ a.length = 2 ^ (8 * a.length - 0) := by rw [Nat.sub_zero, pow_mul]; rfl
    have ha := value_lt a
    have hb := value_lt b
    rw [← hlength] at hb
    rw [← hpow, Nat.div_eq_of_lt ha, Nat.div_eq_of_lt hb]
  | succ count ih =>
    have hquotient := ih (by omega) fun position hlt ↦ hsame position (by omega)
    have hdigit := hsame count (Nat.lt_succ_self count)
    have hexponent : 8 * a.length - count = 8 * a.length - (count + 1) + 1 := by omega
    have hindex : 8 * a.length - 1 - count = 8 * a.length - (count + 1) := by omega
    rw [digitAt, digitAt, ← hlength, hindex] at hdigit
    rw [hexponent, pow_succ, ← Nat.div_div_eq_div_mul, ← Nat.div_div_eq_div_mul] at hquotient
    omega

/-- What the search for a common prefix finds. -/
theorem commonPrefix_spec {mFrom mTo : Bytes} (hlength : mFrom.length = mTo.length) :
    (∀ position < commonPrefix mFrom mTo, digitAt mFrom position = digitAt mTo position) ∧
    (commonPrefix mFrom mTo < 8 * mFrom.length →
      digitAt mFrom (commonPrefix mFrom mTo) ≠ digitAt mTo (commonPrefix mFrom mTo)) := by
  constructor
  · intro position hlt
    have hin : position < 8 * mFrom.length := hlt.trans_le (commonPrefix_le _ _)
    have hnot := List.not_of_lt_findIdx hlt
    rw [List.getElem_range] at hnot
    simp only [bne_eq_false_iff_eq] at hnot
    exact (bitAt_eq_iff hlength hin).mp hnot
  · intro hlt hsame
    have hin : (List.range (8 * mFrom.length)).findIdx
        (fun position ↦ bitAt mFrom position != bitAt mTo position) <
          (List.range (8 * mFrom.length)).length := by
      rw [List.length_range]
      exact hlt
    have hfound := List.findIdx_getElem (w := hin)
    simp only [List.getElem_range, bne_iff_ne, ne_eq] at hfound
    exact hfound ((bitAt_eq_iff hlength hlt).mpr hsame)

/-- The number of bits after the first that differs. -/
def restBits (mFrom mTo : Bytes) : ℕ := 8 * mFrom.length - 1 - commonPrefix mFrom mTo

/-- Where two addresses first differ, the lower one has a clear bit and the higher one a set bit. -/
theorem div_restBits {mFrom mTo : Bytes} (hlength : mFrom.length = mTo.length)
    (hle : value mFrom ≤ value mTo) (hlt : commonPrefix mFrom mTo < 8 * mFrom.length) :
    value mFrom / 2 ^ restBits mFrom mTo % 2 = 0 ∧
      value mTo / 2 ^ restBits mFrom mTo = value mFrom / 2 ^ restBits mFrom mTo + 1 := by
  obtain ⟨hsame, hdiffer⟩ := commonPrefix_spec hlength
  have hquotient := div_eq_of_digitAt_eq hlength (commonPrefix_le _ _) hsame
  have hexponent : 8 * mFrom.length - commonPrefix mFrom mTo = restBits mFrom mTo + 1 := by
    rw [restBits]; omega
  have hdigits := hdiffer hlt
  rw [digitAt, digitAt, ← hlength, ← restBits] at hdigits
  rw [hexponent, pow_succ, ← Nat.div_div_eq_div_mul, ← Nat.div_div_eq_div_mul] at hquotient
  have hmono : value mFrom / 2 ^ restBits mFrom mTo ≤ value mTo / 2 ^ restBits mFrom mTo :=
    Nat.div_le_div_right hle
  generalize value mFrom / 2 ^ restBits mFrom mTo = q at *
  generalize value mTo / 2 ^ restBits mFrom mTo = r at *
  omega

/-- The low digits of a number are clear. -/
theorem mod_two_pow_eq_zero_iff (n count : ℕ) :
    (∀ exponent < count, n / 2 ^ exponent % 2 = 0) ↔ n % 2 ^ count = 0 := by
  induction count with
  | zero => simp [Nat.mod_one]
  | succ count ih =>
    rw [Nat.forall_lt_succ_right, ih, Nat.mod_pow_succ]
    simp

/-- The low digits of a number are set. -/
theorem succ_mod_two_pow_eq_zero_iff (n count : ℕ) :
    (∀ exponent < count, n / 2 ^ exponent % 2 = 1) ↔ (n + 1) % 2 ^ count = 0 := by
  have hfull : ∀ c, (n + 1) % 2 ^ c = 0 ↔ n % 2 ^ c + 1 = 2 ^ c := by
    intro c
    have hpos : 0 < 2 ^ c := Nat.two_pow_pos c
    have hmod : n % 2 ^ c < 2 ^ c := Nat.mod_lt _ hpos
    rw [Nat.add_mod]
    by_cases hone : c = 0
    · simp [hone, Nat.mod_one]
    · have hlarge : 1 < 2 ^ c := Nat.one_lt_two_pow hone
      rw [Nat.mod_eq_of_lt hlarge]
      by_cases hlast : n % 2 ^ c + 1 = 2 ^ c
      · simp [hlast]
      · rw [Nat.mod_eq_of_lt (by omega)]
        omega
  rw [hfull]
  induction count with
  | zero => simp [Nat.mod_one]
  | succ count ih =>
    simp only [Nat.forall_lt_succ_right, ih]
    rw [Nat.mod_pow_succ, pow_succ]
    have hmod : n % 2 ^ count < 2 ^ count := Nat.mod_lt _ (Nat.two_pow_pos count)
    rcases Nat.mod_two_eq_zero_or_one (n / 2 ^ count) with hdigit | hdigit
    · rw [hdigit]; omega
    · rw [hdigit]; omega

/-- The positions after the first that differs. -/
theorem forall_mem_drop_range {n count : ℕ} {P : ℕ → Prop} :
    (∀ position ∈ (List.range n).drop (count + 1), P position) ↔
      ∀ exponent < n - 1 - count, P (n - 1 - exponent) := by
  rw [List.range_eq_range', List.drop_range']
  simp only [List.mem_range'_1]
  constructor
  · intro hall exponent hlt
    exact hall _ (by omega)
  · intro hall position hmem
    have hback : n - 1 - (n - 1 - position) = position := by omega
    have hposition := hall (n - 1 - position) (by omega)
    rwa [hback] at hposition

theorem determinePrefix_eq {mFrom mTo : Bytes} (hlength : mFrom.length = mTo.length) :
    determinePrefix mFrom mTo =
      if value mFrom % 2 ^ restBits mFrom mTo = 0 ∧
          (value mTo + 1) % 2 ^ restBits mFrom mTo = 0 then
        some (commonPrefix mFrom mTo) else none := by
  have hdigit : ∀ (addr : Bytes) (exponent : ℕ), exponent < 8 * addr.length →
      digitAt addr (8 * addr.length - 1 - exponent) = value addr / 2 ^ exponent % 2 := by
    intro addr exponent hlt
    have hback : 8 * addr.length - 1 - (8 * addr.length - 1 - exponent) = exponent := by omega
    rw [digitAt, hback]
  have hhosts : ((List.range (8 * mFrom.length)).drop (commonPrefix mFrom mTo + 1)).all
      (fun position ↦ bitAt mFrom position == 0 && bitAt mTo position != 0) = true ↔
      value mFrom % 2 ^ restBits mFrom mTo = 0 ∧
        (value mTo + 1) % 2 ^ restBits mFrom mTo = 0 := by
    rw [← mod_two_pow_eq_zero_iff, ← succ_mod_two_pow_eq_zero_iff, List.all_eq_true,
      forall_mem_drop_range, ← restBits, ← forall₂_and]
    refine forall₂_congr fun exponent hlt ↦ ?_
    have hin : exponent < 8 * mFrom.length := by rw [restBits] at hlt; omega
    have hposition : 8 * mFrom.length - 1 - exponent < 8 * mFrom.length := by omega
    have hclear := digitAt_lt_two mFrom (8 * mFrom.length - 1 - exponent)
    rw [Bool.and_eq_true, beq_iff_eq, bne_iff_ne, ← not_ne_iff, bitAt_ne_zero_iff hposition,
      bitAt_ne_zero_iff (hlength ▸ hposition), ← hdigit mFrom exponent hin,
      ← hdigit mTo exponent (hlength ▸ hin), ← hlength]
    omega
  rw [determinePrefix]
  by_cases hall : value mFrom % 2 ^ restBits mFrom mTo = 0 ∧
      (value mTo + 1) % 2 ^ restBits mFrom mTo = 0
  · rw [if_pos (hhosts.mpr hall), if_pos hall]
  · rw [if_neg fun h ↦ hall (hhosts.mp h), if_neg hall]

/-- The ends of an aligned block of numbers. -/
def Ends (mFrom mTo : Bytes) (pre : ℕ) : Prop :=
  pre ≤ 8 * mFrom.length ∧ ∃ index, value mFrom = index * 2 ^ (8 * mFrom.length - pre) ∧
    value mTo + 1 = (index + 1) * 2 ^ (8 * mFrom.length - pre)

/-- The last number before a multiple. -/
theorem div_of_succ_eq_mul {n index size : ℕ} (hsize : 0 < size)
    (heq : n + 1 = (index + 1) * size) : n / size = index := by
  rw [Nat.add_mul, Nat.one_mul] at heq
  rw [Nat.div_eq_iff hsize]
  omega

/-- The multiple that follows the last number before it. -/
theorem succ_eq_div_add_one_mul {n size : ℕ} (hmod : (n + 1) % size = 0) :
    n + 1 = (n / size + 1) * size := by
  obtain ⟨index, hindex⟩ := Nat.dvd_of_mod_eq_zero hmod
  rcases Nat.eq_zero_or_pos size with hzero | hpos
  · rw [hzero, Nat.zero_mul] at hindex
    omega
  · cases index with
    | zero => rw [Nat.mul_zero] at hindex; omega
    | succ index =>
      rw [Nat.mul_comm] at hindex
      rw [div_of_succ_eq_mul hpos hindex, hindex]

/-- The ends of a block first differ where its prefix ends. -/
theorem commonPrefix_of_ends {mFrom mTo : Bytes} (hlength : mFrom.length = mTo.length) {pre : ℕ}
    (hends : Ends mFrom mTo pre) : commonPrefix mFrom mTo = pre := by
  obtain ⟨hle, index, hlow, hhigh⟩ := hends
  obtain ⟨hsame, hdiffer⟩ := commonPrefix_spec hlength
  have hbound := commonPrefix_le mFrom mTo
  rcases Nat.lt_trichotomy (commonPrefix mFrom mTo) pre with hlt | heq | hgt
  · -- Above the block the two addresses have the same digits.
    have hexponent : 8 * mFrom.length - 1 - commonPrefix mFrom mTo =
        8 * mFrom.length - pre + (pre - 1 - commonPrefix mFrom mTo) := by omega
    refine absurd ?_ (hdiffer (by omega))
    rw [digitAt, digitAt, ← hlength, hexponent, pow_add, ← Nat.div_div_eq_div_mul,
      ← Nat.div_div_eq_div_mul, hlow, Nat.mul_div_cancel _ (Nat.two_pow_pos _),
      div_of_succ_eq_mul (Nat.two_pow_pos _) hhigh]
  · exact heq
  · -- The highest digit inside the block is clear in one and set in the other.
    have hexponent : 8 * mFrom.length - pre = 8 * mFrom.length - 1 - pre + 1 := by omega
    have hdigit := hsame pre hgt
    rw [hexponent, pow_succ, Nat.mul_comm (2 ^ _), ← Nat.mul_assoc] at hlow hhigh
    have hsucc : (index + 1) * 2 = index * 2 + 1 + 1 := by omega
    rw [hsucc] at hhigh
    rw [digitAt, digitAt, ← hlength, hlow, Nat.mul_div_cancel _ (Nat.two_pow_pos _),
      div_of_succ_eq_mul (Nat.two_pow_pos _) hhigh] at hdigit
    omega

/-- `determinePrefix` recognises the ends of a subnet and finds its prefix. -/
theorem determinePrefix_eq_some_iff {mFrom mTo : Bytes} (hlength : mFrom.length = mTo.length)
    (hle : value mFrom ≤ value mTo) {pre : ℕ} :
    determinePrefix mFrom mTo = some pre ↔ Ends mFrom mTo pre := by
  rw [determinePrefix_eq hlength]
  constructor
  · intro hsome
    split at hsome
    · rename_i hfull
      cases Option.some.inj hsome
      refine ⟨commonPrefix_le _ _, ?_⟩
      rcases (commonPrefix_le mFrom mTo).lt_or_eq with hlt | heq
      · obtain ⟨heven, hnext⟩ := div_restBits hlength hle hlt
        have hexponent : 8 * mFrom.length - commonPrefix mFrom mTo = restBits mFrom mTo + 1 := by
          rw [restBits]; omega
        have hlow : value mFrom / 2 ^ restBits mFrom mTo * 2 ^ restBits mFrom mTo = value mFrom :=
          Nat.div_mul_cancel (Nat.dvd_of_mod_eq_zero hfull.1)
        have hhigh := succ_eq_div_add_one_mul hfull.2
        rw [hnext] at hhigh
        rw [hexponent, pow_succ, Nat.mul_comm (2 ^ _)]
        refine ⟨value mFrom / 2 ^ restBits mFrom mTo / 2, ?_, ?_⟩
        · rw [← Nat.mul_assoc, Nat.div_mul_cancel (Nat.dvd_of_mod_eq_zero heven), hlow]
        · rw [← Nat.mul_assoc, Nat.add_mul _ _ 2, Nat.div_mul_cancel (Nat.dvd_of_mod_eq_zero heven),
            hhigh]
      · have hsame := div_eq_of_digitAt_eq hlength le_rfl fun position hlt ↦
          (commonPrefix_spec hlength).1 position (heq ▸ hlt)
        rw [Nat.sub_self, pow_zero, Nat.div_one, Nat.div_one] at hsame
        exact ⟨value mFrom, by simp [heq], by simp [heq, hsame]⟩
    · cases hsome
  · intro hends
    have hdetermined := commonPrefix_of_ends hlength hends
    obtain ⟨hbound, index, hlow, hhigh⟩ := hends
    have hpow : 2 ^ restBits mFrom mTo ∣ 2 ^ (8 * mFrom.length - pre) := by
      refine Nat.pow_dvd_pow 2 ?_
      rw [restBits, hdetermined]
      omega
    rw [if_pos, hdetermined]
    exact ⟨Nat.mod_eq_zero_of_dvd (hlow ▸ hpow.mul_left index),
      Nat.mod_eq_zero_of_dvd (hhigh ▸ hpow.mul_left (index + 1))⟩

/-- What a prefix that ends in a byte keeps of it, and the byte with the rest set. -/
theorem byte_prefixMask : ∀ (bit : Fin 8) (byte : BitVec 8),
    (byte &&& prefixMask bit).toNat = byte.toNat / 2 ^ (8 - bit.val) * 2 ^ (8 - bit.val) ∧
    (byte ||| ~~~prefixMask bit).toNat + 1 =
      (byte.toNat / 2 ^ (8 - bit.val) + 1) * 2 ^ (8 - bit.val) := by
  decide +kernel

/-- The size of a block in bytes and bits. -/
theorem pow_blockBits {pre : ℕ} (hlt : pre / 8 < addr.length) :
    2 ^ (8 * addr.length - pre) = 2 ^ (8 - pre % 8) * 256 ^ (addr.length - 1 - pre / 8) := by
  have hexponent : 8 * addr.length - pre = 8 - pre % 8 + 8 * (addr.length - 1 - pre / 8) := by omega
  rw [hexponent, pow_add, pow_mul]
  rfl

/-- The quotient of an address by the size of a block, in bytes and bits. -/
theorem div_blockBits {pre : ℕ} (hlt : pre / 8 < addr.length) :
    value addr / 2 ^ (8 * addr.length - pre) = value (addr.take (pre / 8)) * 2 ^ (pre % 8) +
      (addr.getD (pre / 8) 0).toNat / 2 ^ (8 - pre % 8) := by
  have hbits : 8 - (8 - pre % 8) = pre % 8 := by omega
  rw [pow_blockBits hlt, Nat.mul_comm (2 ^ _), ← Nat.div_div_eq_div_mul, div_pow_bytes hlt,
    div_byte (Nat.sub_le _ _), hbits]

theorem pow_bits (pre : ℕ) : 2 ^ (pre % 8) * 2 ^ (8 - pre % 8) = 256 := by
  have hexponent : pre % 8 + (8 - pre % 8) = 8 := by omega
  rw [← pow_add, hexponent]
  rfl

theorem value_networkBytes {pre : ℕ} (hle : pre ≤ 8 * addr.length) :
    value (networkBytes addr pre) =
      value addr / 2 ^ (8 * addr.length - pre) * 2 ^ (8 * addr.length - pre) := by
  rw [networkBytes]
  split
  · rename_i hlt
    have hbyte := (byte_prefixMask ⟨pre % 8, Nat.mod_lt _ (by decide)⟩
      (addr.getD (pre / 8) 0)).1
    have hmask : prefixMask (pre % 8) = prefixMask pre := by
      rw [prefixMask, prefixMask, Nat.mod_mod]
    have hrest : addr.length - (pre / 8 + 1) = addr.length - 1 - pre / 8 := by omega
    dsimp only at hbyte
    rw [hmask] at hbyte
    rw [value_append, value_cons, value_replicate_zero, hbyte, div_blockBits hlt, pow_blockBits hlt,
      List.length_cons, List.length_replicate, hrest, pow_succ, ← pow_bits pre]
    ring
  · have hwhole : 8 * addr.length - pre = 0 := by omega
    rw [hwhole, pow_zero, Nat.div_one, Nat.mul_one]

theorem value_broadcastBytes {pre : ℕ} (hle : pre ≤ 8 * addr.length) :
    value (broadcastBytes addr pre) + 1 =
      (value addr / 2 ^ (8 * addr.length - pre) + 1) * 2 ^ (8 * addr.length - pre) := by
  rw [broadcastBytes]
  split
  · rename_i hlt
    have hbyte := (byte_prefixMask ⟨pre % 8, Nat.mod_lt _ (by decide)⟩
      (addr.getD (pre / 8) 0)).2
    have hmask : prefixMask (pre % 8) = prefixMask pre := by
      rw [prefixMask, prefixMask, Nat.mod_mod]
    have hrest : addr.length - (pre / 8 + 1) = addr.length - 1 - pre / 8 := by omega
    have hfull := value_replicate_full (addr.length - 1 - pre / 8)
    dsimp only at hbyte
    rw [hmask] at hbyte
    rw [value_append, value_cons, div_blockBits hlt, pow_blockBits hlt,
      List.length_cons, List.length_replicate, hrest, pow_succ, Nat.add_assoc, Nat.add_assoc, hfull]
    generalize 256 ^ (addr.length - 1 - pre / 8) = size
    generalize value (addr.take (pre / 8)) = upper
    calc _ = upper * size * 256 +
          ((addr.getD (pre / 8) 0 ||| ~~~prefixMask pre).toNat + 1) * size := by ring
      _ = upper * size * (2 ^ (pre % 8) * 2 ^ (8 - pre % 8)) +
          ((addr.getD (pre / 8) 0).toNat / 2 ^ (8 - pre % 8) + 1) * 2 ^ (8 - pre % 8) * size := by
        rw [pow_bits, hbyte]
      _ = _ := by ring
  · have hwhole : 8 * addr.length - pre = 0 := by omega
    rw [hwhole, pow_zero, Nat.div_one, Nat.mul_one]

@[simp] theorem length_networkBytes (addr : Bytes) (pre : ℕ) :
    (networkBytes addr pre).length = addr.length := by
  rw [networkBytes]
  split
  · rename_i hlt
    rw [List.length_append, List.length_cons, List.length_replicate, List.length_take]
    omega
  · rfl

@[simp] theorem length_broadcastBytes (addr : Bytes) (pre : ℕ) :
    (broadcastBytes addr pre).length = addr.length := by
  rw [broadcastBytes]
  split
  · rename_i hlt
    rw [List.length_append, List.length_cons, List.length_replicate, List.length_take]
    omega
  · rfl

end AddressBytes

end WindscribeVpn.Ikev2
