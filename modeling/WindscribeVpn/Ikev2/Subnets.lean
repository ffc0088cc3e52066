import WindscribeVpn.Foundations.DyadicBlocks
import WindscribeVpn.Ikev2.IPRange

/-!
# The subnets of a range

`toSubnets` splits a range into subnets. It goes through the bits of the two addresses from the last
one to the first in which they differ, clears them and remembers for either address whether the bit
before was set (`Climbing`). Where that changes, a whole subtree lies in the range and is recorded.

`climb_spec` is the invariant of the loop: after `j` bits the bytes are the addresses without their
last `j` bits, the flags say whether anything was cleared, and the recorded subnets are the blocks
that climbing `j` levels from the two ends gives. Hence the subnets cover the range and nothing
else, come in order, and are as few as possible.
-/

set_option autoImplicit false
set_option relaxedAutoImplicit false

namespace WindscribeVpn.Ikev2.IPRange

open Foundations Foundations.DyadicBlocks AddressBytes
open Backend.LanBypass (InetAddress)

/-- The variables of the loop in `toSubnets`. -/
structure Climbing where
  lower : Bytes
  upper : Bytes
  fromPrev : Bool
  toPrev : Bool
  fromFull : Bool
  toFull : Bool
  netmask : ℤ
  list : List IPRange

/-- Before the loop. -/
def startClimb (self : IPRange) : Climbing where
  lower := self.mFrom
  upper := self.mTo
  fromPrev := false
  toPrev := true
  fromFull := true
  toFull := true
  netmask := self.mFrom.length * 8
  list := []

/-- The first half of the body, for the lower address. -/
def stepFrom (c : Climbing) (position : ℕ) : Option Climbing :=
  let fromCur := bitAt c.lower position != 0
  if !c.fromPrev && fromCur then do
    -- 0 -> 1: the subnet is the whole current subtree
    let subnet ← initializeFromCIDR c.lower c.netmask
    some { c with
      list := c.list ++ [subnet]
      fromFull := false
      lower := clearAt c.lower position
      fromPrev := fromCur }
  else if c.fromPrev && !fromCur then do
    -- 1 -> 0: the bit is inverted to switch to the right subtree
    let inverted := invertAt c.lower position
    let subnet ← initializeFromCIDR inverted c.netmask
    some { c with
      list := c.list ++ [subnet]
      lower := clearAt inverted position
      fromPrev := true }
  else some { c with lower := clearAt c.lower position, fromPrev := fromCur }

/-- The second half of the body, for the higher address. -/
def stepTo (c : Climbing) (position : ℕ) : Option Climbing :=
  let toCur := bitAt c.upper position != 0
  if c.toPrev && !toCur then do
    -- 1 -> 0: the subnet is the whole current subtree
    let subnet ← initializeFromCIDR c.upper c.netmask
    some { c with
      list := c.list ++ [subnet]
      toFull := false
      upper := clearAt c.upper position
      toPrev := toCur }
  else if !c.toPrev && toCur then do
    -- 0 -> 1: the bit is inverted to switch to the left subtree
    let inverted := invertAt c.upper position
    let subnet ← initializeFromCIDR inverted c.netmask
    some { c with
      list := c.list ++ [subnet]
      upper := clearAt inverted position
      toPrev := false }
  else some { c with upper := clearAt c.upper position, toPrev := toCur }

/-- The body of the loop. -/
def climbStep (c : Climbing) (position : ℕ) : Option Climbing := do
  let lowered ← stepFrom c position
  let both ← stepTo lowered position
  some { both with netmask := both.netmask - 1 }

/-- The loop after a number of bits, the last bit first. -/
def climb (self : IPRange) : ℕ → Option Climbing
  | 0 => some self.startClimb
  | count + 1 => do
    let c ← self.climb count
    climbStep c (8 * self.mFrom.length - 1 - count)

/-- The subnets that are left at the roots, after the loop. -/
def roots (c : Climbing) (pre : ℕ) : Option (List IPRange) :=
  if c.fromFull && c.toFull then do
    let subnet ← initializeFromCIDR c.lower pre
    some (c.list ++ [subnet])
  else if c.fromFull then do
    let subnet ← initializeFromCIDR c.lower (pre + 1)
    some (c.list ++ [subnet])
  else if c.toFull then do
    let subnet ← initializeFromCIDR c.upper (pre + 1)
    some (c.list ++ [subnet])
  else some c.list

/-- `Collections.sort`. -/
def sort (list : List IPRange) : List IPRange := list.mergeSort fun r s ↦ (r.compareTo s).isLE

/-- `toSubnets`. -/
def toSubnets (self : IPRange) : Option (List IPRange) :=
  match self.mPrefix with
  | some _ => some (sort [self])
  | none => do
    let pre := commonPrefix self.mFrom self.mTo
    let c ← self.climb (8 * self.mFrom.length - (pre + 1))
    let list ← roots c pre
    some (sort list)

/-! ### A subnet is a block -/

variable {r s t : IPRange}

/-- The block of numbers of a subnet. -/
def block (s : IPRange) : Block :=
  let level := 8 * s.mFrom.length - s.mPrefix.getD 0
  ⟨level, value s.mFrom / 2 ^ level⟩

theorem value_le (r : IPRange) : value r.mFrom ≤ value r.mTo := by
  have hle := r.place_le
  rw [place, place, r.fits.length_eq] at hle
  omega

theorem mem_block_iff (hsubnet : s.mPrefix.isSome) {x : ℕ} :
    x ∈ s.block ↔ value s.mFrom ≤ x ∧ x ≤ value s.mTo := by
  obtain ⟨pre, hpre⟩ := Option.isSome_iff_exists.mp hsubnet
  have hdetermined := s.prefix_eq
  rw [hpre] at hdetermined
  obtain ⟨hle, index, hlow, hhigh⟩ :=
    (determinePrefix_eq_some_iff s.fits.length_eq s.value_le).mp hdetermined.symm
  rw [Block.mem_iff, block, hpre]
  dsimp only [Option.getD_some]
  rw [hlow, Nat.mul_div_cancel _ (Nat.two_pow_pos _), ← hhigh, Nat.lt_succ_iff]

/-- The constructor makes the subnet of a block. -/
theorem initializeFromCIDR_spec {base : Bytes} (hfamily : OfFamily base) {level : ℕ}
    (hle : level ≤ 8 * base.length) {pre : ℤ} (hpre : pre = 8 * base.length - level) :
    ∃ s, initializeFromCIDR base pre = some s ∧ s.block = ⟨level, value base / 2 ^ level⟩ ∧
      s.mFrom.length = base.length ∧ s.mPrefix.isSome := by
  have hvalid : ¬ (pre < 0 ∨ pre > base.length * 8) := by omega
  have hnat : pre.toNat ≤ 8 * base.length := by omega
  have hlevel : 8 * base.length - pre.toNat = level := by omega
  rw [initializeFromCIDR, dif_pos hfamily, dif_neg hvalid]
  refine ⟨_, rfl, ?_, length_networkBytes _ _, rfl⟩
  rw [block]
  dsimp only [Option.getD_some]
  rw [length_networkBytes, value_networkBytes hnat, hlevel,
    Nat.mul_div_cancel _ (Nat.two_pow_pos _)]

/-! ### One bit of an address whose last bits are clear -/

section Bit

variable {addr : Bytes} {q j : ℕ}

theorem digitAt_of_value (hvalue : value addr = q * 2 ^ j) (hlt : j < 8 * addr.length) :
    digitAt addr (8 * addr.length - 1 - j) = q % 2 := by
  have hexponent : 8 * addr.length - 1 - (8 * addr.length - 1 - j) = j := by omega
  rw [digitAt, hexponent, hvalue, Nat.mul_div_cancel _ (Nat.two_pow_pos _)]

theorem bitAt_of_value (hvalue : value addr = q * 2 ^ j) (hlt : j < 8 * addr.length) :
    (bitAt addr (8 * addr.length - 1 - j) != 0) = decide (q % 2 = 1) := by
  have hposition : 8 * addr.length - 1 - j < 8 * addr.length := by omega
  rw [← digitAt_of_value hvalue hlt]
  refine Bool.eq_iff_iff.mpr ?_
  rw [bne_iff_ne, bitAt_ne_zero_iff hposition, decide_eq_true_iff]

theorem value_clearAt_of_value (hvalue : value addr = q * 2 ^ j) (hlt : j < 8 * addr.length) :
    value (clearAt addr (8 * addr.length - 1 - j)) = q / 2 * 2 ^ (j + 1) := by
  have hposition : 8 * addr.length - 1 - j < 8 * addr.length := by omega
  have hexponent : 8 * addr.length - 1 - (8 * addr.length - 1 - j) = j := by omega
  have hcleared := value_clearAt hposition
  rw [digitAt_of_value hvalue hlt, hexponent, hvalue] at hcleared
  have hdecomposed : q / 2 * 2 + q % 2 = q := by omega
  have hsplit : q / 2 * 2 ^ (j + 1) + q % 2 * 2 ^ j = q * 2 ^ j := by
    rw [pow_succ, Nat.mul_comm (2 ^ j), ← Nat.mul_assoc, ← Nat.add_mul, hdecomposed]
  omega

theorem value_invertAt_of_even (hvalue : value addr = q * 2 ^ j) (hlt : j < 8 * addr.length)
    (heven : q % 2 = 0) : value (invertAt addr (8 * addr.length - 1 - j)) = (q + 1) * 2 ^ j := by
  have hposition : 8 * addr.length - 1 - j < 8 * addr.length := by omega
  have hexponent : 8 * addr.length - 1 - (8 * addr.length - 1 - j) = j := by omega
  have hinverted := value_invertAt hposition
  rw [digitAt_of_value hvalue hlt, heven, hexponent, hvalue] at hinverted
  rw [Nat.add_mul, Nat.one_mul]
  omega

theorem value_invertAt_of_odd (hvalue : value addr = q * 2 ^ j) (hlt : j < 8 * addr.length)
    (hodd : q % 2 = 1) : value (invertAt addr (8 * addr.length - 1 - j)) = (q - 1) * 2 ^ j := by
  have hposition : 8 * addr.length - 1 - j < 8 * addr.length := by omega
  have hexponent : 8 * addr.length - 1 - (8 * addr.length - 1 - j) = j := by omega
  have hinverted := value_invertAt hposition
  rw [digitAt_of_value hvalue hlt, hodd, hexponent, hvalue] at hinverted
  obtain ⟨previous, rfl⟩ : ∃ previous, q = previous + 1 := ⟨q - 1, by omega⟩
  rw [Nat.add_mul] at hinverted
  rw [Nat.add_sub_cancel]
  omega

end Bit

/-- The subnets that a step adds: one for the block of an odd number, none for an even one. -/
def Adds (c c' : Climbing) (length : ℕ) (blocks : List Block) : Prop :=
  ∃ added, c'.list = c.list ++ added ∧ added.map block = blocks ∧
    ∀ s ∈ added, s.mFrom.length = length ∧ s.mPrefix.isSome

theorem adds_none (c c' : Climbing) (hlist : c'.list = c.list) (length : ℕ) : Adds c c' length [] :=
  ⟨[], by rw [hlist, List.append_nil], rfl, fun _ hs ↦ by cases hs⟩

theorem adds_one {c c' : Climbing} {subnet : IPRange} {length : ℕ} {b : Block}
    (hlist : c'.list = c.list ++ [subnet]) (hblock : subnet.block = b)
    (hlength : subnet.mFrom.length = length) (hsubnet : subnet.mPrefix.isSome) :
    Adds c c' length [b] :=
  ⟨[subnet], hlist, by rw [List.map_singleton, hblock], fun s hs ↦ by
    rw [List.mem_singleton.mp hs]
    exact ⟨hlength, hsubnet⟩⟩

/-- What the first half of the body does. -/
structure SteppedFrom (c c' : Climbing) (q j : ℕ) : Prop where
  lowerLength : c'.lower.length = c.lower.length
  lower : value c'.lower = q / 2 * 2 ^ (j + 1)
  fromPrev : c'.fromPrev = (c.fromPrev || decide (q % 2 = 1))
  fromFull : c'.fromFull = (c.fromFull && (c.fromPrev || !decide (q % 2 = 1)))
  others : c'.upper = c.upper ∧ c'.toPrev = c.toPrev ∧ c'.toFull = c.toFull ∧
    c'.netmask = c.netmask
  adds : Adds c c' c.lower.length
    (if c.fromPrev then if q % 2 = 0 then [⟨j, q + 1⟩] else []
      else if q % 2 = 1 then [⟨j, q⟩] else [])

theorem stepFrom_spec {c : Climbing} {q j : ℕ} (hfamily : OfFamily c.lower)
    (hlt : j < 8 * c.lower.length) (hvalue : value c.lower = q * 2 ^ j)
    (hmask : c.netmask = 8 * c.lower.length - j) :
    ∃ c', stepFrom c (8 * c.lower.length - 1 - j) = some c' ∧ SteppedFrom c c' q j := by
  have hbit := bitAt_of_value hvalue hlt
  have hcleared := value_clearAt_of_value hvalue hlt
  rw [stepFrom]
  dsimp only
  rw [hbit]
  rcases Nat.mod_two_eq_zero_or_one q with hdigit | hdigit
  · have hclear : decide (q % 2 = 1) = false := by rw [hdigit]; rfl
    rw [hclear]
    cases hprev : c.fromPrev with
    | false =>
      exact ⟨_, rfl, length_clearAt _ _, hcleared, by simp [hprev, hclear],
        by simp [hclear], ⟨rfl, rfl, rfl, rfl⟩, by
          rw [hprev, if_neg Bool.false_ne_true, if_neg (by omega)]
          exact adds_none _ _ rfl _⟩
    | true =>
      have hinverted := value_invertAt_of_even hvalue hlt hdigit
      have hlength : (invertAt c.lower (8 * c.lower.length - 1 - j)).length = c.lower.length :=
        length_invertAt _ _
      obtain ⟨subnet, hsubnet, hblock, hsame, hsome⟩ := initializeFromCIDR_spec
        (family_of_length hfamily hlength) (hlength ▸ hlt.le) (hlength.symm ▸ hmask)
      rw [hinverted, Nat.mul_div_cancel _ (Nat.two_pow_pos _)] at hblock
      have hback := value_clearAt_of_value hinverted (hlength.symm ▸ hlt)
      have hhalf : (q + 1) / 2 = q / 2 := by omega
      rw [hlength, hhalf] at hback
      simp only [Bool.not_true, Bool.false_eq_true, if_false, Bool.not_false, Bool.and_self,
        if_true, hsubnet]
      exact ⟨_, rfl, (length_clearAt _ _).trans hlength, hback, by simp [hprev], by simp [hprev],
        ⟨rfl, rfl, rfl, rfl⟩, by
          rw [hprev, if_pos rfl, if_pos hdigit]
          exact adds_one rfl hblock (hsame.trans hlength) hsome⟩
  · have hset : decide (q % 2 = 1) = true := by rw [hdigit]; rfl
    rw [hset]
    cases hprev : c.fromPrev with
    | false =>
      obtain ⟨subnet, hsubnet, hblock, hsame, hsome⟩ :=
        initializeFromCIDR_spec hfamily hlt.le hmask
      rw [hvalue, Nat.mul_div_cancel _ (Nat.two_pow_pos _)] at hblock
      simp only [Bool.not_false, Bool.and_self, if_true, hsubnet]
      exact ⟨_, rfl, length_clearAt _ _, hcleared, by simp [hset], by simp [hprev, hset],
        ⟨rfl, rfl, rfl, rfl⟩, by
          rw [hprev, if_neg Bool.false_ne_true, if_pos hdigit]
          exact adds_one rfl hblock hsame hsome⟩
    | true =>
      exact ⟨_, rfl, length_clearAt _ _, hcleared, by simp [hset], by simp [hprev],
        ⟨rfl, rfl, rfl, rfl⟩, by
          rw [hprev, if_pos rfl, if_neg (by omega)]
          exact adds_none _ _ rfl _⟩

/-- What the second half of the body does. -/
structure SteppedTo (c c' : Climbing) (q j : ℕ) : Prop where
  upperLength : c'.upper.length = c.upper.length
  upper : value c'.upper = q / 2 * 2 ^ (j + 1)
  toPrev : c'.toPrev = (c.toPrev && decide (q % 2 = 1))
  toFull : c'.toFull = (c.toFull && (!c.toPrev || decide (q % 2 = 1)))
  others : c'.lower = c.lower ∧ c'.fromPrev = c.fromPrev ∧ c'.fromFull = c.fromFull ∧
    c'.netmask = c.netmask
  adds : Adds c c' c.upper.length
    (if c.toPrev then if q % 2 = 0 then [⟨j, q⟩] else []
      else if q % 2 = 1 then [⟨j, q - 1⟩] else [])

theorem stepTo_spec {c : Climbing} {q j : ℕ} (hfamily : OfFamily c.upper)
    (hlt : j < 8 * c.upper.length) (hvalue : value c.upper = q * 2 ^ j)
    (hmask : c.netmask = 8 * c.upper.length - j) :
    ∃ c', stepTo c (8 * c.upper.length - 1 - j) = some c' ∧ SteppedTo c c' q j := by
  have hbit := bitAt_of_value hvalue hlt
  have hcleared := value_clearAt_of_value hvalue hlt
  rw [stepTo]
  dsimp only
  rw [hbit]
  rcases Nat.mod_two_eq_zero_or_one q with hdigit | hdigit
  · have hclear : decide (q % 2 = 1) = false := by rw [hdigit]; rfl
    rw [hclear]
    cases hprev : c.toPrev with
    | false =>
      exact ⟨_, rfl, length_clearAt _ _, hcleared, by simp [hclear], by simp [hprev],
        ⟨rfl, rfl, rfl, rfl⟩, by
          rw [hprev, if_neg Bool.false_ne_true, if_neg (by omega)]
          exact adds_none _ _ rfl _⟩
    | true =>
      obtain ⟨subnet, hsubnet, hblock, hsame, hsome⟩ :=
        initializeFromCIDR_spec hfamily hlt.le hmask
      rw [hvalue, Nat.mul_div_cancel _ (Nat.two_pow_pos _)] at hblock
      simp only [Bool.not_false, Bool.and_self, if_true, hsubnet]
      exact ⟨_, rfl, length_clearAt _ _, hcleared, by simp [hclear], by simp [hprev, hclear],
        ⟨rfl, rfl, rfl, rfl⟩, by
          rw [hprev, if_pos rfl, if_pos hdigit]
          exact adds_one rfl hblock hsame hsome⟩
  · have hset : decide (q % 2 = 1) = true := by rw [hdigit]; rfl
    rw [hset]
    cases hprev : c.toPrev with
    | false =>
      have hinverted := value_invertAt_of_odd hvalue hlt hdigit
      have hlength : (invertAt c.upper (8 * c.upper.length - 1 - j)).length = c.upper.length :=
        length_invertAt _ _
      obtain ⟨subnet, hsubnet, hblock, hsame, hsome⟩ := initializeFromCIDR_spec
        (family_of_length hfamily hlength) (hlength ▸ hlt.le) (hlength.symm ▸ hmask)
      rw [hinverted, Nat.mul_div_cancel _ (Nat.two_pow_pos _)] at hblock
      have hback := value_clearAt_of_value hinverted (hlength.symm ▸ hlt)
      have hhalf : (q - 1) / 2 = q / 2 := by omega
      rw [hlength, hhalf] at hback
      simp only [Bool.not_true, Bool.false_eq_true, if_false, Bool.not_false, Bool.and_self,
        if_true, hsubnet]
      exact ⟨_, rfl, (length_clearAt _ _).trans hlength, hback, by simp [hprev], by simp [hprev],
        ⟨rfl, rfl, rfl, rfl⟩, by
          rw [hprev, if_neg Bool.false_ne_true, if_pos hdigit]
          exact adds_one rfl hblock (hsame.trans hlength) hsome⟩
    | true =>
      exact ⟨_, rfl, length_clearAt _ _, hcleared, by simp [hprev, hset], by simp [hset],
        ⟨rfl, rfl, rfl, rfl⟩, by
          rw [hprev, if_pos rfl, if_neg (by omega)]
          exact adds_none _ _ rfl _⟩

/-! ### The invariant of the loop -/

/-- What the variables are after a number of bits. -/
structure Climbed (r : IPRange) (count : ℕ) (c : Climbing) : Prop where
  lowerLength : c.lower.length = r.mFrom.length
  upperLength : c.upper.length = r.mFrom.length
  lower : value c.lower = value r.mFrom / 2 ^ count * 2 ^ count
  upper : value c.upper = value r.mTo / 2 ^ count * 2 ^ count
  fromPrev : c.fromPrev = decide (value r.mFrom % 2 ^ count ≠ 0)
  toPrev : c.toPrev = decide ((value r.mTo + 1) % 2 ^ count = 0)
  fromFull : c.fromFull = decide (value r.mFrom % 2 ^ count = 0)
  toFull : c.toFull = decide ((value r.mTo + 1) % 2 ^ count = 0)
  netmask : c.netmask = 8 * r.mFrom.length - count
  subnets : ∀ s ∈ c.list, s.mFrom.length = r.mFrom.length ∧ s.mPrefix.isSome
  blocks : (c.list.map block).Perm (ascend (value r.mFrom) count ++ descend (value r.mTo + 1) count)

theorem climbed_zero (r : IPRange) : Climbed r 0 r.startClimb where
  lowerLength := rfl
  upperLength := r.fits.length_eq.symm
  lower := by simp [startClimb]
  upper := by simp [startClimb]
  fromPrev := by simp [startClimb, Nat.mod_one]
  toPrev := by simp [startClimb, Nat.mod_one]
  fromFull := by simp [startClimb, Nat.mod_one]
  toFull := by simp [startClimb, Nat.mod_one]
  netmask := by simp [startClimb]; omega
  subnets := fun s hs ↦ by cases hs
  blocks := .nil

/-- The quotient of the end of a range, from the one of its last number. -/
theorem succ_div (n j : ℕ) :
    (n + 1) / 2 ^ j = if (n + 1) % 2 ^ j = 0 then n / 2 ^ j + 1 else n / 2 ^ j := by
  have hquotient := pred_div_add_one (Nat.succ_pos n) j
  rw [up_eq, Nat.succ_sub_one, Nat.succ_eq_add_one] at hquotient
  split at hquotient
  · rename_i hfull
    rw [if_pos hfull, hquotient]
  · rename_i hpart
    rw [if_neg hpart]
    exact (Nat.add_right_cancel hquotient).symm

theorem ascendStep_eq (n j : ℕ) :
    ascendStep n j = if decide (n % 2 ^ j ≠ 0) then
        if n / 2 ^ j % 2 = 0 then [⟨j, n / 2 ^ j + 1⟩] else []
      else if n / 2 ^ j % 2 = 1 then [⟨j, n / 2 ^ j⟩] else [] := by
  rw [ascendStep, up_eq]
  by_cases hzero : n % 2 ^ j = 0
  · simp [hzero]
  · have hparity : (n / 2 ^ j + 1) % 2 = 1 ↔ n / 2 ^ j % 2 = 0 := by omega
    simp [hzero, hparity]

theorem descendStep_eq (n j : ℕ) :
    descendStep (n + 1) j = if decide ((n + 1) % 2 ^ j = 0) then
        if n / 2 ^ j % 2 = 0 then [⟨j, n / 2 ^ j⟩] else []
      else if n / 2 ^ j % 2 = 1 then [⟨j, n / 2 ^ j - 1⟩] else [] := by
  rw [descendStep, succ_div]
  by_cases hfull : (n + 1) % 2 ^ j = 0
  · have hparity : (n / 2 ^ j + 1) % 2 = 1 ↔ n / 2 ^ j % 2 = 0 := by omega
    simp [hfull, hparity]
  · simp [hfull]

theorem mod_pow_succ_eq_zero_iff (n j : ℕ) :
    n % 2 ^ (j + 1) = 0 ↔ n % 2 ^ j = 0 ∧ n / 2 ^ j % 2 = 0 := by
  rw [Nat.mod_pow_succ]
  simp

/-- What one bit does. -/
theorem climbed_succ {count : ℕ} {c : Climbing} (hclimbed : Climbed r count c)
    (hlt : count < 8 * r.mFrom.length) :
    ∃ c', climbStep c (8 * r.mFrom.length - 1 - count) = some c' ∧ Climbed r (count + 1) c' := by
  have hlower := hclimbed.lowerLength
  have hupper := hclimbed.upperLength
  have hmask := hclimbed.netmask
  obtain ⟨c₁, hfirst, hfrom⟩ := stepFrom_spec (family_of_length r.fits.family hlower)
    (hlower.symm ▸ hlt) hclimbed.lower (hlower.symm ▸ hmask)
  obtain ⟨huppers, htoPrev, htoFull, hnetmask⟩ := hfrom.others
  obtain ⟨c₂, hsecond, hto⟩ := stepTo_spec (c := c₁)
    (family_of_length r.fits.family (huppers ▸ hupper)) (by rw [huppers, hupper]; exact hlt)
    (huppers ▸ hclimbed.upper) (by rw [hnetmask, huppers, hupper]; exact hmask)
  obtain ⟨hlowers, hfromPrev, hfromFull, hnetmask'⟩ := hto.others
  rw [hlower] at hfirst
  rw [huppers, hupper] at hsecond
  obtain ⟨added, hlist, hblocks, hsubnets⟩ := hfrom.adds
  obtain ⟨added', hlist', hblocks', hsubnets'⟩ := hto.adds
  have hzero := mod_pow_succ_eq_zero_iff (value r.mFrom) count
  have hfull := mod_pow_succ_eq_zero_iff (value r.mTo + 1) count
  have hnext := succ_div (value r.mTo) count
  refine ⟨{ c₂ with netmask := c₂.netmask - 1 }, ?_, ?_⟩
  · rw [climbStep, hfirst]
    change (stepTo c₁ _).bind _ = _
    rw [hsecond]
    rfl
  · constructor
    case lowerLength => rw [hlowers, hfrom.lowerLength, hlower]
    case upperLength => rw [hto.upperLength, huppers, hupper]
    case lower =>
      rw [hlowers, hfrom.lower, Nat.div_div_eq_div_mul, ← pow_succ]
    case upper =>
      rw [hto.upper, Nat.div_div_eq_div_mul, ← pow_succ]
    case fromPrev =>
      change c₂.fromPrev = _
      rw [hfromPrev, hfrom.fromPrev, hclimbed.fromPrev, Bool.eq_iff_iff]
      simp only [Bool.or_eq_true, decide_eq_true_iff, ne_eq, hzero]
      omega
    case toPrev =>
      change c₂.toPrev = _
      rw [hto.toPrev, htoPrev, hclimbed.toPrev, Bool.eq_iff_iff]
      simp only [Bool.and_eq_true, decide_eq_true_iff, hfull, hnext]
      split <;> omega
    case fromFull =>
      change c₂.fromFull = _
      rw [hfromFull, hfrom.fromFull, hclimbed.fromFull, hclimbed.fromPrev, Bool.eq_iff_iff]
      simp only [Bool.and_eq_true, Bool.or_eq_true, Bool.not_eq_true', decide_eq_true_iff,
        decide_eq_false_iff_not, ne_eq, hzero]
      omega
    case toFull =>
      change c₂.toFull = _
      rw [hto.toFull, htoFull, htoPrev, hclimbed.toFull, hclimbed.toPrev, Bool.eq_iff_iff]
      simp only [Bool.and_eq_true, Bool.or_eq_true, Bool.not_eq_true', decide_eq_true_iff,
        decide_eq_false_iff_not, hfull, hnext]
      split <;> omega
    case netmask =>
      change c₂.netmask - 1 = _
      rw [hnetmask', hnetmask, hmask]
      push_cast
      omega
    case subnets =>
      change ∀ s ∈ c₂.list, _
      rw [hlist', hlist]
      intro s hs
      rcases List.mem_append.mp hs with hs | hs
      · rcases List.mem_append.mp hs with hs | hs
        · exact hclimbed.subnets s hs
        · exact hlower ▸ hsubnets s hs
      · exact hupper ▸ huppers ▸ hsubnets' s hs
    case blocks =>
      change (c₂.list.map block).Perm _
      rw [hlist', hlist, List.map_append, List.map_append, hblocks, hblocks', hclimbed.fromPrev,
        htoPrev, hclimbed.toPrev, ← ascendStep_eq, ← descendStep_eq, ascend, descend]
      refine (List.Perm.append_right _ (List.Perm.append_right _ hclimbed.blocks)).trans ?_
      rw [List.perm_iff_count]
      intro b
      simp only [List.count_append]
      omega

/-- The loop does not throw, and keeps its invariant. -/
theorem climb_spec (r : IPRange) {count : ℕ} (hle : count ≤ 8 * r.mFrom.length) :
    ∃ c, r.climb count = some c ∧ Climbed r count c := by
  induction count with
  | zero => exact ⟨_, rfl, climbed_zero r⟩
  | succ count ih =>
    obtain ⟨c, hclimb, hclimbed⟩ := ih (by omega)
    obtain ⟨c', hstep, hclimbed'⟩ := climbed_succ hclimbed (by omega)
    refine ⟨c', ?_, hclimbed'⟩
    rw [climb, hclimb]
    exact hstep

/-! ### The subnets -/

/-- A range that is no subnet straddles the middle of the block that its addresses have in
common. -/
theorem straddles (hnone : r.mPrefix = none) :
    commonPrefix r.mFrom r.mTo < 8 * r.mFrom.length ∧
      Straddles (value r.mFrom) (value r.mTo + 1) (restBits r.mFrom r.mTo) := by
  have hdetermined := r.prefix_eq
  rw [hnone, determinePrefix_eq r.fits.length_eq] at hdetermined
  have hpart : ¬ (value r.mFrom % 2 ^ restBits r.mFrom r.mTo = 0 ∧
      (value r.mTo + 1) % 2 ^ restBits r.mFrom r.mTo = 0) := fun hfull ↦ by
    rw [if_pos hfull] at hdetermined
    cases hdetermined
  have hlt : commonPrefix r.mFrom r.mTo < 8 * r.mFrom.length := by
    refine lt_of_le_of_ne (commonPrefix_le _ _) fun heq ↦ hpart ?_
    have hrest : restBits r.mFrom r.mTo = 0 := by rw [restBits, heq]; omega
    rw [hrest]
    simp [Nat.mod_one]
  obtain ⟨heven, hnext⟩ := div_restBits r.fits.length_eq r.value_le hlt
  exact ⟨hlt, heven, hnext, hpart⟩

/-- After the loop and the roots the recorded subnets are the blocks that the range is cut into. -/
theorem roots_spec (hnone : r.mPrefix = none) :
    ∃ c list, r.climb (restBits r.mFrom r.mTo) = some c ∧
      roots c (commonPrefix r.mFrom r.mTo) = some list ∧
      (∀ s ∈ list, s.mFrom.length = r.mFrom.length ∧ s.mPrefix.isSome) ∧
      (list.map block).Perm
        (cut (value r.mFrom) (value r.mTo + 1) (restBits r.mFrom r.mTo)) := by
  obtain ⟨hlt, hstraddles⟩ := straddles hnone
  have hcount : restBits r.mFrom r.mTo ≤ 8 * r.mFrom.length := by rw [restBits]; omega
  obtain ⟨c, hclimb, hclimbed⟩ := climb_spec r hcount
  have hmask : (commonPrefix r.mFrom r.mTo : ℤ) + 1 =
      8 * r.mFrom.length - restBits r.mFrom r.mTo := by rw [restBits]; omega
  have hlower := hclimbed.lowerLength
  have hupper := hclimbed.upperLength
  rw [cut, leftHalf, rightHalf]
  by_cases hleft : value r.mFrom % 2 ^ restBits r.mFrom r.mTo = 0
  · have hright : (value r.mTo + 1) % 2 ^ restBits r.mFrom r.mTo ≠ 0 := fun h ↦
      hstraddles.notFull ⟨hleft, h⟩
    obtain ⟨s, hsubnet, hblock, hlength, hsome⟩ := initializeFromCIDR_spec
      (family_of_length r.fits.family hlower) (hlower.symm ▸ hcount) (hlower.symm ▸ hmask)
    rw [hclimbed.lower, Nat.mul_div_cancel _ (Nat.two_pow_pos _)] at hblock
    refine ⟨c, c.list ++ [s], hclimb, ?_, fun t ht ↦ ?_, ?_⟩
    · rw [roots, hclimbed.fromFull, hclimbed.toFull]
      simp [hleft, hright, hsubnet]
    · rcases List.mem_append.mp ht with ht | ht
      · exact hclimbed.subnets t ht
      · rw [List.mem_singleton.mp ht]
        exact ⟨hlength.trans hlower, hsome⟩
    · rw [if_pos hleft, if_neg hright, List.map_append, List.map_singleton, hblock, List.nil_append,
        List.append_assoc]
      refine (List.Perm.append_right _ hclimbed.blocks).trans ?_
      rw [List.append_assoc]
      exact List.Perm.append_left _ List.perm_append_comm
  · by_cases hright : (value r.mTo + 1) % 2 ^ restBits r.mFrom r.mTo = 0
    · have hlast : (value r.mTo + 1) / 2 ^ restBits r.mFrom r.mTo - 1 =
          value r.mTo / 2 ^ restBits r.mFrom r.mTo := by
        rw [succ_div, if_pos hright, Nat.add_sub_cancel]
      obtain ⟨s, hsubnet, hblock, hlength, hsome⟩ := initializeFromCIDR_spec
        (family_of_length r.fits.family hupper) (hupper.symm ▸ hcount) (hupper.symm ▸ hmask)
      rw [hclimbed.upper, Nat.mul_div_cancel _ (Nat.two_pow_pos _)] at hblock
      refine ⟨c, c.list ++ [s], hclimb, ?_, fun t ht ↦ ?_, ?_⟩
      · rw [roots, hclimbed.fromFull, hclimbed.toFull]
        simp [hleft, hright, hsubnet]
      · rcases List.mem_append.mp ht with ht | ht
        · exact hclimbed.subnets t ht
        · rw [List.mem_singleton.mp ht]
          exact ⟨hlength.trans hupper, hsome⟩
      · rw [if_neg hleft, if_pos hright, List.map_append, List.map_singleton, hblock, hlast,
          List.append_nil]
        refine (List.Perm.append_right _ hclimbed.blocks).trans ?_
        rw [List.append_assoc]
        exact List.Perm.append_left _ List.perm_append_comm
    · refine ⟨c, c.list, hclimb, ?_, hclimbed.subnets, ?_⟩
      · rw [roots, hclimbed.fromFull, hclimbed.toFull]
        simp [hleft, hright]
      · rw [if_neg hleft, if_neg hright, List.append_nil, List.nil_append]
        exact hclimbed.blocks

/-! ### In order -/

theorem pairwise_sort (list : List IPRange) :
    (sort list).Pairwise fun r s ↦ (r.compareTo s).isLE = true := by
  refine List.pairwise_mergeSort (fun r s t hrs hst ↦ ?_) (fun r s ↦ ?_) list
  · rw [compareTo_isLE_iff] at *
    omega
  · rw [Bool.or_eq_true, compareTo_isLE_iff, compareTo_isLE_iff]
    omega

/-- Ranges without a common address are in order once they are sorted. -/
theorem pairwise_sort_lt {list : List IPRange}
    (hdisjoint : list.Pairwise fun r s ↦
      place r.mTo < place s.mFrom ∨ place s.mTo < place r.mFrom) :
    (sort list).Pairwise fun r s ↦ place r.mTo < place s.mFrom := by
  have hsorted : (sort list).Pairwise fun r s ↦
      place r.mTo < place s.mFrom ∨ place s.mTo < place r.mFrom :=
    ((List.mergeSort_perm list _).pairwise_iff fun {_ _} h ↦ h.symm).mpr hdisjoint
  refine (hsorted.and (pairwise_sort list)).imp fun {r s} h ↦ ?_
  have hle := compareTo_isLE_iff.mp h.2
  have hr := r.place_le
  have hs := s.place_le
  omega

/-! ### The result -/

/-- The places of a subnet, from the numbers of its block. -/
theorem mem_interval_iff_block (hsubnet : s.mPrefix.isSome) {x : ℕ} :
    x ∈ s.interval ↔
      offset s.mFrom.length ≤ x ∧ x - offset s.mFrom.length ∈ s.block := by
  rw [mem_interval, mem_block_iff hsubnet, place, place, s.fits.length_eq]
  omega

/-- What subnets of one family cover, from the numbers of their blocks. -/
theorem exists_mem_interval_iff {list : List IPRange} {length x : ℕ}
    (hsubnets : ∀ s ∈ list, s.mFrom.length = length ∧ s.mPrefix.isSome) :
    (∃ s ∈ list, x ∈ s.interval) ↔
      offset length ≤ x ∧ x - offset length ∈ covered (list.map block) := by
  simp only [mem_covered, List.mem_map, exists_exists_and_eq_and]
  constructor
  · rintro ⟨s, hs, hx⟩
    have hblock := (mem_interval_iff_block (hsubnets s hs).2).mp hx
    rw [(hsubnets s hs).1] at hblock
    exact ⟨hblock.1, s, hs, hblock.2⟩
  · rintro ⟨hle, s, hs, hx⟩
    refine ⟨s, hs, (mem_interval_iff_block (hsubnets s hs).2).mpr ?_⟩
    rw [(hsubnets s hs).1]
    exact ⟨hle, hx⟩

theorem mem_interval_iff_Ico {x : ℕ} : x ∈ r.interval ↔ offset r.mFrom.length ≤ x ∧
    x - offset r.mFrom.length ∈ Set.Ico (value r.mFrom) (value r.mTo + 1) := by
  rw [mem_interval, place, place, r.fits.length_eq, Set.mem_Ico]
  omega

/-- Subnets of one family whose blocks lie one after the other in some order have no common
address. -/
theorem disjoint_of_blocks {list : List IPRange} {length : ℕ} {blocks : List Block}
    (hsubnets : ∀ s ∈ list, s.mFrom.length = length ∧ s.mPrefix.isSome)
    (hblocks : (list.map block).Perm blocks) (hbefore : blocks.Pairwise Before) :
    list.Pairwise fun s t ↦ place s.mTo < place t.mFrom ∨ place t.mTo < place s.mFrom := by
  have heither : (list.map block).Pairwise fun b c ↦ Before b c ∨ Before c b :=
    (hblocks.pairwise_iff fun {_ _} h ↦ h.symm).mpr (hbefore.imp fun h ↦ .inl h)
  refine (List.pairwise_map.mp heither).imp_of_mem fun {s t} hs ht h ↦ ?_
  obtain ⟨hslength, hssome⟩ := hsubnets s hs
  obtain ⟨htlength, htsome⟩ := hsubnets t ht
  have hends : ∀ {u : IPRange}, u.mPrefix.isSome →
      value u.mFrom ∈ u.block ∧ value u.mTo ∈ u.block := fun {u} hsome ↦
    ⟨(mem_block_iff hsome).mpr ⟨le_rfl, u.value_le⟩, (mem_block_iff hsome).mpr ⟨u.value_le, le_rfl⟩⟩
  have hsto := s.fits.length_eq
  have htto := t.fits.length_eq
  rw [place, place, place, place, ← hsto, ← htto, hslength, htlength]
  rcases h with h | h
  · have hlt := h _ (hends hssome).2 _ (hends htsome).1
    omega
  · have hlt := h _ (hends htsome).2 _ (hends hssome).1
    omega

/-- A range is split into subnets: they cover it, come in ascending order without a common address,
and none of them can be doubled in it. -/
structure SplitsInto (r : IPRange) (list : List IPRange) : Prop where
  subnets : ∀ s ∈ list, s.mFrom.length = r.mFrom.length ∧ s.mPrefix.isSome
  covers : ∀ x, (∃ s ∈ list, x ∈ s.interval) ↔ x ∈ r.interval
  ordered : list.Pairwise fun s t ↦ place s.mTo < place t.mFrom
  maximal : ∀ s ∈ list, s.block.Maximal (Set.Ico (value r.mFrom) (value r.mTo + 1))

theorem splitsInto_singleton (hsubnet : r.mPrefix.isSome) : SplitsInto r [r] where
  subnets := fun s hs ↦ by
    rw [List.mem_singleton.mp hs]
    exact ⟨rfl, hsubnet⟩
  covers := fun x ↦ by simp
  ordered := List.pairwise_singleton _ _
  maximal := fun s hs ↦ by
    rw [List.mem_singleton.mp hs]
    refine Block.maximal_of_mem_iff fun x ↦ ?_
    rw [mem_block_iff hsubnet, Set.mem_Ico, Nat.lt_succ_iff]

/-- `toSubnets` does not throw, and splits the range. -/
theorem toSubnets_splits (r : IPRange) : ∃ list, r.toSubnets = some list ∧ SplitsInto r list := by
  cases hdetermined : r.mPrefix with
  | some pre =>
    have hsort : sort [r] = [r] := List.mergeSort_singleton r
    refine ⟨[r], ?_, splitsInto_singleton (hdetermined ▸ rfl)⟩
    rw [toSubnets, hdetermined]
    dsimp only
    rw [hsort]
  | none =>
    obtain ⟨hlt, hstraddles⟩ := straddles hdetermined
    obtain ⟨c, list, hclimb, hroots, hsubnets, hblocks⟩ := roots_spec hdetermined
    have hcount : 8 * r.mFrom.length - (commonPrefix r.mFrom r.mTo + 1) =
        restBits r.mFrom r.mTo := by rw [restBits]; omega
    have hperm : (sort list).Perm list := List.mergeSort_perm list _
    refine ⟨sort list, ?_, fun s hs ↦ hsubnets s (hperm.mem_iff.mp hs), fun x ↦ ?_,
      pairwise_sort_lt (disjoint_of_blocks hsubnets hblocks (pairwise_cut hstraddles)),
      fun s hs ↦ ?_⟩
    · rw [toSubnets, hdetermined]
      dsimp only
      rw [hcount, hclimb]
      change (roots c _).bind _ = _
      rw [hroots]
      rfl
    · have hmem : (∃ s ∈ sort list, x ∈ s.interval) ↔ ∃ s ∈ list, x ∈ s.interval := by
        simp only [hperm.mem_iff]
      rw [hmem, exists_mem_interval_iff hsubnets, mem_interval_iff_Ico, ← mem_cut hstraddles]
      simp only [mem_covered, hblocks.mem_iff]
    · exact maximal_of_mem_cut hstraddles
        (hblocks.mem_iff.mp (List.mem_map_of_mem (hperm.mem_iff.mp hs)))

/-- A subnet of the range that meets one of those it is split into is a part of it. -/
theorem SplitsInto.absorbs {list : List IPRange} (hsplits : SplitsInto r list) (hmem : s ∈ list)
    (hsubnet : t.mPrefix.isSome) (hle : t.interval ≤ r.interval) {x y : ℕ} (hxt : x ∈ t.interval)
    (hxs : x ∈ s.interval) (hyt : y ∈ t.interval) : y ∈ s.interval := by
  obtain ⟨hslength, hssome⟩ := hsplits.subnets s hmem
  have hin : ∀ {z}, z ∈ t.interval → z ∈ r.interval := fun hz ↦
    NonemptyInterval.coe_subset_coe.mpr hle hz
  have htlength : t.mFrom.length = r.mFrom.length := by
    have ht := t.place_le
    have hfirst : place t.mFrom ∈ r.interval := hin (mem_interval.mpr ⟨le_rfl, ht⟩)
    obtain ⟨hlow, hhigh⟩ := mem_interval.mp hfirst
    exact (length_eq_of_near (r := r) (s := t) (by omega) (by omega)).symm
  have hwithin : t.block.Within (Set.Ico (value r.mFrom) (value r.mTo + 1)) := fun z hz ↦ by
    have hplace := (mem_interval_iff_block (x := offset t.mFrom.length + z) hsubnet).mpr
      ⟨Nat.le_add_right _ _, by rwa [Nat.add_sub_cancel_left]⟩
    have hz' := (mem_interval_iff_Ico.mp (hin hplace)).2
    rwa [htlength, Nat.add_sub_cancel_left] at hz'
  rw [mem_interval_iff_block hsubnet, htlength] at hxt hyt
  rw [mem_interval_iff_block hssome, hslength] at hxs ⊢
  exact ⟨hyt.1, (hsplits.maximal s hmem).mem_of_mem hwithin hxs.2 hxt.2 hyt.2⟩

end WindscribeVpn.Ikev2.IPRange
