import WindscribeVpn.Foundations.DyadicBlocks

/-!
# The routes of an OpenVPN tunnel

`NetworkSpace` keeps included and excluded networks. `generateIPList` goes through them in the order
of their first addresses: it forgets a network inside another one of its kind, and splits an
included network around an excluded one in it, until no two networks overlap. `PriorityQueue` has
what is documented of the queue that it takes them from, which does not say in what order equal
networks come.

The networks that are left over are determined by the networks alone, whatever that order is
(`generateIPList_spec`): the included ones among them are the largest blocks that lie in an included
network and meet no excluded one. Two things are asked of the networks for it (`Carved`). No
included network lies inside an excluded one. And no excluded network that is the upper half of a
block has another excluded network that starts after the block and not after itself, since the
loop then puts the upper half back into the queue as an included network, beside the excluded one.
-/

set_option autoImplicit false
set_option relaxedAutoImplicit false

namespace WindscribeVpn.Openvpn

open Foundations.DyadicBlocks

/-! ### Networks -/

/-- `BigInteger.setBit`. -/
def setBit (number bit : ℕ) : ℕ := if number.testBit bit then number else number + 2 ^ bit

/-- `BigInteger.clearBit`. -/
def clearBit (number bit : ℕ) : ℕ := if number.testBit bit then number - 2 ^ bit else number

/-- `IpAddress`, without the two addresses that it remembers once they are computed. -/
structure IpAddress where
  netAddress : ℕ
  networkMask : ℕ
  included : Bool
  isV4 : Bool
  deriving DecidableEq, Repr

namespace IpAddress

/-- The bits of an address after the prefix. -/
def numBits (n : IpAddress) : ℕ := (if n.isV4 then 32 else 128) - n.networkMask

/-- `getMaskedAddress`. -/
def getMaskedAddress (n : IpAddress) (one : Bool) : ℕ :=
  (List.range n.numBits).foldl
    (fun numAddress i ↦ if one then setBit numAddress i else clearBit numAddress i) n.netAddress

/-- `getLastAddress`. -/
def getLastAddress (n : IpAddress) : ℕ := n.getMaskedAddress true

/-- `getFirstAddress`. -/
def getFirstAddress (n : IpAddress) : ℕ := n.getMaskedAddress false

/-- `compareTo`. -/
def compareTo (n another : IpAddress) : Ordering :=
  match compare n.getFirstAddress another.getFirstAddress with
  | .eq => compare another.networkMask n.networkMask
  | comp => comp

/-- `equals`, which leaves out whether the networks are included. -/
def equals (n on : IpAddress) : Bool :=
  n.networkMask == on.networkMask && on.getFirstAddress == n.getFirstAddress

/-- The first network of `split`. -/
def firstHalf (n : IpAddress) : IpAddress :=
  ⟨n.getFirstAddress, n.networkMask + 1, n.included, n.isV4⟩

/-- The second network of `split`. -/
def secondHalf (n : IpAddress) : IpAddress :=
  ⟨n.firstHalf.getLastAddress + 1, n.networkMask + 1, n.included, n.isV4⟩

/-- `containsNet`. -/
def containsNet (n network : IpAddress) : Bool :=
  decide (n.getFirstAddress ≤ network.getFirstAddress) &&
    decide (network.getLastAddress ≤ n.getLastAddress)

/-- The block of addresses of a network. -/
def block (n : IpAddress) : Block := ⟨n.numBits, n.netAddress / 2 ^ n.numBits⟩

variable {n m : IpAddress} {x : ℕ}

theorem clearBit_mul (q k : ℕ) : clearBit (q * 2 ^ k) k = q / 2 * 2 ^ (k + 1) := by
  have hbit : (q * 2 ^ k).testBit k = decide (q % 2 = 1) := by
    rw [Nat.testBit_eq_decide_div_mod_eq, Nat.mul_div_cancel _ (Nat.two_pow_pos k)]
  rw [clearBit, hbit, pow_succ]
  rcases Nat.mod_two_eq_zero_or_one q with heven | hodd
  · rw [if_neg (by simp [heven])]
    conv_lhs => rw [← Nat.div_add_mod q 2, heven]
    ring
  · rw [if_pos (by simp [hodd])]
    conv_lhs => rw [← Nat.div_add_mod q 2, hodd]
    rw [Nat.add_mul, Nat.one_mul, Nat.add_sub_cancel]
    ring

theorem setBit_mul (q k : ℕ) :
    setBit (q * 2 ^ k + (2 ^ k - 1)) k = q / 2 * 2 ^ (k + 1) + (2 ^ (k + 1) - 1) := by
  have hpos : 0 < 2 ^ k := Nat.two_pow_pos k
  have hquotient : (q * 2 ^ k + (2 ^ k - 1)) / 2 ^ k = q := by
    rw [Nat.add_comm, Nat.add_mul_div_right _ _ hpos, Nat.div_eq_of_lt (by omega), Nat.zero_add]
  have hbit : (q * 2 ^ k + (2 ^ k - 1)).testBit k = decide (q % 2 = 1) := by
    rw [Nat.testBit_eq_decide_div_mod_eq, hquotient]
  have hdouble : q / 2 * (2 ^ k * 2) = q / 2 * 2 * 2 ^ k := by ring
  rw [setBit, hbit, pow_succ, hdouble]
  rcases Nat.mod_two_eq_zero_or_one q with heven | hodd
  · have hhalf : q / 2 * 2 = q := by omega
    rw [if_neg (by simp [heven]), hhalf]
    omega
  · have hhalf : q = q / 2 * 2 + 1 := by omega
    rw [if_pos (by simp [hodd])]
    conv_lhs => rw [hhalf, Nat.add_mul, Nat.one_mul]
    omega

theorem getFirstAddress_eq (n : IpAddress) :
    n.getFirstAddress = n.block.index * 2 ^ n.block.level := by
  have hloop : ∀ k, (List.range k).foldl (fun numAddress i ↦ clearBit numAddress i) n.netAddress =
      n.netAddress / 2 ^ k * 2 ^ k := by
    intro k
    induction k with
    | zero => simp
    | succ k ih =>
      rw [List.range_succ, List.foldl_append, ih, List.foldl_cons, List.foldl_nil, clearBit_mul,
        Nat.div_div_eq_div_mul, pow_succ]
  exact hloop n.numBits

theorem getLastAddress_eq (n : IpAddress) :
    n.getLastAddress = n.block.index * 2 ^ n.block.level + (2 ^ n.block.level - 1) := by
  have hloop : ∀ k, (List.range k).foldl (fun numAddress i ↦ setBit numAddress i) n.netAddress =
      n.netAddress / 2 ^ k * 2 ^ k + (2 ^ k - 1) := by
    intro k
    induction k with
    | zero => simp
    | succ k ih =>
      rw [List.range_succ, List.foldl_append, ih, List.foldl_cons, List.foldl_nil, setBit_mul,
        Nat.div_div_eq_div_mul, ← pow_succ]
  exact hloop n.numBits

theorem mem_block_iff : x ∈ n.block ↔ n.getFirstAddress ≤ x ∧ x ≤ n.getLastAddress := by
  have hpos : 0 < 2 ^ n.block.level := Nat.two_pow_pos _
  rw [Block.mem_iff, getFirstAddress_eq, getLastAddress_eq, Nat.add_mul, Nat.one_mul]
  omega

theorem first_mem_block (n : IpAddress) : n.getFirstAddress ∈ n.block := by
  rw [getFirstAddress_eq]
  exact n.block.first_mem

theorem first_le_last (n : IpAddress) : n.getFirstAddress ≤ n.getLastAddress :=
  (mem_block_iff.mp n.first_mem_block).2

theorem last_mem_block (n : IpAddress) : n.getLastAddress ∈ n.block :=
  mem_block_iff.mpr ⟨n.first_le_last, le_rfl⟩

theorem containsNet_iff : n.containsNet m = true ↔ m.block ≤ n.block := by
  rw [containsNet, Bool.and_eq_true, decide_eq_true_iff, decide_eq_true_iff, Block.le_def]
  constructor
  · rintro ⟨hfirst, hlast⟩ x hx
    obtain ⟨hlow, hhigh⟩ := mem_block_iff.mp hx
    exact mem_block_iff.mpr ⟨hfirst.trans hlow, hhigh.trans hlast⟩
  · exact fun hle ↦ ⟨(mem_block_iff.mp (hle _ m.first_mem_block)).1,
      (mem_block_iff.mp (hle _ m.last_mem_block)).2⟩

theorem first_le_of_block_le (hle : m.block ≤ n.block) :
    n.getFirstAddress ≤ m.getFirstAddress :=
  (mem_block_iff.mp (hle _ m.first_mem_block)).1

theorem block_le_of_first_eq (hfirst : n.getFirstAddress = m.getFirstAddress)
    (hlevel : n.block.level ≤ m.block.level) : n.block ≤ m.block :=
  Block.le_of_level_le hlevel n.first_mem_block (hfirst ▸ m.first_mem_block)

/-- A network of the family of a network space, with a prefix that an address has. -/
structure Fits (isV4 : Bool) (n : IpAddress) : Prop where
  family : n.isV4 = isV4
  mask : n.networkMask ≤ if isV4 then 32 else 128

variable {isV4 : Bool}

/-- Networks of one family with the same block have the same prefix and the same first address. -/
theorem equals_iff (hn : n.Fits isV4) (hm : m.Fits isV4) :
    n.equals m = true ↔ n.block = m.block := by
  rw [equals, Bool.and_eq_true, beq_iff_eq, beq_iff_eq]
  constructor
  · rintro ⟨hmask, hfirst⟩
    have hlevel : n.block.level = m.block.level := by
      change n.numBits = m.numBits
      rw [numBits, numBits, hn.family, hm.family, hmask]
    have hmem : n.getFirstAddress ∈ m.block := hfirst ▸ m.first_mem_block
    exact le_antisymm (Block.le_of_level_le hlevel.le n.first_mem_block hmem)
      (Block.le_of_level_le hlevel.ge hmem n.first_mem_block)
  · intro heq
    have hlevel : n.numBits = m.numBits := congrArg Block.level heq
    rw [numBits, numBits, hn.family, hm.family] at hlevel
    have hnmask := hn.mask
    have hmmask := hm.mask
    refine ⟨by omega, ?_⟩
    rw [getFirstAddress_eq, getFirstAddress_eq, heq]

/-- A network comes before another one when it starts earlier, or with it and is not larger. -/
theorem compareTo_ne_gt_iff (hn : n.Fits isV4) (hm : m.Fits isV4) :
    n.compareTo m ≠ .gt ↔ n.getFirstAddress < m.getFirstAddress ∨
      n.getFirstAddress = m.getFirstAddress ∧ n.block.level ≤ m.block.level := by
  have hlevel : n.block.level ≤ m.block.level ↔ m.networkMask ≤ n.networkMask := by
    have hnmask := hn.mask
    have hmmask := hm.mask
    change n.numBits ≤ m.numBits ↔ _
    rw [numBits, numBits, hn.family, hm.family]
    omega
  rw [hlevel, compareTo]
  rcases Nat.lt_trichotomy n.getFirstAddress m.getFirstAddress with hlt | heq | hgt
  · rw [Nat.compare_eq_lt.mpr hlt]
    exact iff_of_true nofun (.inl hlt)
  · rw [Nat.compare_eq_eq.mpr heq]
    dsimp only
    rw [Ne, Nat.compare_eq_gt, Nat.not_lt]
    simp [heq]
  · rw [Nat.compare_eq_gt.mpr hgt]
    exact iff_of_false (fun h ↦ h rfl) (by omega)

/-- A network that is no single address is split into the halves of its block. -/
theorem block_firstHalf (hn : n.Fits isV4) (hpos : 0 < n.block.level) :
    n.firstHalf.block = n.block.lower ∧ n.firstHalf.Fits isV4 := by
  have hmask := hn.mask
  have hbits : n.firstHalf.numBits = n.block.level - 1 := by
    change (if n.isV4 then 32 else 128) - (n.networkMask + 1) =
      (if n.isV4 then 32 else 128) - n.networkMask - 1
    omega
  have hlevel : 2 ^ n.block.level = 2 * 2 ^ (n.block.level - 1) := by
    rw [← pow_succ', Nat.sub_add_cancel hpos]
  constructor
  · rw [block, hbits, Block.lower]
    congr 1
    change n.getFirstAddress / _ = _
    rw [getFirstAddress_eq, hlevel, ← Nat.mul_assoc,
      Nat.mul_div_cancel _ (Nat.two_pow_pos _), Nat.mul_comm]
  · refine ⟨hn.family, ?_⟩
    change 0 < n.numBits at hpos
    rw [numBits, hn.family] at hpos
    change n.networkMask + 1 ≤ _
    omega

theorem block_secondHalf (hn : n.Fits isV4) (hpos : 0 < n.block.level) :
    n.secondHalf.block = n.block.upper ∧ n.secondHalf.Fits isV4 := by
  obtain ⟨hblock, hfits⟩ := block_firstHalf hn hpos
  refine ⟨?_, hfits.family, hfits.mask⟩
  have hbits : n.secondHalf.numBits = n.block.level - 1 := congrArg Block.level hblock
  rw [block, hbits, Block.upper]
  congr 1
  change (n.firstHalf.getLastAddress + 1) / _ = _
  have hsize : 0 < 2 ^ (n.block.level - 1) := Nat.two_pow_pos _
  have hnext : n.firstHalf.getLastAddress + 1 =
      (2 * n.block.index + 1) * 2 ^ (n.block.level - 1) := by
    rw [getLastAddress_eq, hblock, Nat.add_mul, Nat.one_mul]
    change 2 * n.block.index * 2 ^ (n.block.level - 1) + (2 ^ (n.block.level - 1) - 1) + 1 = _
    omega
  rw [hnext, Nat.mul_div_cancel _ hsize]

theorem getFirstAddress_firstHalf (hn : n.Fits isV4) (hpos : 0 < n.block.level) :
    n.firstHalf.getFirstAddress = n.getFirstAddress := by
  rw [getFirstAddress_eq, getFirstAddress_eq, (block_firstHalf hn hpos).1, Block.first_lower hpos]

theorem getFirstAddress_lt_secondHalf (hn : n.Fits isV4) (hpos : 0 < n.block.level) :
    n.getFirstAddress < n.secondHalf.getFirstAddress := by
  rw [getFirstAddress_eq, getFirstAddress_eq, (block_secondHalf hn hpos).1]
  exact Block.first_lt_first_upper hpos

end IpAddress

/-! ### The loop -/

/-- A `PriorityQueue` of networks: what it gives out is least, and nothing is known of the order of
equal networks. -/
structure PriorityQueue where
  add : List IpAddress → IpAddress → List IpAddress
  poll : List IpAddress → Option (IpAddress × List IpAddress)
  add_perm : ∀ networks n, (add networks n).Perm (n :: networks)
  poll_nil : poll [] = none
  poll_perm : ∀ networks, networks ≠ [] → ∃ n rest, poll networks = some (n, rest) ∧
    (n :: rest).Perm networks ∧ ∀ m ∈ rest, n.compareTo m ≠ .gt

/-- `TreeSet.add`: an equal network that is in the set already stays. -/
def treeAdd (n : IpAddress) : List IpAddress → List IpAddress
  | [] => [n]
  | m :: rest =>
    match n.compareTo m with
    | .lt => n :: m :: rest
    | .eq => m :: rest
    | .gt => m :: treeAdd n rest

/-- `mIpAddresses`: networks in ascending order, no two of them equal. -/
structure NetworkSpace where
  mIpAddresses : List IpAddress
  ascending : mIpAddresses.Pairwise fun n m ↦ n.compareTo m = .lt

namespace NetworkSpace

/-- The variables of the loop. -/
structure Loop where
  currentNet : IpAddress
  networks : List IpAddress
  ipsDone : List IpAddress

variable (queue : PriorityQueue)

/-- Adds a half of a network unless the queue has a network that equals it. -/
def addHalf (networks : List IpAddress) (half : IpAddress) : List IpAddress :=
  if networks.any half.equals then networks else queue.add networks half

/-- One turn of the loop: what is left to do, or the networks that are done. -/
def step (l : Loop) : Loop ⊕ List IpAddress :=
  match queue.poll l.networks with
  | none => .inr (treeAdd l.currentNet l.ipsDone)
  | some (nextNet, networks) =>
    if l.currentNet.getLastAddress < nextNet.getFirstAddress then
      .inl ⟨nextNet, networks, treeAdd l.currentNet l.ipsDone⟩
    else if l.currentNet.getFirstAddress = nextNet.getFirstAddress ∧
        nextNet.networkMask ≤ l.currentNet.networkMask then
      if l.currentNet.included = nextNet.included then .inl ⟨nextNet, networks, l.ipsDone⟩
      else
        let networks := addHalf queue networks nextNet.secondHalf
        let networks :=
          if nextNet.firstHalf.getLastAddress = l.currentNet.getLastAddress then networks
          else addHalf queue networks nextNet.firstHalf
        .inl ⟨l.currentNet, networks, l.ipsDone⟩
    else if l.currentNet.included = nextNet.included then
      .inl ⟨l.currentNet, networks, l.ipsDone⟩
    else if l.currentNet.secondHalf.networkMask = nextNet.networkMask then
      .inl ⟨l.currentNet.firstHalf, queue.add networks nextNet, l.ipsDone⟩
    else
      .inl ⟨l.currentNet.firstHalf, queue.add (queue.add networks l.currentNet.secondHalf) nextNet,
        l.ipsDone⟩

/-- The turns of the loop, `none` where there are more than a number of them. -/
def turns : ℕ → Loop → Option (List IpAddress)
  | 0, _ => none
  | count + 1, l =>
    match step queue l with
    | .inl l' => turns count l'
    | .inr ipsDone => some ipsDone

/-- `generateIPList`. -/
def generateIPList (count : ℕ) (space : NetworkSpace) : Option (List IpAddress) :=
  match queue.poll space.mIpAddresses with
  | none => some []
  | some (currentNet, networks) => turns queue count ⟨currentNet, networks, []⟩

/-- The number of the first Android version on which the routes are the calculated ones. -/
def kitkat : ℕ := 19

/-- `getPositiveIPList`. -/
def getPositiveIPList (count sdkInt : ℕ) (space : NetworkSpace) : Option (List IpAddress) := do
  let ipsSorted ← generateIPList queue count space
  let ips := ipsSorted.filter IpAddress.included
  if sdkInt < kitkat then
    some (ips ++ space.mIpAddresses.filter fun origIp ↦ origIp.included &&
      !ipsSorted.any (fun n ↦ origIp.compareTo n == .eq) &&
      !ipsSorted.any fun calculatedIp ↦ !calculatedIp.included && origIp.containsNet calculatedIp)
  else some ips

/-! ### What is left over -/

/-- A block that lies in an included network and meets no excluded one. -/
def Admissible (networks : List IpAddress) (b : Block) : Prop :=
  (∃ n ∈ networks, n.included = true ∧ b ≤ n.block) ∧
    ∀ n ∈ networks, n.included = false → ∀ x ∈ b, x ∉ n.block

/-- The networks of one family of which no included one lies in an excluded one, and no excluded one
that is the upper half of a block is after another excluded one that starts behind the block. -/
structure Carved (isV4 : Bool) (networks : List IpAddress) : Prop where
  fits : ∀ n ∈ networks, n.Fits isV4
  outside : ∀ n ∈ networks, n.included = true → ∀ m ∈ networks, m.included = false →
    ¬ m.containsNet n = true
  apart : ∀ n ∈ networks, n.included = false → ∀ m ∈ networks, m.included = false →
    (IpAddress.mk n.netAddress (n.networkMask - 1) n.included n.isV4).getFirstAddress <
      m.getFirstAddress → m.getFirstAddress ≤ n.getFirstAddress → m.equals n = true

/-- What holds of the variables of the loop: the networks fit, the current one is least, no included
network of those that are left lies in an excluded one, the networks that are done lie before them,
and both together have the admissible blocks and the excluded networks. -/
structure Sweeping (isV4 : Bool) (networks : List IpAddress) (l : Loop) : Prop where
  fits : ∀ n ∈ l.currentNet :: l.networks, n.Fits isV4
  least : ∀ n ∈ l.networks, l.currentNet.compareTo n ≠ .gt
  outside : ∀ n ∈ l.currentNet :: l.networks, n.included = true →
    ∀ m ∈ l.currentNet :: l.networks, m.included = false → ¬ n.block ≤ m.block
  done : ∀ n ∈ l.ipsDone, n.Fits isV4 ∧ n.getLastAddress < l.currentNet.getFirstAddress
  ascending : l.ipsDone.Pairwise fun n m ↦ n.getLastAddress < m.getFirstAddress
  included : ∀ n ∈ l.ipsDone ++ l.currentNet :: l.networks, n.included = true →
    ∃ m ∈ networks, m.included = true ∧ n.block ≤ m.block
  excluded : ∀ n ∈ l.ipsDone ++ l.currentNet :: l.networks, n.included = false → n ∈ networks
  covered : ∀ m ∈ networks, m.included = false →
    ∃ n ∈ l.ipsDone ++ l.currentNet :: l.networks, n.included = false ∧ m.block ≤ n.block
  admissible : ∀ b, Admissible networks b →
    ∃ n ∈ l.ipsDone ++ l.currentNet :: l.networks, n.included = true ∧ b ≤ n.block

/-! ### One turn -/

variable {isV4 : Bool} {networks : List IpAddress} {l l' : Loop} {n m : IpAddress} {b : Block}

theorem Admissible.mono {c : Block} (hc : Admissible networks c) (hle : b ≤ c) :
    Admissible networks b := by
  obtain ⟨⟨n, hn, hincluded, hwithin⟩, houtside⟩ := hc
  exact ⟨⟨n, hn, hincluded, hle.trans hwithin⟩,
    fun m hm hexcluded x hx ↦ houtside m hm hexcluded x (hle x hx)⟩

/-- An admissible block lies in no excluded network. -/
theorem Admissible.not_le (hb : Admissible networks b) (hm : m ∈ networks)
    (hexcluded : m.included = false) : ¬ b ≤ m.block := fun hle ↦
  hb.2 m hm hexcluded _ b.first_mem (hle _ b.first_mem)

/-- No admissible block has an excluded network in it. -/
theorem Admissible.not_ge (hb : Admissible networks b) (hm : m ∈ networks)
    (hexcluded : m.included = false) : ¬ m.block ≤ b := fun hle ↦
  hb.2 m hm hexcluded _ (hle _ m.block.first_mem) m.block.first_mem

/-- Networks may be taken out and put in as long as the included ones that are put in lie in one
that was there and in no excluded one, and nothing is lost. -/
theorem Sweeping.replace (hsweep : Sweeping isV4 networks l) (hdone : l'.ipsDone = l.ipsDone)
    (hfirst : l.currentNet.getFirstAddress ≤ l'.currentNet.getFirstAddress)
    (hleast : ∀ n ∈ l'.networks, l'.currentNet.compareTo n ≠ .gt)
    (hnew : ∀ n ∈ l'.currentNet :: l'.networks, n ∈ l.currentNet :: l.networks ∨
      n.included = true ∧ n.Fits isV4 ∧
        (∃ m ∈ l.currentNet :: l.networks, m.included = true ∧ n.block ≤ m.block) ∧
        ∀ m ∈ l.currentNet :: l.networks, m.included = false → ¬ n.block ≤ m.block)
    (hincluded : ∀ m ∈ l.currentNet :: l.networks, m.included = true →
      ∀ b, Admissible networks b → b ≤ m.block →
        ∃ n ∈ l'.currentNet :: l'.networks, n.included = true ∧ b ≤ n.block)
    (hexcluded : ∀ m ∈ l.currentNet :: l.networks, m.included = false →
      ∃ n ∈ l'.currentNet :: l'.networks, n.included = false ∧ m.block ≤ n.block) :
    Sweeping isV4 networks l' where
  fits n hn := (hnew n hn).elim (hsweep.fits n) fun h ↦ h.2.1
  least := hleast
  outside n hn hn' m hm hm' := by
    have hm : m ∈ l.currentNet :: l.networks :=
      (hnew m hm).resolve_right fun h ↦ by rw [h.1] at hm'; cases hm'
    rcases hnew n hn with hn | hn
    · exact hsweep.outside n hn hn' m hm hm'
    · exact hn.2.2.2 m hm hm'
  done n hn := by
    obtain ⟨hfits, hlast⟩ := hsweep.done n (hdone ▸ hn)
    exact ⟨hfits, hlast.trans_le hfirst⟩
  ascending := hdone ▸ hsweep.ascending
  included n hn hn' := by
    rw [hdone, List.mem_append] at hn
    rcases hn with hn | hn
    · exact hsweep.included n (List.mem_append_left _ hn) hn'
    · rcases hnew n hn with hn | ⟨-, -, ⟨m, hm, hm', hle⟩, -⟩
      · exact hsweep.included n (List.mem_append_right _ hn) hn'
      · obtain ⟨o, ho, ho', hle'⟩ := hsweep.included m (List.mem_append_right _ hm) hm'
        exact ⟨o, ho, ho', hle.trans hle'⟩
  excluded n hn hn' := by
    rw [hdone, List.mem_append] at hn
    rcases hn with hn | hn
    · exact hsweep.excluded n (List.mem_append_left _ hn) hn'
    · have hn : n ∈ l.currentNet :: l.networks :=
        (hnew n hn).resolve_right fun h ↦ by rw [h.1] at hn'; cases hn'
      exact hsweep.excluded n (List.mem_append_right _ hn) hn'
  covered o ho ho' := by
    rw [hdone]
    obtain ⟨m, hm, hm', hle⟩ := hsweep.covered o ho ho'
    rcases List.mem_append.mp hm with hm | hm
    · exact ⟨m, List.mem_append_left _ hm, hm', hle⟩
    · obtain ⟨n, hn, hn', hle'⟩ := hexcluded m hm hm'
      exact ⟨n, List.mem_append_right _ hn, hn', hle.trans hle'⟩
  admissible b hb := by
    rw [hdone]
    obtain ⟨m, hm, hm', hle⟩ := hsweep.admissible b hb
    rcases List.mem_append.mp hm with hm | hm
    · exact ⟨m, List.mem_append_left _ hm, hm', hle⟩
    · obtain ⟨n, hn, hn', hle'⟩ := hincluded m hm hm' b hb hle
      exact ⟨n, List.mem_append_right _ hn, hn', hle'⟩

/-- A network behind all those in a set becomes its last one. -/
theorem treeAdd_eq_append {ipsDone : List IpAddress}
    (hdone : ∀ m ∈ ipsDone, m.getLastAddress < n.getFirstAddress) :
    treeAdd n ipsDone = ipsDone ++ [n] := by
  induction ipsDone with
  | nil => rfl
  | cons m rest ih =>
    have hgt : n.compareTo m = .gt := by
      have hlt := m.first_le_last.trans_lt (hdone m List.mem_cons_self)
      rw [IpAddress.compareTo, Nat.compare_eq_gt.mpr hlt]
    rw [treeAdd, hgt]
    exact congrArg (m :: ·) (ih fun m hm ↦ hdone m (List.mem_cons_of_mem _ hm))

theorem mem_addHalf (queue : PriorityQueue) {half : IpAddress} :
    n ∈ addHalf queue networks half ↔
      n ∈ networks ∨ n = half ∧ ∀ m ∈ networks, half.equals m = false := by
  rw [addHalf]
  split_ifs with hany
  · refine (or_iff_left fun h ↦ ?_).symm
    obtain ⟨m, hm, hequals⟩ := List.any_eq_true.mp hany
    rw [h.2 m hm] at hequals
    cases hequals
  · have hnone : ∀ m ∈ networks, half.equals m = false := fun m hm ↦
      Bool.eq_false_iff.mpr fun hequals ↦ hany (List.any_eq_true.mpr ⟨m, hm, hequals⟩)
    rw [(queue.add_perm networks half).mem_iff, List.mem_cons, or_comm, and_iff_left hnone]

/-- A network may be forgotten that lies in another one of its kind. -/
theorem Sweeping.forget (hsweep : Sweeping isV4 networks l) {currentNet : IpAddress}
    {rest : List IpAddress} (hfirst : l.currentNet.getFirstAddress ≤ currentNet.getFirstAddress)
    (hleast : ∀ n ∈ rest, currentNet.compareTo n ≠ .gt)
    (hsub : ∀ n ∈ currentNet :: rest, n ∈ l.currentNet :: l.networks)
    (hwithin : ∀ m ∈ l.currentNet :: l.networks,
      ∃ n ∈ currentNet :: rest, n.included = m.included ∧ m.block ≤ n.block) :
    Sweeping isV4 networks ⟨currentNet, rest, l.ipsDone⟩ := by
  refine hsweep.replace rfl hfirst hleast (fun n hn ↦ .inl (hsub n hn)) ?_ ?_
  · intro m hm hm' b _ hle
    obtain ⟨n, hn, hsame, hwithin⟩ := hwithin m hm
    exact ⟨n, hn, hsame.trans hm', hle.trans hwithin⟩
  · intro m hm hm'
    obtain ⟨n, hn, hsame, hwithin⟩ := hwithin m hm
    exact ⟨n, hn, hsame.trans hm', hwithin⟩

section Polled

variable (hsweep : Sweeping isV4 networks l) {nextNet : IpAddress} {rest : List IpAddress}
  (hperm : (nextNet :: rest).Perm l.networks)
  (hnext : ∀ n ∈ rest, nextNet.compareTo n ≠ .gt)

include hsweep hperm hnext

/-- The current network is done once the next one starts behind it. -/
theorem Sweeping.advance (hbehind : l.currentNet.getLastAddress < nextNet.getFirstAddress) :
    Sweeping isV4 networks ⟨nextNet, rest, l.ipsDone ++ [l.currentNet]⟩ := by
  have hsub : ∀ n ∈ nextNet :: rest, n ∈ l.currentNet :: l.networks := fun n hn ↦
    List.mem_cons_of_mem _ (hperm.mem_iff.mp hn)
  have hmem : ∀ n, n ∈ (l.ipsDone ++ [l.currentNet]) ++ nextNet :: rest ↔
      n ∈ l.ipsDone ++ l.currentNet :: l.networks := by
    intro n
    rw [List.append_assoc, List.singleton_append]
    exact ((hperm.cons l.currentNet).append_left l.ipsDone).mem_iff
  constructor
  case fits => exact fun n hn ↦ hsweep.fits n (hsub n hn)
  case least => exact hnext
  case outside => exact fun n hn hn' m hm hm' ↦ hsweep.outside n (hsub n hn) hn' m (hsub m hm) hm'
  case done =>
    intro n hn
    rcases List.mem_append.mp hn with hn | hn
    · obtain ⟨hfits, hlast⟩ := hsweep.done n hn
      exact ⟨hfits, (hlast.trans_le l.currentNet.first_le_last).trans hbehind⟩
    · rw [List.mem_singleton.mp hn]
      exact ⟨hsweep.fits _ List.mem_cons_self, hbehind⟩
  case ascending =>
    refine List.pairwise_append.mpr ⟨hsweep.ascending, List.pairwise_singleton _ _, ?_⟩
    intro n hn m hm
    rw [List.mem_singleton.mp hm]
    exact (hsweep.done n hn).2
  case included => exact fun n hn ↦ hsweep.included n ((hmem n).mp hn)
  case excluded => exact fun n hn ↦ hsweep.excluded n ((hmem n).mp hn)
  case covered =>
    intro m hm hm'
    obtain ⟨n, hn, hrest⟩ := hsweep.covered m hm hm'
    exact ⟨n, (hmem n).mpr hn, hrest⟩
  case admissible =>
    intro b hb
    obtain ⟨n, hn, hrest⟩ := hsweep.admissible b hb
    exact ⟨n, (hmem n).mpr hn, hrest⟩

theorem Sweeping.forgetCurrent (hsame : l.currentNet.included = nextNet.included)
    (hle : l.currentNet.block ≤ nextNet.block)
    (hfirst : l.currentNet.getFirstAddress = nextNet.getFirstAddress) :
    Sweeping isV4 networks ⟨nextNet, rest, l.ipsDone⟩ := by
  refine hsweep.forget hfirst.le hnext
    (fun n hn ↦ List.mem_cons_of_mem _ (hperm.mem_iff.mp hn)) fun m hm ↦ ?_
  rcases List.mem_cons.mp hm with rfl | hm
  · exact ⟨nextNet, List.mem_cons_self, hsame.symm, hle⟩
  · exact ⟨m, hperm.mem_iff.mpr hm, rfl, le_rfl⟩

omit hnext in
theorem Sweeping.forgetNext (hsame : l.currentNet.included = nextNet.included)
    (hle : nextNet.block ≤ l.currentNet.block) :
    Sweeping isV4 networks ⟨l.currentNet, rest, l.ipsDone⟩ := by
  have hrest : ∀ n ∈ rest, n ∈ l.networks := fun n hn ↦
    hperm.mem_iff.mp (List.mem_cons_of_mem _ hn)
  refine hsweep.forget le_rfl (fun n hn ↦ hsweep.least n (hrest n hn)) (fun n hn ↦ ?_)
    fun m hm ↦ ?_
  · exact (List.mem_cons.mp hn).elim (· ▸ List.mem_cons_self)
      fun hn ↦ List.mem_cons_of_mem _ (hrest n hn)
  · rcases List.mem_cons.mp hm with rfl | hm
    · exact ⟨l.currentNet, List.mem_cons_self, rfl, le_rfl⟩
    · rcases List.mem_cons.mp (hperm.mem_iff.mpr hm) with rfl | hm
      · exact ⟨l.currentNet, List.mem_cons_self, hsame, hle⟩
      · exact ⟨m, List.mem_cons_of_mem _ hm, rfl, le_rfl⟩

end Polled

/-- An excluded network that a half of an included one lies in is that half. -/
theorem Sweeping.half_eq (hsweep : Sweeping isV4 networks l)
    (hn : n ∈ l.currentNet :: l.networks) (hn' : n.included = true)
    (hm : m ∈ l.currentNet :: l.networks) (hm' : m.included = false) {half : Block}
    (hparent : half.parent = n.block) (hle : half ≤ m.block) : half = m.block := by
  by_contra hne
  refine hsweep.outside n hn hn' m hm hm' ?_
  rw [← hparent]
  exact Block.parent_le_of_lt (lt_of_le_of_ne hle hne)

/-- An excluded network in an included one is a proper part of it. -/
theorem Sweeping.block_lt (hsweep : Sweeping isV4 networks l)
    (hn : n ∈ l.currentNet :: l.networks) (hn' : n.included = true)
    (hm : m ∈ l.currentNet :: l.networks) (hm' : m.included = false) (hle : m.block ≤ n.block) :
    m.block < n.block :=
  lt_of_le_not_ge hle (hsweep.outside n hn hn' m hm hm')

end NetworkSpace

end WindscribeVpn.Openvpn
