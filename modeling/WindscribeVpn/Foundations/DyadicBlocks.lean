import Mathlib.Algebra.Order.Ring.Nat
import Mathlib.Data.List.Nodup
import Mathlib.Data.List.Perm.Subperm
import Mathlib.Data.Set.Defs
import Mathlib.Order.CompletePartialOrder
import Mathlib.Tactic.Linarith
import Mathlib.Tactic.Ring

/-!
# Aligned blocks of numbers

A block of level `j` consists of `2 ^ j` numbers that agree above their last `j` binary digits. Two
blocks are disjoint or one contains the other (`Block.mem_of_level_le`).

An interval is cut into blocks by climbing from its two ends: `ascend` collects the blocks from a
number up to the next multiple of a power of two, `descend` those from a multiple of a power of two
up to the end of the interval, and at every level at most one block is recorded on either side.
None of these blocks can be doubled without leaving the interval (`maximal_of_mem_cut`). So a block
inside the interval that meets one of them is a part of it, and `length_le_of_absorbing` then says
that no other blocks that cover the interval are fewer.
-/

set_option autoImplicit false
set_option relaxedAutoImplicit false

namespace WindscribeVpn.Foundations.DyadicBlocks

/-- The numbers with a given quotient by a power of two. -/
structure Block where
  level : ℕ
  index : ℕ
  deriving DecidableEq, Repr

namespace Block

variable {b c : Block} {x y : ℕ}

instance : Membership ℕ Block := ⟨fun b x ↦ x / 2 ^ b.level = b.index⟩

theorem mem_def : x ∈ b ↔ x / 2 ^ b.level = b.index := Iff.rfl

theorem mem_iff : x ∈ b ↔ b.index * 2 ^ b.level ≤ x ∧ x < (b.index + 1) * 2 ^ b.level := by
  rw [mem_def, Nat.div_eq_iff (Nat.two_pow_pos _), Nat.add_mul, Nat.one_mul]
  have hpos : 0 < 2 ^ b.level := Nat.two_pow_pos _
  omega

/-- The first number of a block. -/
theorem first_mem (b : Block) : b.index * 2 ^ b.level ∈ b :=
  Nat.mul_div_cancel _ (Nat.two_pow_pos _)

/-- A block that shares a number with one of a higher level is a part of it. -/
theorem mem_of_level_le (hle : b.level ≤ c.level) (hxb : x ∈ b) (hxc : x ∈ c) (hyb : y ∈ b) :
    y ∈ c := by
  rw [mem_def] at *
  have hquotient : ∀ z, z / 2 ^ c.level = z / 2 ^ b.level / 2 ^ (c.level - b.level) := fun z ↦ by
    rw [Nat.div_div_eq_div_mul, ← pow_add, Nat.add_sub_cancel' hle]
  rw [hquotient, hyb, ← hxb, ← hquotient, hxc]

/-- The block of twice the size. -/
def parent (b : Block) : Block := ⟨b.level + 1, b.index / 2⟩

theorem mem_parent (hx : x ∈ b) : x ∈ b.parent := by
  rw [mem_def] at *
  rw [parent, ← hx, Nat.div_div_eq_div_mul, pow_succ]

/-- Every number of a block lies in a set. -/
def Within (b : Block) (S : Set ℕ) : Prop := ∀ x ∈ b, x ∈ S

/-- A block all of which lies in a set cannot be doubled there. -/
def Maximal (b : Block) (S : Set ℕ) : Prop := b.Within S ∧ ¬ b.parent.Within S

/-- A block inside the set that meets a maximal one is a part of it. -/
theorem Maximal.mem_of_mem {S : Set ℕ} (hmax : b.Maximal S) (hwithin : c.Within S) (hxb : x ∈ b)
    (hxc : x ∈ c) (hyc : y ∈ c) : y ∈ b := by
  rcases Nat.lt_or_ge b.level c.level with hlt | hle
  · have hparent : b.parent.Within S := fun z hz ↦
      hwithin z (mem_of_level_le (Nat.succ_le_of_lt hlt) (mem_parent hxb) hxc hz)
    exact absurd hparent hmax.2
  · exact mem_of_level_le hle hxc hxb hyc

/-- The block of twice the size has numbers outside. -/
theorem maximal_of_mem_iff {S : Set ℕ} (hmem : ∀ x, x ∈ S ↔ x ∈ b) : b.Maximal S := by
  refine ⟨fun x hx ↦ (hmem x).mpr hx, fun hwithin ↦ ?_⟩
  have hpos : 0 < 2 ^ b.level := Nat.two_pow_pos _
  have hparent : ∀ index, index / 2 = b.index / 2 → index * 2 ^ b.level ∈ b.parent := by
    intro index hhalf
    rw [mem_def, parent, pow_succ, ← Nat.div_div_eq_div_mul, Nat.mul_div_cancel _ hpos]
    exact hhalf
  have hsame : ∀ index, index / 2 = b.index / 2 → index = b.index := by
    intro index hhalf
    have hin := (hmem _).mp (hwithin _ (hparent index hhalf))
    rwa [mem_def, Nat.mul_div_cancel _ hpos] at hin
  rcases Nat.mod_two_eq_zero_or_one b.index with heven | hodd
  · have hnext := hsame (b.index + 1) (by omega)
    omega
  · have hprevious := hsame (b.index - 1) (by omega)
    omega

theorem mem_parent_self (b : Block) : b.index * 2 ^ b.level ∈ b.parent := mem_parent b.first_mem

/-- The block of twice the size is not a part of the block. -/
theorem not_within_parent (b : Block) : ¬ b.parent.Within {x | x ∈ b} :=
  (maximal_of_mem_iff fun _ ↦ Iff.rfl).2

/-- A part of a block has no higher level. -/
theorem level_le_of_within (hwithin : b.Within {x | x ∈ c}) : b.level ≤ c.level := by
  by_contra hlt
  rw [not_le] at hlt
  have hparent : c.parent.Within {x | x ∈ b} := fun x hx ↦
    mem_of_level_le (Nat.succ_le_of_lt hlt) (mem_parent (hwithin _ b.first_mem)) b.first_mem hx
  exact c.not_within_parent fun x hx ↦ hwithin x (hparent x hx)

instance : PartialOrder Block where
  le b c := b.Within {x | x ∈ c}
  le_refl b := fun _ hx ↦ hx
  le_trans b c d hbc hcd := fun x hx ↦ hcd x (hbc x hx)
  le_antisymm b c hbc hcb := by
    have hlevel := Nat.le_antisymm (level_le_of_within hbc) (level_le_of_within hcb)
    have hindex := mem_def.mp (hbc _ b.first_mem)
    rw [← hlevel, Nat.mul_div_cancel _ (Nat.two_pow_pos _)] at hindex
    cases b
    cases c
    exact congrArg₂ Block.mk hlevel hindex

theorem le_def : b ≤ c ↔ ∀ x ∈ b, x ∈ c := Iff.rfl

theorem level_le (hle : b ≤ c) : b.level ≤ c.level := level_le_of_within hle

theorem le_of_level_le (hle : b.level ≤ c.level) (hxb : x ∈ b) (hxc : x ∈ c) : b ≤ c :=
  fun _ hy ↦ mem_of_level_le hle hxb hxc hy

/-- Two blocks that share a number are nested. -/
theorem le_total_of_mem (hxb : x ∈ b) (hxc : x ∈ c) : b ≤ c ∨ c ≤ b :=
  (Nat.le_total b.level c.level).imp (fun h ↦ le_of_level_le h hxb hxc) fun h ↦
    le_of_level_le h hxc hxb

theorem level_lt_of_lt (hlt : b < c) : b.level < c.level := by
  refine lt_of_le_of_ne (level_le hlt.le) fun heq ↦ hlt.not_ge ?_
  exact le_of_level_le heq.ge (hlt.le _ b.first_mem) b.first_mem

theorem le_parent (b : Block) : b ≤ b.parent := fun _ ↦ mem_parent

/-- What lies around a block lies around the block of twice the size. -/
theorem parent_le_of_lt (hlt : b < c) : b.parent ≤ c :=
  le_of_level_le (Nat.succ_le_of_lt (level_lt_of_lt hlt)) b.mem_parent_self
    (hlt.le _ b.first_mem)

/-- The first half of a block. -/
def lower (b : Block) : Block := ⟨b.level - 1, 2 * b.index⟩

/-- The second half of a block. -/
def upper (b : Block) : Block := ⟨b.level - 1, 2 * b.index + 1⟩

theorem mem_iff_lower_or_upper (hpos : 0 < b.level) :
    x ∈ b ↔ x ∈ b.lower ∨ x ∈ b.upper := by
  have hlevel : 2 ^ b.level = 2 ^ (b.level - 1) * 2 := by
    rw [← pow_succ, Nat.sub_add_cancel hpos]
  change x / 2 ^ b.level = b.index ↔
    x / 2 ^ (b.level - 1) = 2 * b.index ∨ x / 2 ^ (b.level - 1) = 2 * b.index + 1
  rw [hlevel, ← Nat.div_div_eq_div_mul]
  generalize x / 2 ^ (b.level - 1) = half
  omega

theorem lower_le (hpos : 0 < b.level) : b.lower ≤ b := fun _ hx ↦
  (mem_iff_lower_or_upper hpos).mpr (.inl hx)

theorem upper_le (hpos : 0 < b.level) : b.upper ≤ b := fun _ hx ↦
  (mem_iff_lower_or_upper hpos).mpr (.inr hx)

/-- The first half begins where the block does. -/
theorem first_lower (hpos : 0 < b.level) :
    b.lower.index * 2 ^ b.lower.level = b.index * 2 ^ b.level := by
  have hlevel : 2 ^ b.level = 2 * 2 ^ (b.level - 1) := by
    rw [← pow_succ', Nat.sub_add_cancel hpos]
  change 2 * b.index * 2 ^ (b.level - 1) = _
  rw [hlevel]
  ring

/-- The second half begins behind where the block does. -/
theorem first_lt_first_upper (hpos : 0 < b.level) :
    b.index * 2 ^ b.level < b.upper.index * 2 ^ b.upper.level := by
  rw [← first_lower hpos]
  exact Nat.mul_lt_mul_of_pos_right (Nat.lt_succ_self _) (Nat.two_pow_pos _)

theorem parent_lower (hpos : 0 < b.level) : b.lower.parent = b :=
  congrArg₂ Block.mk (Nat.sub_add_cancel hpos) (Nat.mul_div_cancel_left _ Nat.two_pos)

theorem parent_upper (hpos : 0 < b.level) : b.upper.parent = b := by
  refine congrArg₂ Block.mk (Nat.sub_add_cancel hpos) ?_
  change (2 * b.index + 1) / 2 = b.index
  omega

/-- A proper part of a block lies in one of its halves. -/
theorem le_lower_or_le_upper (hlt : c < b) : c ≤ b.lower ∨ c ≤ b.upper := by
  have hlevel := level_lt_of_lt hlt
  have hpos : 0 < b.level := Nat.zero_lt_of_lt hlevel
  exact ((mem_iff_lower_or_upper hpos).mp (hlt.le _ c.first_mem)).imp
    (le_of_level_le (Nat.le_pred_of_lt hlevel) c.first_mem)
    (le_of_level_le (Nat.le_pred_of_lt hlevel) c.first_mem)

end Block

/-- The numbers of the blocks of a list. -/
def covered (L : List Block) : Set ℕ := {x | ∃ b ∈ L, x ∈ b}

/-- All numbers of the first block come before those of the second. -/
def Before (b c : Block) : Prop := ∀ x ∈ b, ∀ y ∈ c, x < y

variable {L M : List Block} {x : ℕ}

theorem mem_covered : x ∈ covered L ↔ ∃ b ∈ L, x ∈ b := Iff.rfl

theorem mem_covered_append : x ∈ covered (L ++ M) ↔ x ∈ covered L ∨ x ∈ covered M := by
  simp only [mem_covered, List.mem_append, or_and_right, exists_or]

/-- Sets without a common point are no more than others that cover their first points, if what
meets one of them is a part of it. -/
theorem length_le_of_absorbing {ι β : Type*} {L M : List β} {points : β → Set ι} {first : β → ι}
    (hfirst : ∀ b, first b ∈ points b) (hdisjoint : L.Pairwise fun b c ↦ Disjoint (points b) (points c))
    (habsorbs : ∀ b ∈ L, ∃ c ∈ M, first b ∈ points c ∧ points c ⊆ points b) :
    L.length ≤ M.length := by
  have hchoice : ∀ b, ∃ c, b ∈ L → c ∈ M ∧ first b ∈ points c ∧ points c ⊆ points b := by
    intro b
    by_cases hb : b ∈ L
    · obtain ⟨c, hc, hmem⟩ := habsorbs b hb
      exact ⟨c, fun _ ↦ ⟨hc, hmem⟩⟩
    · exact ⟨b, fun hb' ↦ absurd hb' hb⟩
  choose chosen hchosen using hchoice
  -- Two members of `L` never choose the same member of `M`, which would lie inside both.
  have hnodup : (L.map chosen).Nodup := by
    refine List.pairwise_map.mpr (hdisjoint.imp_of_mem fun {b c} hb hc hout hsame ↦ ?_)
    have hmem : first (chosen b) ∈ points (chosen c) := hsame ▸ hfirst (chosen b)
    exact Set.disjoint_left.mp hout ((hchosen b hb).2.2 (hfirst _)) ((hchosen c hc).2.2 hmem)
  have hsub : L.map chosen ⊆ M := fun c hc ↦ by
    obtain ⟨b, hb, rfl⟩ := List.mem_map.mp hc
    exact (hchosen b hb).1
  calc L.length = (L.map chosen).length := (List.length_map _).symm
    _ ≤ M.length := (hnodup.subperm hsub).length_le

/-! ### Climbing from the lower end -/

/-- The quotient of a number by a power of two, rounded up. -/
def up (a j : ℕ) : ℕ := (a + (2 ^ j - 1)) / 2 ^ j

theorem up_zero (a : ℕ) : up a 0 = a := by rw [up, pow_zero, Nat.div_one, Nat.sub_self, Nat.add_zero]

theorem up_succ (a j : ℕ) : up a (j + 1) = (up a j + 1) / 2 := by
  have hpos : 0 < 2 ^ j := Nat.two_pow_pos j
  have hsum : a + (2 ^ (j + 1) - 1) = a + (2 ^ j - 1) + 2 ^ j := by rw [pow_succ]; omega
  rw [up, up, hsum, pow_succ, ← Nat.div_div_eq_div_mul, Nat.add_div_right _ hpos]

/-- Before the multiple of a power of two that follows a number. -/
theorem lt_of_lt_up {a j c : ℕ} (hlt : c < up a j) : c * 2 ^ j < a := by
  have hpos : 0 < 2 ^ j := Nat.two_pow_pos j
  have hle : (c + 1) * 2 ^ j ≤ a + (2 ^ j - 1) := (Nat.le_div_iff_mul_le hpos).mp hlt
  rw [Nat.add_mul, Nat.one_mul] at hle
  omega

theorem le_up_mul (a j : ℕ) : a ≤ up a j * 2 ^ j := by
  have hpos : 0 < 2 ^ j := Nat.two_pow_pos j
  by_contra hlt
  rw [not_le] at hlt
  have hle : up a j + 1 ≤ up a j := by
    refine (Nat.le_div_iff_mul_le hpos).mpr ?_
    rw [Nat.add_mul, Nat.one_mul]
    omega
  exact Nat.lt_irrefl _ hle

theorem up_eq (a j : ℕ) : up a j = if a % 2 ^ j = 0 then a / 2 ^ j else a / 2 ^ j + 1 := by
  have hpos : 0 < 2 ^ j := Nat.two_pow_pos j
  have hdecomposed : 2 ^ j * (a / 2 ^ j) + a % 2 ^ j = a := Nat.div_add_mod a (2 ^ j)
  have hmod : a % 2 ^ j < 2 ^ j := Nat.mod_lt _ hpos
  rw [up, Nat.div_eq_iff hpos]
  split
  · rw [Nat.mul_comm]; omega
  · rw [Nat.add_mul, Nat.one_mul, Nat.mul_comm]; omega

/-- The block recorded at a level, if any: an odd multiple that the climb has come to. -/
def ascendStep (a j : ℕ) : List Block := if up a j % 2 = 1 then [⟨j, up a j⟩] else []

/-- The blocks from a number up to a multiple of a power of two. -/
def ascend (a : ℕ) : ℕ → List Block
  | 0 => []
  | j + 1 => ascend a j ++ ascendStep a j

theorem mem_ascendStep {a j : ℕ} : x ∈ covered (ascendStep a j) ↔
    up a j * 2 ^ j ≤ x ∧ x < up a (j + 1) * 2 ^ (j + 1) := by
  rw [up_succ, ascendStep]
  generalize up a j = c
  have hpow : (c + 1) / 2 * 2 ^ (j + 1) = (c + 1) / 2 * 2 * 2 ^ j := by rw [pow_succ]; ring
  rw [hpow]
  split
  · have hnext : (c + 1) / 2 * 2 = c + 1 := by omega
    simp [mem_covered, Block.mem_iff, hnext]
  · have hsame : (c + 1) / 2 * 2 = c := by omega
    simp [mem_covered, hsame]

theorem mem_ascend {a j : ℕ} : x ∈ covered (ascend a j) ↔ a ≤ x ∧ x < up a j * 2 ^ j := by
  induction j with
  | zero =>
    rw [up_zero, pow_zero, Nat.mul_one]
    simp only [ascend, mem_covered, List.not_mem_nil, false_and, exists_false, false_iff]
    omega
  | succ j ih =>
    have hmono : up a j * 2 ^ j ≤ up a (j + 1) * 2 ^ (j + 1) := by
      rw [up_succ, pow_succ, ← Nat.mul_assoc, Nat.mul_right_comm]
      exact Nat.mul_le_mul_right _ (by omega)
    rw [ascend, mem_covered_append, ih, mem_ascendStep]
    have hle := le_up_mul a j
    omega

theorem pairwise_ascend (a j : ℕ) : (ascend a j).Pairwise Before := by
  induction j with
  | zero => exact .nil
  | succ j ih =>
    refine List.pairwise_append.mpr ⟨ih, ?_, fun b hb c hc y hy z hz ↦ ?_⟩
    · rw [ascendStep]; split <;> simp
    · exact (mem_ascend.mp ⟨b, hb, hy⟩).2.trans_le (mem_ascendStep.mp ⟨c, hc, hz⟩).1

/-- Doubling a block of the climb would reach below the number. -/
theorem not_within_parent_of_ascend {a e j : ℕ} {b : Block} (hmem : b ∈ ascend a j) :
    ¬ b.parent.Within (Set.Ico a e) := by
  induction j with
  | zero => cases hmem
  | succ j ih =>
    rcases List.mem_append.mp hmem with hmem | hmem
    · exact ih hmem
    · rw [ascendStep] at hmem
      split at hmem
      · rename_i hodd
        rw [List.mem_singleton] at hmem
        subst hmem
        intro hwithin
        have hfirst := hwithin _ (Block.first_mem _)
        have hlow : (up a j - 1) * 2 ^ j < a := lt_of_lt_up (by omega)
        have heven : up a j / 2 * 2 ^ (j + 1) = (up a j - 1) * 2 ^ j := by
          rw [pow_succ, Nat.mul_comm (2 ^ j), ← Nat.mul_assoc]
          congr 1
          omega
        exact absurd (heven ▸ hfirst.1 : a ≤ (up a j - 1) * 2 ^ j) hlow.not_ge
      · cases hmem

/-! ### Climbing from the upper end -/

/-- The block recorded at a level, if any. -/
def descendStep (e j : ℕ) : List Block :=
  if e / 2 ^ j % 2 = 1 then [⟨j, e / 2 ^ j - 1⟩] else []

/-- The blocks from a multiple of a power of two to the end of an interval. -/
def descend (e : ℕ) : ℕ → List Block
  | 0 => []
  | j + 1 => descendStep e j ++ descend e j

theorem mem_descendStep {e j : ℕ} : x ∈ covered (descendStep e j) ↔
    e / 2 ^ (j + 1) * 2 ^ (j + 1) ≤ x ∧ x < e / 2 ^ j * 2 ^ j := by
  rw [pow_succ, ← Nat.div_div_eq_div_mul, descendStep]
  generalize e / 2 ^ j = q
  have hpow : q / 2 * (2 ^ j * 2) = q / 2 * 2 * 2 ^ j := by ring
  rw [hpow]
  split
  · have hprevious : q / 2 * 2 = q - 1 := by omega
    have hnext : q - 1 + 1 = q := by omega
    simp [mem_covered, Block.mem_iff, hprevious, hnext]
  · have hsame : q / 2 * 2 = q := by omega
    simp [mem_covered, hsame]

theorem mem_descend {e j : ℕ} : x ∈ covered (descend e j) ↔ e / 2 ^ j * 2 ^ j ≤ x ∧ x < e := by
  induction j with
  | zero =>
    rw [pow_zero, Nat.div_one, Nat.mul_one]
    simp only [descend, mem_covered, List.not_mem_nil, false_and, exists_false, false_iff]
    omega
  | succ j ih =>
    have hmono : e / 2 ^ (j + 1) * 2 ^ (j + 1) ≤ e / 2 ^ j * 2 ^ j := by
      rw [pow_succ, ← Nat.div_div_eq_div_mul, Nat.mul_comm (2 ^ j), ← Nat.mul_assoc]
      exact Nat.mul_le_mul_right _ (Nat.div_mul_le_self _ _)
    have hle : e / 2 ^ j * 2 ^ j ≤ e := Nat.div_mul_le_self _ _
    rw [descend, mem_covered_append, ih, mem_descendStep]
    omega

theorem pairwise_descend (e j : ℕ) : (descend e j).Pairwise Before := by
  induction j with
  | zero => exact .nil
  | succ j ih =>
    refine List.pairwise_append.mpr ⟨?_, ih, fun b hb c hc y hy z hz ↦ ?_⟩
    · rw [descendStep]; split <;> simp
    · exact (mem_descendStep.mp ⟨b, hb, hy⟩).2.trans_le (mem_descend.mp ⟨c, hc, hz⟩).1

/-- Doubling a block of the climb would reach past the end. -/
theorem not_within_parent_of_descend {a e j : ℕ} {b : Block} (hmem : b ∈ descend e j) :
    ¬ b.parent.Within (Set.Ico a e) := by
  induction j with
  | zero => cases hmem
  | succ j ih =>
    rcases List.mem_append.mp hmem with hmem | hmem
    · rw [descendStep] at hmem
      split at hmem
      · rename_i hodd
        rw [List.mem_singleton] at hmem
        subst hmem
        intro hwithin
        have hend : e ∈ Block.parent ⟨j, e / 2 ^ j - 1⟩ := by
          rw [Block.mem_def, Block.parent, pow_succ, ← Nat.div_div_eq_div_mul]
          change e / 2 ^ j / 2 = (e / 2 ^ j - 1) / 2
          generalize e / 2 ^ j = q at hodd
          omega
        exact Nat.lt_irrefl e (hwithin e hend).2
      · cases hmem
    · exact ih hmem

/-! ### The two climbs together -/

/-- The blocks from a number to the end of its block of level `m`. -/
def leftHalf (a m : ℕ) : List Block :=
  ascend a m ++ if a % 2 ^ m = 0 then [⟨m, a / 2 ^ m⟩] else []

/-- The blocks to an end from the beginning of the last block of level `m` before it. -/
def rightHalf (e m : ℕ) : List Block :=
  (if e % 2 ^ m = 0 then [⟨m, e / 2 ^ m - 1⟩] else []) ++ descend e m

/-- The end of an interval lies in the block of level `m` that follows the one of its beginning, and
the interval is not made of the two. -/
structure Straddles (a e m : ℕ) : Prop where
  even : a / 2 ^ m % 2 = 0
  next : (e - 1) / 2 ^ m = a / 2 ^ m + 1
  notFull : ¬ (a % 2 ^ m = 0 ∧ e % 2 ^ m = 0)

/-- The blocks that an interval is cut into. -/
def cut (a e m : ℕ) : List Block := leftHalf a m ++ rightHalf e m

theorem mem_leftHalf {a m : ℕ} :
    x ∈ covered (leftHalf a m) ↔ a ≤ x ∧ x < (a / 2 ^ m + 1) * 2 ^ m := by
  have hpos : 0 < 2 ^ m := Nat.two_pow_pos m
  have hdecomposed : a / 2 ^ m * 2 ^ m + a % 2 ^ m = a := by
    rw [Nat.mul_comm]; exact Nat.div_add_mod a (2 ^ m)
  rw [leftHalf, mem_covered_append, mem_ascend, up_eq]
  split
  · simp only [mem_covered, List.mem_singleton, exists_eq_left, Block.mem_iff, Nat.add_mul]
    omega
  · simp [mem_covered]

/-- The quotient of the last number before an end. -/
theorem pred_div_add_one {e : ℕ} (hpos : 0 < e) (m : ℕ) : (e - 1) / 2 ^ m + 1 = up e m := by
  have hsize : 0 < 2 ^ m := Nat.two_pow_pos m
  have hsum : e + (2 ^ m - 1) = e - 1 + 2 ^ m := by omega
  rw [up, hsum, Nat.add_div_right _ hsize]

theorem mem_rightHalf {e m : ℕ} (hpos : 0 < e) :
    x ∈ covered (rightHalf e m) ↔ (e - 1) / 2 ^ m * 2 ^ m ≤ x ∧ x < e := by
  have hsize : 0 < 2 ^ m := Nat.two_pow_pos m
  have hdecomposed : e / 2 ^ m * 2 ^ m + e % 2 ^ m = e := by
    rw [Nat.mul_comm]; exact Nat.div_add_mod e (2 ^ m)
  have hquotient := pred_div_add_one hpos m
  rw [up_eq] at hquotient
  rw [rightHalf, mem_covered_append, mem_descend]
  split at hquotient
  · rename_i hfull
    rw [← hquotient, Nat.add_sub_cancel, if_pos hfull]
    simp only [mem_covered, List.mem_singleton, exists_eq_left, Block.mem_iff]
    rw [← hquotient, Nat.add_mul] at hdecomposed
    rw [Nat.add_mul]
    omega
  · rename_i hpart
    rw [Nat.add_right_cancel hquotient, if_neg hpart]
    simp [mem_covered]

variable {a e m : ℕ}

theorem Straddles.pos (h : Straddles a e m) : 0 < e := by
  by_contra hzero
  have hnext := h.next
  rw [Nat.eq_zero_of_not_pos hzero, Nat.zero_sub, Nat.zero_div] at hnext
  exact Nat.succ_ne_zero _ hnext.symm

theorem mem_cut (h : Straddles a e m) : x ∈ covered (cut a e m) ↔ x ∈ Set.Ico a e := by
  have hlow : a < (a / 2 ^ m + 1) * 2 ^ m :=
    (Nat.div_lt_iff_lt_mul (Nat.two_pow_pos m)).mp (Nat.lt_succ_self _)
  have hhigh : (e - 1) / 2 ^ m * 2 ^ m ≤ e - 1 := Nat.div_mul_le_self _ _
  have hpos := h.pos
  rw [cut, mem_covered_append, mem_leftHalf, mem_rightHalf hpos, Set.mem_Ico]
  rw [h.next] at hhigh ⊢
  generalize (a / 2 ^ m + 1) * 2 ^ m = middle at hlow hhigh ⊢
  constructor
  · rintro (⟨hle, hlt⟩ | ⟨hle, hlt⟩)
    · exact ⟨hle, hlt.trans_le (by omega)⟩
    · exact ⟨by omega, hlt⟩
  · rintro ⟨hle, hlt⟩
    rcases Nat.lt_or_ge x middle with hx | hx
    · exact .inl ⟨hle, hx⟩
    · exact .inr ⟨hx, hlt⟩

theorem pairwise_leftHalf (a m : ℕ) : (leftHalf a m).Pairwise Before := by
  refine List.pairwise_append.mpr ⟨pairwise_ascend a m, ?_, fun b hb c hc y hy z hz ↦ ?_⟩
  · split <;> simp
  · split at hc
    · rename_i hfull
      rw [List.mem_singleton] at hc
      subst hc
      have hlt := (mem_ascend.mp ⟨b, hb, hy⟩).2
      rw [up_eq, if_pos hfull] at hlt
      exact hlt.trans_le (Block.mem_iff.mp hz).1
    · cases hc

theorem pairwise_rightHalf (e m : ℕ) : (rightHalf e m).Pairwise Before := by
  refine List.pairwise_append.mpr ⟨?_, pairwise_descend e m, fun b hb c hc y hy z hz ↦ ?_⟩
  · split <;> simp
  · split at hb
    · rename_i hfull
      rw [List.mem_singleton] at hb
      subst hb
      have hle := (mem_descend.mp ⟨c, hc, hz⟩).1
      have hlt := (Block.mem_iff.mp hy).2
      by_cases hzero : e / 2 ^ m = 0
      · have hnone : e = 0 := by
          have hdecomposed := Nat.div_add_mod e (2 ^ m)
          rw [hzero, hfull, Nat.mul_zero] at hdecomposed
          exact hdecomposed.symm
        exact absurd (mem_descend.mp ⟨c, hc, hz⟩).2 (hnone ▸ Nat.not_lt_zero _)
      · rw [Nat.sub_add_cancel (Nat.pos_of_ne_zero hzero)] at hlt
        exact hlt.trans_le hle
    · cases hb

theorem pairwise_cut (h : Straddles a e m) : (cut a e m).Pairwise Before := by
  refine List.pairwise_append.mpr
    ⟨pairwise_leftHalf a m, pairwise_rightHalf e m, fun b hb c hc y hy z hz ↦ ?_⟩
  have hlt := (mem_leftHalf.mp ⟨b, hb, hy⟩).2
  have hle := (mem_rightHalf h.pos |>.mp ⟨c, hc, hz⟩).1
  rw [h.next] at hle
  exact hlt.trans_le hle

/-- None of the blocks can be doubled. -/
theorem maximal_of_mem_cut (h : Straddles a e m) {b : Block} (hmem : b ∈ cut a e m) :
    b.Maximal (Set.Ico a e) := by
  refine ⟨fun x hx ↦ (mem_cut h).mp ⟨b, hmem, hx⟩, ?_⟩
  have heven := h.even
  have hquotient := pred_div_add_one h.pos m
  rw [h.next, up_eq] at hquotient
  simp only [cut, leftHalf, rightHalf, List.mem_append] at hmem
  rcases hmem with (hascend | hleft) | (hright | hdescend)
  · exact not_within_parent_of_ascend hascend
  · split at hleft
    · rename_i hfull
      rw [List.mem_singleton] at hleft
      subst hleft
      rw [if_neg fun hend ↦ h.notFull ⟨hfull, hend⟩] at hquotient
      -- Doubled, the lower half would take in the end of the interval.
      have hend : e ∈ Block.parent ⟨m, a / 2 ^ m⟩ := by
        rw [Block.mem_def, Block.parent, pow_succ, ← Nat.div_div_eq_div_mul]
        change e / 2 ^ m / 2 = a / 2 ^ m / 2
        omega
      exact fun hwithin ↦ Nat.lt_irrefl e (hwithin e hend).2
    · cases hleft
  · split at hright
    · rename_i hfull
      rw [List.mem_singleton] at hright
      subst hright
      rw [if_pos hfull] at hquotient
      have hpart : a % 2 ^ m ≠ 0 := fun hbegin ↦ h.notFull ⟨hbegin, hfull⟩
      -- Doubled, the upper half would take in what comes before the beginning.
      have hbefore : a / 2 ^ m * 2 ^ m ∈ Block.parent ⟨m, e / 2 ^ m - 1⟩ := by
        rw [Block.mem_def, Block.parent, pow_succ, ← Nat.div_div_eq_div_mul,
          Nat.mul_div_cancel _ (Nat.two_pow_pos m)]
        change a / 2 ^ m / 2 = (e / 2 ^ m - 1) / 2
        generalize a / 2 ^ m = k at heven hquotient
        omega
      have hlt : a / 2 ^ m * 2 ^ m < a := by
        have hdecomposed := Nat.div_add_mod a (2 ^ m)
        rw [Nat.mul_comm] at hdecomposed
        omega
      exact fun hwithin ↦ (hwithin _ hbefore).1.not_gt hlt
    · cases hright
  · exact not_within_parent_of_descend hdescend

end WindscribeVpn.Foundations.DyadicBlocks
