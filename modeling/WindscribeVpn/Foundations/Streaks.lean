import Mathlib.Order.Monotone.Basic
import Mathlib.Tactic.SplitIfs

/-!
# Streaks and last occurrences along a clock

A component that watches a sequence of readings often keeps two numbers in place of the sequence:
the time at which the current streak of readings of some kind began, and the time of the last
reading of another kind. This module says what the two numbers know about the sequence they stand
for. The readings are numbered from zero, `now` gives the time of each, and a predicate says of
which kind a reading is.

`streakSince` and `lastSince` are the two accumulators. `streakSince_long_iff` says that the streak
has lasted for a length of time exactly when the readings of some stretch of that length were all of
the kind, and `lastSince_long_iff` that the last occurrence is a length of time ago exactly when no
reading of that length of time was of the kind. Both need a clock that does not run backwards.
-/

set_option autoImplicit false
set_option relaxedAutoImplicit false

namespace WindscribeVpn.Foundations.Streaks

variable (kind : ℕ → Prop) [DecidablePred kind] (now : ℕ → ℕ)

/-- The time at which the current streak began, after the first `n` readings. -/
def streakSince : ℕ → Option ℕ
  | 0 => none
  | n + 1 => if kind n then some ((streakSince n).getD (now n)) else none

/-- The time of the last reading of a kind, after the first `n` readings; the time of the start
before there is one. -/
def lastSince (start : ℕ) : ℕ → ℕ
  | 0 => start
  | n + 1 => if kind n then now n else lastSince start n

/-- The readings from `i` to `n` are all of the kind. -/
def Throughout (i n : ℕ) : Prop := ∀ j, i ≤ j → j ≤ n → kind j

variable {kind now}

/-- The current streak began at a reading from which on all were of the kind. -/
theorem exists_of_streakSince {n since : ℕ} (hsince : streakSince kind now (n + 1) = some since) :
    ∃ i ≤ n, now i = since ∧ Throughout kind i n := by
  induction n generalizing since with
  | zero =>
    simp only [streakSince] at hsince
    split_ifs at hsince with hkind
    refine ⟨0, le_rfl, Option.some.inj hsince, fun j _ hj ↦ ?_⟩
    rwa [Nat.le_zero.mp hj]
  | succ n ih =>
    rw [streakSince] at hsince
    split_ifs at hsince with hkind
    have hfrom := Option.some.inj hsince
    cases hbefore : streakSince kind now (n + 1) with
    | none =>
      rw [hbefore, Option.getD_none] at hfrom
      refine ⟨n + 1, le_rfl, hfrom, fun j hlow hhigh ↦ ?_⟩
      rwa [le_antisymm hhigh hlow]
    | some earlier =>
      rw [hbefore, Option.getD_some] at hfrom
      obtain ⟨i, hle, htime, hall⟩ := ih hbefore
      refine ⟨i, Nat.le_succ_of_le hle, htime.trans hfrom, fun j hlow hhigh ↦ ?_⟩
      rcases Nat.lt_or_ge n j with hlast | hearlier
      · rwa [le_antisymm hhigh hlast]
      · exact hall j hlow hearlier

/-- A stretch of readings of the kind is part of the current streak. -/
theorem streakSince_le (hclock : Monotone now) {i n : ℕ} (hle : i ≤ n)
    (hall : Throughout kind i n) : ∃ since ≤ now i, streakSince kind now (n + 1) = some since := by
  induction n with
  | zero =>
    obtain rfl := Nat.le_zero.mp hle
    exact ⟨now 0, le_rfl, if_pos (hall 0 le_rfl le_rfl)⟩
  | succ n ih =>
    have hkind : kind (n + 1) := hall (n + 1) hle le_rfl
    rw [streakSince, if_pos hkind]
    refine ⟨_, ?_, rfl⟩
    rcases Nat.lt_or_ge n i with hnew | hold
    · cases hbefore : streakSince kind now (n + 1) with
      | none => exact (congrArg now (le_antisymm hle hnew)).ge
      | some earlier =>
        obtain ⟨k, hk, htime, -⟩ := exists_of_streakSince hbefore
        rw [Option.getD_some, ← htime]
        exact hclock (hk.trans hnew.le)
    · obtain ⟨since, hsince, heq⟩ := ih hold fun j hlow hhigh ↦
        hall j hlow (Nat.le_succ_of_le hhigh)
      rw [heq, Option.getD_some]
      exact hsince

variable (kind) in
/-- The streak has lasted for a length of time exactly when the readings of some stretch of that
length were all of the kind. -/
theorem streakSince_long_iff (hclock : Monotone now) (n length : ℕ) :
    (∃ since, streakSince kind now (n + 1) = some since ∧ length ≤ now n - since) ↔
      ∃ i ≤ n, length ≤ now n - now i ∧ Throughout kind i n := by
  constructor
  · rintro ⟨since, hsince, hlong⟩
    obtain ⟨i, hle, htime, hall⟩ := exists_of_streakSince hsince
    exact ⟨i, hle, htime ▸ hlong, hall⟩
  · rintro ⟨i, hle, hlong, hall⟩
    obtain ⟨since, hearly, hsince⟩ := streakSince_le hclock hle hall
    exact ⟨since, hsince, hlong.trans (Nat.sub_le_sub_left hearly (now n))⟩

variable (kind now) in
/-- The last occurrence is the start or a reading of the kind, and none after it is of the kind. -/
theorem lastSince_spec (start n : ℕ) :
    (lastSince kind now start n = start ∧ ∀ j < n, ¬ kind j) ∨
      ∃ i < n, lastSince kind now start n = now i ∧ kind i ∧ ∀ j < n, i < j → ¬ kind j := by
  induction n with
  | zero => exact Or.inl ⟨rfl, fun j hj ↦ absurd hj (Nat.not_lt_zero j)⟩
  | succ n ih =>
    rw [lastSince]
    split_ifs with hkind
    · refine Or.inr ⟨n, Nat.lt_succ_self n, rfl, hkind, fun j hj hlater ↦ ?_⟩
      exact absurd (Nat.le_of_lt_succ hj) (Nat.not_le_of_lt hlater)
    · rcases ih with ⟨hstart, hnone⟩ | ⟨i, hi, hlast, hof, hnone⟩
      · refine Or.inl ⟨hstart, fun j hj ↦ ?_⟩
        rcases Nat.lt_succ_iff_lt_or_eq.mp hj with hearlier | rfl
        · exact hnone j hearlier
        · exact hkind
      · refine Or.inr ⟨i, Nat.lt_succ_of_lt hi, hlast, hof, fun j hj hlater ↦ ?_⟩
        rcases Nat.lt_succ_iff_lt_or_eq.mp hj with hearlier | rfl
        · exact hnone j hearlier hlater
        · exact hkind

variable (kind) in
/-- The last occurrence is a length of time ago exactly when that much time has passed since the
start, and no reading of that length of time was of the kind. -/
theorem lastSince_long_iff (hclock : Monotone now) {start : ℕ} (hstart : start ≤ now 0)
    (n length : ℕ) :
    length ≤ now n - lastSince kind now start (n + 1) ↔
      length ≤ now n - start ∧ ∀ j ≤ n, now n < now j + length → ¬ kind j := by
  rcases lastSince_spec kind now start (n + 1) with
    ⟨hlast, hnone⟩ | ⟨i, hi, hlast, hof, hnone⟩
  · rw [hlast]
    exact ⟨fun hlong ↦ ⟨hlong, fun j hj _ ↦ hnone j (Nat.lt_succ_of_le hj)⟩, fun hboth ↦ hboth.1⟩
  · rw [hlast]
    have hin : i ≤ n := Nat.le_of_lt_succ hi
    constructor
    · intro hlong
      have hbefore : start ≤ now i := hstart.trans (hclock (Nat.zero_le i))
      refine ⟨hlong.trans (Nat.sub_le_sub_left hbefore (now n)), fun j hj hrecent hkind ↦ ?_⟩
      rcases Nat.lt_or_ge i j with hlater | hearlier
      · exact hnone j (Nat.lt_succ_of_le hj) hlater hkind
      · have horder : now j ≤ now i := hclock hearlier
        have hclose : now i ≤ now n := hclock hin
        omega
    · rintro ⟨-, hquiet⟩
      by_contra hshort
      have hclose : now i ≤ now n := hclock hin
      exact hquiet i hin (by omega) hof

end WindscribeVpn.Foundations.Streaks
