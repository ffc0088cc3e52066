import WindscribeVpn.Ikev2.Subnets

/-!
# Sets of ranges

`IPRangeSet` keeps ranges in a `TreeSet`. `add` merges the new range with the first range that it
can be merged with, takes that one out and starts again until there is none, and `remove` takes out
every range that changes and puts in what is left of it.

The ranges of a set stand in ascending order with room between them (`IPRangeSet.inOrder`), which
both operations keep. `add` then is the union and `remove` the difference (`holds_add`,
`holds_remove`), and a set of addresses is kept in one way only: whatever edits lead to the same
addresses lead to the same ranges (`run_spec`).
-/

set_option autoImplicit false
set_option relaxedAutoImplicit false

namespace WindscribeVpn.Ikev2

open Foundations Foundations.Intervals AddressBytes
open Backend.LanBypass (InetAddress)

namespace IPRangeSet

open IPRange (interval interval_fst interval_snd compareTo_isLE_iff compareTo_eq_eq_iff equals_iff)

/-- `TreeSet.add`, which leaves the set as it is when there is an equal range. -/
def insert (range : IPRange) : List IPRange → List IPRange
  | [] => [range]
  | existing :: rest =>
    match range.compareTo existing with
    | .lt => range :: existing :: rest
    | .eq => existing :: rest
    | .gt => existing :: insert range rest

/-- The first range that can be merged, with the others and what the merge makes of it. -/
def findMerge (range : IPRange) : List IPRange → Option (List IPRange × IPRange)
  | [] => none
  | existing :: rest =>
    match existing.merge range with
    | some replacement => some (rest, replacement)
    | none => (findMerge range rest).map fun found ↦ (existing :: found.1, found.2)

theorem length_findMerge {range replacement : IPRange} {ranges others : List IPRange}
    (hfound : findMerge range ranges = some (others, replacement)) :
    others.length < ranges.length := by
  induction ranges generalizing others with
  | nil => cases hfound
  | cons existing rest ih =>
    rw [findMerge] at hfound
    cases hmerge : existing.merge range with
    | some merged =>
      rw [hmerge] at hfound
      cases hfound
      exact Nat.lt_succ_self _
    | none =>
      rw [hmerge] at hfound
      obtain ⟨found, hrest, hpair⟩ := Option.map_eq_some_iff.mp hfound
      cases hpair
      exact Nat.succ_lt_succ (ih hrest)

/-- The loop of `add`. -/
def reinsert (ranges : List IPRange) (range : IPRange) : List IPRange :=
  match _hfound : findMerge range ranges with
  | none => insert range ranges
  | some (others, replacement) => reinsert others replacement
termination_by ranges.length
decreasing_by exact length_findMerge _hfound

/-- `add`, on the ranges of a set. -/
def addRange (ranges : List IPRange) (range : IPRange) : List IPRange :=
  if ranges.any fun existing ↦ range.compareTo existing == .eq then ranges
  else reinsert ranges range

/-- The loop of `remove`: the ranges that stay and those that are put in afterwards. -/
def removeLoop (range : IPRange) : List IPRange → List IPRange × List IPRange
  | [] => ([], [])
  | existing :: rest =>
    let (kept, additions) := removeLoop range rest
    match existing.remove range with
    | [] => (kept, additions)
    | first :: others =>
      if first.equals existing then (existing :: kept, additions)
      else (kept, first :: others ++ additions)

/-- `remove`, on the ranges of a set. -/
def removeRange (ranges : List IPRange) (range : IPRange) : List IPRange :=
  let (kept, additions) := removeLoop range ranges
  additions.foldl (fun set addition ↦ insert addition set) kept

/-! ### Ranges in order -/

variable {r s t : IPRange} {ranges : List IPRange}

/-- The places of the ranges of a list. -/
abbrev places (ranges : List IPRange) : Set ℕ := covered (ranges.map interval)

/-- The ranges are in order, with room between them. -/
abbrev InOrder (ranges : List IPRange) : Prop := Separated (ranges.map interval)

theorem mem_places {x : ℕ} : x ∈ places ranges ↔ ∃ r ∈ ranges, x ∈ r.interval := by
  simp [places, mem_covered]

theorem inOrder_cons : InOrder (r :: ranges) ↔
    (∀ s ∈ ranges, Apart r.interval s.interval) ∧ InOrder ranges := by
  rw [InOrder, List.map_cons, separated_cons, List.forall_mem_map]

theorem mem_insert : t ∈ insert r ranges ↔ t = r ∨ t ∈ ranges := by
  induction ranges with
  | nil => simp [insert]
  | cons existing rest ih =>
    rw [insert]
    cases hcmp : r.compareTo existing with
    | lt => simp
    | eq =>
      cases compareTo_eq_eq_iff.mp hcmp
      simp
    | gt =>
      simp only [List.mem_cons, ih]
      exact or_left_comm

/-- A range with room around it is put in its place. -/
theorem inOrder_insert (horder : InOrder ranges)
    (hclear : ∀ s ∈ ranges, Clear r.interval s.interval) : InOrder (insert r ranges) := by
  induction ranges with
  | nil => exact List.pairwise_singleton _ _
  | cons existing rest ih =>
    obtain ⟨hfirst, hrest⟩ := inOrder_cons.mp horder
    have hexisting := hclear existing List.mem_cons_self
    rw [insert]
    cases hcmp : r.compareTo existing with
    | lt =>
      have hle : r.interval.fst ≤ existing.interval.fst := by
        have hcmp' := compareTo_isLE_iff (r := r) (s := existing)
        rw [hcmp] at hcmp'
        have hless := hcmp'.mp rfl
        simp only [interval_fst]
        omega
      have hnext := hexisting.apart_of_fst_le hle
      refine inOrder_cons.mpr ⟨fun s hs ↦ ?_, horder⟩
      rcases List.mem_cons.mp hs with rfl | hs
      · exact hnext
      · exact hnext.trans (hfirst s hs)
    | eq => exact horder
    | gt =>
      have hle : existing.interval.fst ≤ r.interval.fst := by
        have hcmp' := compareTo_isLE_iff (r := r) (s := existing)
        rw [hcmp] at hcmp'
        simp only [Ordering.isLE_gt, Bool.false_eq_true, false_iff] at hcmp'
        simp only [interval_fst]
        omega
      have hnext := hexisting.symm.apart_of_fst_le hle
      refine inOrder_cons.mpr
        ⟨fun s hs ↦ ?_, ih hrest fun s hs ↦ hclear s (List.mem_cons_of_mem _ hs)⟩
      rcases mem_insert.mp hs with rfl | hs
      · exact hnext
      · exact hfirst s hs

theorem mem_places_insert {x : ℕ} :
    x ∈ places (insert r ranges) ↔ x ∈ r.interval ∨ x ∈ places ranges := by
  simp only [mem_places, mem_insert, or_and_right, exists_or, exists_eq_left]

/-! ### `add` is the union -/

/-- When no range can be merged there is room around the new one. -/
theorem clear_of_findMerge_eq_none (hnone : findMerge r ranges = none) :
    ∀ s ∈ ranges, Clear r.interval s.interval := by
  induction ranges with
  | nil => exact fun s hs ↦ by cases hs
  | cons existing rest ih =>
    rw [findMerge] at hnone
    cases hmerge : existing.merge r with
    | some merged => rw [hmerge] at hnone; cases hnone
    | none =>
      rw [hmerge] at hnone
      intro s hs
      rcases List.mem_cons.mp hs with rfl | hs
      · exact (IPRange.merge_eq_none_iff.mp hmerge).symm
      · exact ih (Option.map_eq_none_iff.mp hnone) s hs

/-- What a merge takes out and what it makes of it. -/
theorem findMerge_eq_some {replacement : IPRange} {others : List IPRange}
    (hfound : findMerge r ranges = some (others, replacement)) :
    others.Sublist ranges ∧ ∀ x, (x ∈ replacement.interval ∨ x ∈ places others) ↔
      x ∈ r.interval ∨ x ∈ places ranges := by
  induction ranges generalizing others with
  | nil => cases hfound
  | cons existing rest ih =>
    rw [findMerge] at hfound
    cases hmerge : existing.merge r with
    | some merged =>
      rw [hmerge] at hfound
      cases hfound
      refine ⟨List.sublist_cons_self _ _, fun x ↦ ?_⟩
      have hnear : ¬ Clear existing.interval r.interval := fun hclear ↦ by
        rw [IPRange.merge_eq_none_iff.mpr hclear] at hmerge
        cases hmerge
      rw [IPRange.interval_of_merge hmerge, mem_sup_iff hnear, places, places, List.map_cons,
        mem_covered_cons]
      tauto
    | none =>
      rw [hmerge] at hfound
      obtain ⟨found, hrest, hpair⟩ := Option.map_eq_some_iff.mp hfound
      cases hpair
      obtain ⟨hsublist, hplaces⟩ := ih hrest
      refine ⟨hsublist.cons_cons _, fun x ↦ ?_⟩
      have hx := hplaces x
      rw [places, places, List.map_cons, List.map_cons, mem_covered_cons, mem_covered_cons]
      tauto

theorem InOrder.sublist {others : List IPRange} (horder : InOrder ranges)
    (hsublist : others.Sublist ranges) : InOrder others :=
  List.Pairwise.sublist (hsublist.map _) horder

theorem reinsert_spec (horder : InOrder ranges) : InOrder (reinsert ranges r) ∧
    ∀ x, x ∈ places (reinsert ranges r) ↔ x ∈ r.interval ∨ x ∈ places ranges := by
  induction ranges, r using reinsert.induct with
  | case1 ranges range hnone =>
    rw [reinsert, hnone]
    exact ⟨inOrder_insert horder (clear_of_findMerge_eq_none hnone), fun x ↦ mem_places_insert⟩
  | case2 ranges range others replacement hfound ih =>
    obtain ⟨hsublist, hplaces⟩ := findMerge_eq_some hfound
    obtain ⟨horder', hplaces'⟩ := ih (horder.sublist hsublist)
    rw [reinsert, hfound]
    exact ⟨horder', fun x ↦ (hplaces' x).trans (hplaces x)⟩

theorem addRange_spec (horder : InOrder ranges) : InOrder (addRange ranges r) ∧
    ∀ x, x ∈ places (addRange ranges r) ↔ x ∈ r.interval ∨ x ∈ places ranges := by
  rw [addRange]
  split
  · rename_i hany
    obtain ⟨existing, hmem, hequal⟩ := List.any_eq_true.mp hany
    rw [beq_iff_eq, compareTo_eq_eq_iff] at hequal
    refine ⟨horder, fun x ↦ ⟨.inr, ?_⟩⟩
    rintro (hx | hx)
    · exact mem_places.mpr ⟨existing, hmem, hequal ▸ hx⟩
    · exact hx
  · exact reinsert_spec horder

/-! ### `remove` is the difference -/

/-- A range whose first rest is equal to it has not changed. -/
theorem remove_eq_of_first {first : IPRange} {others : List IPRange}
    (hremove : r.remove s = first :: others) (hfirst : first = r) : r.remove s = [r] := by
  subst hfirst
  cases others with
  | nil => exact hremove
  | cons second others =>
    have hpairwise := IPRange.pairwise_remove first s
    rw [hremove] at hpairwise
    have happart := (List.pairwise_cons.mp hpairwise).1 second List.mem_cons_self
    have hle : second.interval ≤ first.interval :=
      IPRange.interval_le_of_mem_remove (s := s) (hremove ▸ by simp)
    have hsnd := (NonemptyInterval.le_def.mp hle).2
    exact absurd (happart.snd_lt_fst.trans_le second.interval.fst_le_snd) hsnd.not_gt

/-- The ranges that stay and those that are put in are what is left of the ranges. -/
theorem removeLoop_perm (s : IPRange) (ranges : List IPRange) :
    ((removeLoop s ranges).1 ++ (removeLoop s ranges).2).Perm
      (ranges.flatMap fun r ↦ r.remove s) := by
  induction ranges with
  | nil => exact .nil
  | cons existing rest ih =>
    rw [removeLoop, List.flatMap_cons]
    cases hremove : existing.remove s with
    | nil => exact ih
    | cons first others =>
      dsimp only
      split
      · rename_i hequal
        have hsame := remove_eq_of_first hremove (equals_iff.mp hequal)
        rw [hremove] at hsame
        rw [hsame]
        exact ih.cons _
      · refine List.Perm.trans ?_ (ih.append_left (first :: others))
        rw [← List.append_assoc, ← List.append_assoc]
        exact List.Perm.append_right _ List.perm_append_comm

theorem removeLoop_sublist (s : IPRange) (ranges : List IPRange) :
    (removeLoop s ranges).1.Sublist ranges := by
  induction ranges with
  | nil => exact .slnil
  | cons existing rest ih =>
    rw [removeLoop]
    cases hremove : existing.remove s with
    | nil => exact ih.cons _
    | cons first others =>
      dsimp only
      split
      · exact ih.cons_cons _
      · exact ih.cons _

/-- What is left of ranges in order is in order. -/
theorem inOrder_flatMap_remove (horder : InOrder ranges) (s : IPRange) :
    InOrder (ranges.flatMap fun r ↦ r.remove s) := by
  rw [InOrder, Separated, List.pairwise_map, List.pairwise_flatMap]
  refine ⟨fun r _ ↦ IPRange.pairwise_remove r s, (List.pairwise_map.mp horder).imp ?_⟩
  intro r t happart u hu v hv
  exact happart.mono (IPRange.interval_le_of_mem_remove hu) (IPRange.interval_le_of_mem_remove hv)

/-- A range with room around it is put in without taking the place of an equal one. -/
theorem insert_perm (hclear : ∀ s ∈ ranges, Clear r.interval s.interval) :
    (insert r ranges).Perm (r :: ranges) := by
  induction ranges with
  | nil => exact .refl _
  | cons existing rest ih =>
    rw [insert]
    cases hcmp : r.compareTo existing with
    | lt => exact .refl _
    | eq =>
      cases compareTo_eq_eq_iff.mp hcmp
      have hself := hclear r List.mem_cons_self
      exact (hself.elim (fun h ↦ h.asymm h) fun h ↦ h.asymm h).elim
    | gt =>
      exact ((ih fun s hs ↦ hclear s (List.mem_cons_of_mem _ hs)).cons existing).trans
        (List.Perm.swap r existing rest)

/-- Ranges with room between them are put into a set one after the other. -/
theorem foldl_insert_spec {kept additions : List IPRange} (horder : InOrder kept)
    (hclear : (kept ++ additions).Pairwise fun r s ↦ Clear r.interval s.interval) :
    InOrder (additions.foldl (fun set addition ↦ insert addition set) kept) ∧
      (additions.foldl (fun set addition ↦ insert addition set) kept).Perm
        (kept ++ additions) := by
  induction additions generalizing kept with
  | nil => exact ⟨horder, by simp⟩
  | cons addition rest ih =>
    obtain ⟨-, -, hbetween⟩ := List.pairwise_append.mp hclear
    have haround : ∀ s ∈ kept, Clear addition.interval s.interval := fun s hs ↦
      (hbetween s hs addition List.mem_cons_self).symm
    have hperm : (insert addition kept ++ rest).Perm (kept ++ addition :: rest) :=
      ((insert_perm haround).append_right rest).trans List.perm_middle.symm
    obtain ⟨horder', hperm'⟩ := ih (inOrder_insert horder haround)
      ((hperm.pairwise_iff fun {_ _} h ↦ h.symm).mpr hclear)
    exact ⟨horder', hperm'.trans hperm⟩

/-- Ranges in order are determined by their places. -/
theorem eq_of_places_eq {others : List IPRange} (horder : InOrder ranges) (horder' : InOrder others)
    (heq : places ranges = places others) : ranges = others :=
  List.map_injective_iff.mpr (fun _ _ h ↦ IPRange.eq_of_interval_eq h)
    (eq_of_covered_eq horder horder' heq)

/-- Removing a range replaces every range by what is left of it. -/
theorem removeRange_eq (horder : InOrder ranges) (s : IPRange) :
    removeRange ranges s = ranges.flatMap fun r ↦ r.remove s := by
  have hleft := inOrder_flatMap_remove horder s
  have hperm := removeLoop_perm s ranges
  have hclear : ((removeLoop s ranges).1 ++ (removeLoop s ranges).2).Pairwise
      fun r t ↦ Clear r.interval t.interval :=
    (hperm.pairwise_iff fun {_ _} h ↦ h.symm).mpr
      ((List.pairwise_map.mp hleft).imp fun h ↦ .inl h)
  obtain ⟨horder', hperm'⟩ := foldl_insert_spec (horder.sublist (removeLoop_sublist s ranges)) hclear
  have hsame : (removeRange ranges s).Perm (ranges.flatMap fun r ↦ r.remove s) := hperm'.trans hperm
  refine eq_of_places_eq horder' hleft (Set.ext fun x ↦ ?_)
  simp only [mem_places, hsame.mem_iff]

theorem mem_places_removeRange (horder : InOrder ranges) {x : ℕ} :
    x ∈ places (removeRange ranges r) ↔ x ∈ places ranges ∧ x ∉ r.interval := by
  rw [removeRange_eq horder]
  simp only [mem_places, List.mem_flatMap]
  constructor
  · rintro ⟨t, ⟨s, hs, ht⟩, hx⟩
    obtain ⟨hin, hout⟩ := IPRange.exists_mem_remove_iff.mp ⟨t, ht, hx⟩
    exact ⟨⟨s, hs, hin⟩, hout⟩
  · rintro ⟨⟨s, hs, hin⟩, hout⟩
    obtain ⟨t, ht, hx⟩ := IPRange.exists_mem_remove_iff.mpr ⟨hin, hout⟩
    exact ⟨t, ⟨s, hs, ht⟩, hx⟩

end IPRangeSet

/-! ### The sets -/

/-- `IPRangeSet`. -/
structure IPRangeSet where
  mRanges : List IPRange
  inOrder : IPRangeSet.InOrder mRanges

namespace IPRangeSet

/-- A new set. -/
def empty : IPRangeSet := ⟨[], .nil⟩

/-- `add`. -/
def add (set : IPRangeSet) (range : IPRange) : IPRangeSet :=
  ⟨addRange set.mRanges range, (addRange_spec set.inOrder).1⟩

/-- `addAll`, and `add` of the ranges of another set. -/
def addAll (set : IPRangeSet) (coll : List IPRange) : IPRangeSet := coll.foldl add set

/-- `remove`. -/
def remove (set : IPRangeSet) (range : IPRange) : IPRangeSet :=
  ⟨removeRange set.mRanges range, by
    rw [removeRange_eq set.inOrder]
    exact inOrder_flatMap_remove set.inOrder range⟩

/-- `remove` of the ranges of another set. -/
def removeAll (set : IPRangeSet) (coll : List IPRange) : IPRangeSet := coll.foldl remove set

/-- `size`. -/
def size (set : IPRangeSet) : ℕ := set.mRanges.length

/-- An address lies in one of the ranges. -/
def Holds (set : IPRangeSet) (d : InetAddress) : Prop := ∃ r ∈ set.mRanges, r.Holds d

variable {set : IPRangeSet} {range r s t : IPRange} {d : InetAddress} {coll ranges : List IPRange}

theorem holds_iff : set.Holds d ↔ place (IPRange.getAddress d) ∈ places set.mRanges := by
  simp only [Holds, IPRange.holds_iff, mem_places]

theorem holds_add : (set.add range).Holds d ↔ set.Holds d ∨ range.Holds d := by
  rw [holds_iff, holds_iff, IPRange.holds_iff, add, (addRange_spec set.inOrder).2, or_comm]

theorem holds_remove : (set.remove range).Holds d ↔ set.Holds d ∧ ¬ range.Holds d := by
  rw [holds_iff, holds_iff, IPRange.holds_iff, remove, mem_places_removeRange set.inOrder]

theorem holds_addAll : (set.addAll coll).Holds d ↔ set.Holds d ∨ ∃ r ∈ coll, r.Holds d := by
  induction coll generalizing set with
  | nil => simp [addAll]
  | cons r coll ih =>
    have hstep := @ih (set.add r)
    rw [holds_add] at hstep
    rw [addAll, List.foldl_cons, ← addAll, hstep]
    simp [or_assoc]

theorem holds_removeAll :
    (set.removeAll coll).Holds d ↔ set.Holds d ∧ ∀ r ∈ coll, ¬ r.Holds d := by
  induction coll generalizing set with
  | nil => simp [removeAll]
  | cons r coll ih =>
    have hstep := @ih (set.remove r)
    rw [holds_remove] at hstep
    rw [removeAll, List.foldl_cons, ← removeAll, hstep]
    simp [and_assoc]

/-- A set is determined by its addresses. -/
theorem eq_of_holds_iff {other : IPRangeSet} (heq : ∀ d, set.Holds d ↔ other.Holds d) :
    set.mRanges = other.mRanges := by
  refine eq_of_places_eq set.inOrder other.inOrder (Set.ext fun x ↦ ?_)
  simp only [holds_iff] at heq
  constructor
  · intro hx
    obtain ⟨r, _, hmem⟩ := mem_places.mp hx
    obtain ⟨d, rfl⟩ := IPRange.exists_address hmem
    exact (heq d).mp hx
  · intro hx
    obtain ⟨r, _, hmem⟩ := mem_places.mp hx
    obtain ⟨d, rfl⟩ := IPRange.exists_address hmem
    exact (heq d).mpr hx

/-- Adding a set to itself, which the source skips, would change nothing. -/
theorem addAll_self (set : IPRangeSet) : (set.addAll set.mRanges).mRanges = set.mRanges := by
  refine eq_of_holds_iff fun d ↦ ?_
  rw [holds_addAll, Holds, or_self]

/-- Removing a set from itself, for which the source clears the set, would leave nothing. -/
theorem removeAll_self (set : IPRangeSet) : (set.removeAll set.mRanges).mRanges = [] := by
  refine @eq_of_holds_iff _ empty fun d ↦ ?_
  rw [holds_removeAll, Holds, Holds]
  refine iff_of_false (fun h ↦ ?_) (fun h ↦ ?_)
  · obtain ⟨⟨r, hr, hholds⟩, hnone⟩ := h
    exact hnone r hr hholds
  · obtain ⟨r, hr, _⟩ := h
    cases hr

/-! ### The subnets of a set -/

/-- `subnets`, gone through to the end. -/
def subnets (set : IPRangeSet) : Option (List IPRange) :=
  (set.mRanges.mapM IPRange.toSubnets).map List.flatten

/-- Subnets cover the addresses of a set and no others. -/
def Covers (set : IPRangeSet) (list : List IPRange) : Prop :=
  ∀ d, (∃ s ∈ list, s.Holds d) ↔ set.Holds d

/-- What `subnets` gives: subnets that cover the set, in ascending order without a common address,
and no other subnets that cover it are fewer. -/
structure SplitsInto (set : IPRangeSet) (list : List IPRange) : Prop where
  subnets : ∀ s ∈ list, s.getPrefix.isSome
  covers : set.Covers list
  ordered : list.Pairwise fun s t ↦ compareAddr s.mTo t.mFrom = .lt
  fewest : ∀ others : List IPRange, (∀ t ∈ others, t.getPrefix.isSome) → set.Covers others →
    list.length ≤ others.length

theorem covers_iff {list : List IPRange} :
    set.Covers list ↔ ∀ x, (∃ s ∈ list, x ∈ s.interval) ↔ x ∈ places set.mRanges := by
  constructor
  · intro hcovers x
    constructor
    · rintro ⟨s, hs, hx⟩
      obtain ⟨d, rfl⟩ := IPRange.exists_address hx
      exact holds_iff.mp ((hcovers d).mp ⟨s, hs, IPRange.holds_iff.mpr hx⟩)
    · intro hx
      obtain ⟨r, _, hr⟩ := mem_places.mp hx
      obtain ⟨d, rfl⟩ := IPRange.exists_address hr
      obtain ⟨s, hs, hholds⟩ := (hcovers d).mpr (holds_iff.mpr hx)
      exact ⟨s, hs, IPRange.holds_iff.mp hholds⟩
  · intro hplaces d
    simp only [holds_iff, IPRange.holds_iff]
    exact hplaces _

/-- The subnets of a range, which `toSubnets` always gives. -/
def subnetsOf (r : IPRange) : List IPRange := r.toSubnets.getD []

theorem toSubnets_eq (r : IPRange) :
    r.toSubnets = some (subnetsOf r) ∧ r.SplitsInto (subnetsOf r) := by
  obtain ⟨list, hlist, hsplits⟩ := r.toSubnets_splits
  have hsame : subnetsOf r = list := by rw [subnetsOf, hlist, Option.getD_some]
  exact ⟨hsame ▸ hlist, hsame ▸ hsplits⟩

theorem subnets_eq (set : IPRangeSet) : set.subnets = some (set.mRanges.flatMap subnetsOf) := by
  have hpure : IPRange.toSubnets = fun r ↦ some (subnetsOf r) := funext fun r ↦ (toSubnets_eq r).1
  rw [subnets, hpure]
  have hmap : set.mRanges.mapM (fun r ↦ some (subnetsOf r)) = some (set.mRanges.map subnetsOf) :=
    List.mapM_pure
  rw [hmap, Option.map_some, List.flatten_eq_flatMap, List.flatMap_map]
  rfl

theorem mem_places_flatMap {x : ℕ} :
    (∃ s ∈ ranges.flatMap subnetsOf, x ∈ s.interval) ↔ x ∈ places ranges := by
  simp only [mem_places, List.mem_flatMap]
  constructor
  · rintro ⟨s, ⟨r, hr, hs⟩, hx⟩
    exact ⟨r, hr, ((toSubnets_eq r).2.covers x).mp ⟨s, hs, hx⟩⟩
  · rintro ⟨r, hr, hx⟩
    obtain ⟨s, hs, hx'⟩ := ((toSubnets_eq r).2.covers x).mpr hx
    exact ⟨s, ⟨r, hr, hs⟩, hx'⟩

/-- A subnet is a part of its range. -/
theorem interval_le_of_mem_subnetsOf (hmem : s ∈ subnetsOf r) : s.interval ≤ r.interval := by
  rw [← NonemptyInterval.coe_subset_coe]
  exact fun x hx ↦ ((toSubnets_eq r).2.covers x).mp ⟨s, hmem, hx⟩

theorem ordered_flatMap (horder : InOrder ranges) :
    (ranges.flatMap subnetsOf).Pairwise fun s t ↦ place s.mTo < place t.mFrom := by
  rw [List.pairwise_flatMap]
  refine ⟨fun r _ ↦ (toSubnets_eq r).2.ordered, (List.pairwise_map.mp horder).imp ?_⟩
  intro r t happart s hs u hu
  exact (happart.mono (interval_le_of_mem_subnetsOf hs)
    (interval_le_of_mem_subnetsOf hu)).snd_lt_fst

/-- A subnet inside a set is a part of the subnet of the set that it meets. -/
theorem le_of_meets (horder : InOrder ranges) (hmem : s ∈ ranges.flatMap subnetsOf)
    (hsubnet : t.getPrefix.isSome) (hwithin : ∀ x ∈ t.interval, x ∈ places ranges) {x : ℕ}
    (hxt : x ∈ t.interval) (hxs : x ∈ s.interval) : t.interval ≤ s.interval := by
  obtain ⟨r, hr, hsr⟩ := List.mem_flatMap.mp hmem
  have hin : x ∈ r.interval := ((toSubnets_eq r).2.covers x).mp ⟨s, hsr, hxs⟩
  have hle : t.interval ≤ r.interval :=
    le_of_mem_covered horder (List.mem_map_of_mem hr) hwithin hxt hin
  rw [← NonemptyInterval.coe_subset_coe]
  exact fun y hy ↦ (toSubnets_eq r).2.absorbs hsr hsubnet hle hxt hxs hy

/-- The subnets of a set are the fewest. -/
theorem subnets_splits (set : IPRangeSet) :
    ∃ list, set.subnets = some list ∧ set.SplitsInto list := by
  have hcovers : set.Covers (set.mRanges.flatMap subnetsOf) :=
    covers_iff.mpr fun _ ↦ mem_places_flatMap
  have hordered := ordered_flatMap set.inOrder
  refine ⟨_, set.subnets_eq, fun s hs ↦ ?_, hcovers, hordered.imp fun {s t} hlt ↦ ?_,
    fun others hothers hsame ↦ ?_⟩
  · obtain ⟨r, _, hs⟩ := List.mem_flatMap.mp hs
    exact ((toSubnets_eq r).2.subnets s hs).2
  · exact (compareAddr_eq_lt_iff s.family_to t.fits.family).mpr hlt
  · have hfirst : ∀ s : IPRange, place s.mFrom ∈ s.interval := fun s ↦
      IPRange.mem_interval.mpr ⟨le_rfl, s.place_le⟩
    refine @DyadicBlocks.length_le_of_absorbing _ _ _ _ (fun s : IPRange ↦ {x | x ∈ s.interval})
      (fun s ↦ place s.mFrom) hfirst (hordered.imp fun {s t} hlt ↦ ?_) fun s hs ↦ ?_
    · refine Set.disjoint_left.mpr fun x hx hx' ↦ ?_
      have hs := (IPRange.mem_interval.mp hx).2
      have ht := (IPRange.mem_interval.mp hx').1
      omega
    · have hplaces := covers_iff.mp hsame
      obtain ⟨t, ht, hmeets⟩ := (hplaces _).mpr (mem_places_flatMap.mp ⟨s, hs, hfirst s⟩)
      have hle : t.interval ≤ s.interval := le_of_meets set.inOrder hs (hothers t ht)
        (fun x hx ↦ (hplaces x).mp ⟨t, ht, hx⟩) hmeets (hfirst s)
      exact ⟨t, ht, hmeets, fun y hy ↦ NonemptyInterval.coe_subset_coe.mpr hle hy⟩

/-! ### Any edits -/

/-- What is done to a set. -/
inductive Edit
  | add (range : IPRange)
  | addAll (coll : List IPRange)
  | remove (range : IPRange)
  | removeAll (coll : List IPRange)

/-- An edit of a set. -/
def Edit.apply (set : IPRangeSet) : Edit → IPRangeSet
  | .add range => set.add range
  | .addAll coll => set.addAll coll
  | .remove range => set.remove range
  | .removeAll coll => set.removeAll coll

/-- The addresses that an edit is to leave. -/
def Edit.intended (addresses : Set InetAddress) : Edit → Set InetAddress
  | .add range => {d | d ∈ addresses ∨ range.Holds d}
  | .addAll coll => {d | d ∈ addresses ∨ ∃ r ∈ coll, r.Holds d}
  | .remove range => {d | d ∈ addresses ∧ ¬ range.Holds d}
  | .removeAll coll => {d | d ∈ addresses ∧ ∀ r ∈ coll, ¬ r.Holds d}

/-- A set after some edits. -/
def run (edits : List Edit) : IPRangeSet := edits.foldl Edit.apply empty

/-- The addresses that the edits are to leave, from none. -/
def intended (edits : List Edit) : Set InetAddress := edits.foldl Edit.intended ∅

/-- The set has the addresses that the edits are to leave. -/
theorem holds_run_iff (edits : List Edit) (d : InetAddress) :
    (run edits).Holds d ↔ d ∈ intended edits := by
  have hfold : ∀ (set : IPRangeSet) (addresses : Set InetAddress),
      (∀ d, set.Holds d ↔ d ∈ addresses) →
      ∀ d, (edits.foldl Edit.apply set).Holds d ↔ d ∈ edits.foldl Edit.intended addresses := by
    induction edits with
    | nil => exact fun set addresses hsame ↦ hsame
    | cons edit rest ih =>
      intro set addresses hsame
      refine ih _ _ fun d ↦ ?_
      cases edit with
      | add range => exact holds_add.trans (or_congr_left (hsame d))
      | addAll coll => exact holds_addAll.trans (or_congr_left (hsame d))
      | remove range => exact holds_remove.trans (and_congr_left' (hsame d))
      | removeAll coll => exact holds_removeAll.trans (and_congr_left' (hsame d))
  refine hfold empty ∅ (fun d ↦ ?_) d
  simp [Holds, empty]

/-- A set has the addresses that its edits are to leave, and edits lead to the same ranges exactly
when they are to leave the same addresses. -/
theorem run_spec (edits : List Edit) : (∀ d, (run edits).Holds d ↔ d ∈ intended edits) ∧
    ∀ others, (run edits).mRanges = (run others).mRanges ↔ intended edits = intended others := by
  refine ⟨holds_run_iff edits, fun others ↦ ⟨fun heq ↦ ?_, fun heq ↦ ?_⟩⟩
  · ext d
    rw [← holds_run_iff, ← holds_run_iff, Holds, Holds, heq]
  · refine eq_of_holds_iff fun d ↦ ?_
    rw [holds_run_iff, holds_run_iff, heq]

end IPRangeSet

end WindscribeVpn.Ikev2
