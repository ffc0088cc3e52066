import Mathlib.Order.Lattice.Nat
import WindscribeVpn.Backend.LanBypass
import WindscribeVpn.Foundations.Intervals
import WindscribeVpn.Foundations.Texts
import WindscribeVpn.Ikev2.AddressBytes

/-!
# Ranges of addresses

`IPRange` is a range of IPv4 or of IPv6 addresses, which need not be a subnet. A range has the bytes
of its first and of its last address and the prefix that `determinePrefix` finds for them, and it
carries the proof that the two are of one family and in order, so that no operation has to look
after it again.

A range is an interval of places (`IPRange.interval`), and the operations are those on intervals:
two ranges that `merge` joins have no room between them and become their supremum, others have a
place between them (`merge_eq_none_iff`, `interval_of_merge`), and `remove` leaves what is on the
two sides of the other range (`exists_mem_remove_iff`, `pairwise_remove`).
-/

set_option autoImplicit false
set_option relaxedAutoImplicit false

namespace WindscribeVpn.Ikev2

open Foundations Foundations.Intervals AddressBytes
open Backend.LanBypass (InetAddress)

/-- Bytes of two addresses of one family in order. -/
structure Fits (mFrom mTo : Bytes) : Prop where
  family : OfFamily mFrom
  length_eq : mFrom.length = mTo.length
  ordered : compareAddr mFrom mTo ≠ .gt

/-- `IPRange`. -/
@[ext] structure IPRange where
  mFrom : Bytes
  mTo : Bytes
  mPrefix : Option ℕ
  fits : Fits mFrom mTo
  prefix_eq : mPrefix = determinePrefix mFrom mTo

namespace IPRange

/-- The private constructor. -/
def ofBounds (mFrom mTo : Bytes) (fits : Fits mFrom mTo) : IPRange :=
  ⟨mFrom, mTo, determinePrefix mFrom mTo, fits, rfl⟩

/-- `getPrefix`. -/
def getPrefix (self : IPRange) : Option ℕ := self.mPrefix

/-- `contains`. -/
def contains (self range : IPRange) : Bool :=
  (compareAddr self.mFrom range.mFrom).isLE && (compareAddr range.mTo self.mTo).isLE

/-- `overlaps`. -/
def overlaps (self range : IPRange) : Bool :=
  !(compareAddr self.mTo range.mFrom == .lt || compareAddr range.mTo self.mFrom == .lt)

/-- `adjacent`. -/
def adjacent (self range : IPRange) : Bool :=
  if compareAddr self.mTo range.mFrom = .lt then compareAddr (inc self.mTo) range.mFrom == .eq
  else compareAddr (dec self.mFrom) range.mTo == .eq

/-- `compareTo`. -/
def compareTo (self other : IPRange) : Ordering :=
  match compareAddr self.mFrom other.mFrom with
  | .eq => compareAddr self.mTo other.mTo
  | cmp => cmp

/-- `equals`, of ranges. -/
def equals (self other : IPRange) : Bool := self.compareTo other == .eq

/-! ### A range is an interval of places -/

variable {r s t : IPRange}

theorem family_to (r : IPRange) : OfFamily r.mTo := by
  have hfamily := r.fits.family
  rwa [OfFamily, r.fits.length_eq] at hfamily

theorem place_le (r : IPRange) : place r.mFrom ≤ place r.mTo := by
  have hordered := r.fits.ordered
  rwa [ne_eq, compareAddr_eq_gt_iff r.fits.family r.family_to, Nat.not_lt] at hordered

/-- The places from the first address to the last. -/
def interval (r : IPRange) : NonemptyInterval ℕ := ⟨(place r.mFrom, place r.mTo), r.place_le⟩

@[simp] theorem interval_fst (r : IPRange) : r.interval.fst = place r.mFrom := rfl

@[simp] theorem interval_snd (r : IPRange) : r.interval.snd = place r.mTo := rfl

theorem mem_interval {x : ℕ} : x ∈ r.interval ↔ place r.mFrom ≤ x ∧ x ≤ place r.mTo := Iff.rfl

/-- A range is determined by its places. -/
theorem eq_of_interval_eq (heq : r.interval = s.interval) : r = s := by
  have hfrom : r.mFrom = s.mFrom :=
    place_inj r.fits.family s.fits.family (congrArg (fun i ↦ i.fst) heq)
  have hto : r.mTo = s.mTo := place_inj r.family_to s.family_to (congrArg (fun i ↦ i.snd) heq)
  exact IPRange.ext hfrom hto (by rw [r.prefix_eq, s.prefix_eq, hfrom, hto])

theorem apart_iff {i j : NonemptyInterval ℕ} : Apart i j ↔ i.snd + 1 < j.fst :=
  ⟨fun ⟨_, hafter, hbefore⟩ ↦ by omega, fun hlt ↦ ⟨i.snd + 1, Nat.lt_succ_self _, hlt⟩⟩

theorem contains_iff : r.contains s = true ↔ s.interval ≤ r.interval := by
  rw [contains, Bool.and_eq_true, Ordering.isLE_iff_ne_gt, Ordering.isLE_iff_ne_gt,
    compareAddr_eq_gt_iff r.fits.family s.fits.family,
    compareAddr_eq_gt_iff s.family_to r.family_to,
    Nat.not_lt, Nat.not_lt]
  exact (NonemptyInterval.le_def (s := s.interval) (t := r.interval)).symm

theorem overlaps_iff :
    r.overlaps s = true ↔ place s.mFrom ≤ place r.mTo ∧ place r.mFrom ≤ place s.mTo := by
  rw [overlaps, Bool.not_eq_true', Bool.or_eq_false_iff, beq_eq_false_iff_ne, beq_eq_false_iff_ne,
    ne_eq, ne_eq, compareAddr_eq_lt_iff r.family_to s.fits.family,
    compareAddr_eq_lt_iff s.family_to r.fits.family, Nat.not_lt, Nat.not_lt]

/-- Ranges of two families are not even adjacent. -/
theorem length_eq_of_near (hlow : place s.mFrom ≤ place r.mTo + 1)
    (hhigh : place r.mFrom ≤ place s.mTo + 1) : r.mFrom.length = s.mFrom.length := by
  by_contra hne
  have hr := r.fits.length_eq
  have hs := s.fits.length_eq
  rcases Nat.lt_or_gt_of_ne hne with hlt | hlt
  · have hroom := place_lt_of_length_lt r.family_to s.fits.family (by omega)
    omega
  · have hroom := place_lt_of_length_lt s.family_to r.fits.family (by omega)
    omega

theorem family_of_length {a b : Bytes} (ha : OfFamily a) (hlength : b.length = a.length) :
    OfFamily b := by rwa [OfFamily, hlength]

theorem place_inc {a b : Bytes} (hlength : a.length = b.length) (hlt : place a < place b) :
    place (inc a) = place a + 1 := by
  rw [place, place, hlength] at hlt
  have hfits : value a + 1 < 256 ^ a.length := by
    have h := value_lt b
    rw [← hlength] at h
    omega
  rw [place, place, length_inc, value_inc hfits, Nat.add_assoc]

theorem place_dec {a b : Bytes} (hlength : a.length = b.length) (hlt : place a < place b) :
    place (dec b) + 1 = place b := by
  rw [place, place, hlength] at hlt
  have hpos : 0 < value b := by omega
  rw [place, place, length_dec, Nat.add_assoc, value_dec hpos]

theorem adjacent_iff (hover : r.overlaps s = false) :
    r.adjacent s = true ↔
      place r.mTo + 1 = place s.mFrom ∨ place s.mTo + 1 = place r.mFrom := by
  have hapart : ¬ (place s.mFrom ≤ place r.mTo ∧ place r.mFrom ≤ place s.mTo) := fun h ↦ by
    rw [overlaps_iff.mpr h] at hover
    cases hover
  have hr := r.place_le
  have hs := s.place_le
  have hrlength := r.fits.length_eq
  have hslength := s.fits.length_eq
  rw [adjacent]
  split
  · rename_i hbefore
    rw [compareAddr_eq_lt_iff r.family_to s.fits.family] at hbefore
    rw [beq_iff_eq, compareAddr_eq_eq_iff (family_of_length r.family_to (length_inc _))
      s.fits.family]
    constructor
    · intro heq
      have hlength : r.mTo.length = s.mFrom.length := by rw [← heq, length_inc]
      have hnext := place_inc hlength hbefore
      rw [heq] at hnext
      exact .inl hnext.symm
    · intro hnear
      have hlength := length_eq_of_near (r := r) (s := s) (by omega) (by omega)
      have hnext := place_inc (hrlength.symm.trans hlength) hbefore
      exact place_inj (family_of_length r.family_to (length_inc _)) s.fits.family (by omega)
  · rename_i hafter
    rw [compareAddr_eq_lt_iff r.family_to s.fits.family] at hafter
    rw [beq_iff_eq, compareAddr_eq_eq_iff (family_of_length r.fits.family (length_dec _))
      s.family_to]
    constructor
    · intro heq
      have hlength : s.mTo.length = r.mFrom.length := by rw [← heq, length_dec]
      have hnext := place_dec hlength (by omega)
      rw [heq] at hnext
      exact .inr hnext
    · intro hnear
      have hlength := length_eq_of_near (r := r) (s := s) (by omega) (by omega)
      have hnext := place_dec (hslength.symm.trans hlength.symm) (by omega)
      exact place_inj (family_of_length r.fits.family (length_dec _)) s.family_to (by omega)

theorem compareTo_isLE_iff : (r.compareTo s).isLE = true ↔
    place r.mFrom < place s.mFrom ∨
      place r.mFrom = place s.mFrom ∧ place r.mTo ≤ place s.mTo := by
  have hlt := compareAddr_eq_lt_iff r.fits.family s.fits.family
  have hgt := compareAddr_eq_gt_iff r.fits.family s.fits.family
  have hto := compareAddr_eq_gt_iff r.family_to s.family_to
  rw [compareTo]
  cases hcmp : compareAddr r.mFrom s.mFrom with
  | lt =>
    have hless := hlt.mp hcmp
    simp [hless]
  | gt =>
    have hmore := hgt.mp hcmp
    simp only [Ordering.isLE_gt, Bool.false_eq_true, false_iff]
    omega
  | eq =>
    have hsame : place r.mFrom = place s.mFrom := by
      rw [hcmp] at hlt hgt
      simp at hlt hgt
      omega
    dsimp only
    rw [Ordering.isLE_iff_ne_gt, hto]
    omega

theorem compareTo_eq_eq_iff : r.compareTo s = .eq ↔ r = s := by
  rw [compareTo]
  constructor
  · intro heq
    split at heq
    · rename_i hfrom
      have hsame := (compareAddr_eq_eq_iff r.fits.family s.fits.family).mp hfrom
      have hto := (compareAddr_eq_eq_iff r.family_to s.family_to).mp heq
      exact eq_of_interval_eq
        (NonemptyInterval.ext (Prod.ext (congrArg place hsame) (congrArg place hto)))
    · rename_i hne
      exact absurd heq hne
  · rintro rfl
    rw [(compareAddr_eq_eq_iff r.fits.family r.fits.family).mpr rfl]
    exact (compareAddr_eq_eq_iff r.family_to r.family_to).mpr rfl

theorem equals_iff : r.equals s = true ↔ r = s := by
  rw [equals, beq_iff_eq, compareTo_eq_eq_iff]

theorem clear_iff : Clear r.interval s.interval ↔
    place r.mTo + 1 < place s.mFrom ∨ place s.mTo + 1 < place r.mFrom := by
  rw [Clear, apart_iff, apart_iff]
  rfl

/-- Ranges that overlap or are adjacent have no room between them, and others do. -/
theorem near_iff : (r.overlaps s = true ∨ r.adjacent s = true) ↔ ¬ Clear r.interval s.interval := by
  have hr := r.place_le
  have hs := s.place_le
  rw [clear_iff]
  cases hover : r.overlaps s with
  | true =>
    have hplaces := overlaps_iff.mp hover
    exact iff_of_true (.inl rfl) (by omega)
  | false =>
    have hplaces : ¬ (place s.mFrom ≤ place r.mTo ∧ place r.mFrom ≤ place s.mTo) := fun h ↦ by
      rw [overlaps_iff.mpr h] at hover
      cases hover
    rw [adjacent_iff hover]
    simp only [Bool.false_eq_true, false_or]
    omega

/-! ### Merging and removing -/

/-- The lower of the first addresses. -/
def low (self range : IPRange) : Bytes :=
  if compareAddr self.mFrom range.mFrom = .lt then self.mFrom else range.mFrom

/-- The higher of the last addresses. -/
def high (self range : IPRange) : Bytes :=
  if compareAddr self.mTo range.mTo = .gt then self.mTo else range.mTo

theorem place_low (r s : IPRange) : place (r.low s) = min (place r.mFrom) (place s.mFrom) := by
  rw [low]
  split
  · rename_i hlt
    rw [compareAddr_eq_lt_iff r.fits.family s.fits.family] at hlt
    rw [min_eq_left hlt.le]
  · rename_i hlt
    rw [compareAddr_eq_lt_iff r.fits.family s.fits.family] at hlt
    rw [min_eq_right (not_lt.mp hlt)]

theorem place_high (r s : IPRange) : place (r.high s) = max (place r.mTo) (place s.mTo) := by
  rw [high]
  split
  · rename_i hgt
    rw [compareAddr_eq_gt_iff r.family_to s.family_to] at hgt
    rw [max_eq_left hgt.le]
  · rename_i hgt
    rw [compareAddr_eq_gt_iff r.family_to s.family_to] at hgt
    rw [max_eq_right (not_lt.mp hgt)]

/-- Addresses of one family in order of their places. -/
theorem fits_of_place {a b : Bytes} (hfamily : OfFamily a) (hlength : a.length = b.length)
    (hle : place a ≤ place b) : Fits a b := by
  refine ⟨hfamily, hlength, ?_⟩
  rw [ne_eq, compareAddr_eq_gt_iff hfamily (family_of_length hfamily hlength.symm)]
  exact hle.not_gt

theorem fits_span (hnear : r.overlaps s = true ∨ r.adjacent s = true) :
    Fits (r.low s) (r.high s) := by
  rw [near_iff, clear_iff] at hnear
  have hlength := length_eq_of_near (r := r) (s := s) (by omega) (by omega)
  have hr := r.fits.length_eq
  have hs := s.fits.length_eq
  have hlow : (r.low s).length = r.mFrom.length := by rw [low]; split <;> omega
  have hhigh : (r.high s).length = r.mFrom.length := by rw [high]; split <;> omega
  refine fits_of_place (family_of_length r.fits.family hlow) (hlow.trans hhigh.symm) ?_
  rw [place_low, place_high]
  exact (min_le_left _ _).trans (r.place_le.trans (le_max_left _ _))

/-- `merge`. -/
def merge (self range : IPRange) : Option IPRange :=
  if hover : self.overlaps range = true then
    if self.contains range then some self
    else if range.contains self then some range
    else some (ofBounds (self.low range) (self.high range) (fits_span (.inl hover)))
  else if hadjacent : self.adjacent range = true then
    some (ofBounds (self.low range) (self.high range) (fits_span (.inr hadjacent)))
  else none

theorem interval_span (fits : Fits (r.low s) (r.high s)) :
    (ofBounds (r.low s) (r.high s) fits).interval = r.interval ⊔ s.interval :=
  NonemptyInterval.ext (Prod.ext (place_low r s) (place_high r s))

/-- Merging makes one interval of two. -/
theorem interval_of_merge {m : IPRange} (hmerge : r.merge s = some m) :
    m.interval = r.interval ⊔ s.interval := by
  rw [merge] at hmerge
  split_ifs at hmerge with hover hcontains hcontained hadjacent
  · cases hmerge
    exact (sup_eq_left.mpr (contains_iff.mp hcontains)).symm
  · cases hmerge
    exact (sup_eq_right.mpr (contains_iff.mp hcontained)).symm
  · cases hmerge
    exact interval_span _
  · cases hmerge
    exact interval_span _

/-- It is refused exactly when there is room between the two. -/
theorem merge_eq_none_iff : r.merge s = none ↔ Clear r.interval s.interval := by
  have hnear := near_iff (r := r) (s := s)
  rw [merge]
  split_ifs with hover hcontains hcontained hadjacent
  · simp [hnear.mp (.inl hover)]
  · simp [hnear.mp (.inl hover)]
  · simp [hnear.mp (.inl hover)]
  · simp [hnear.mp (.inr hadjacent)]
  · simp only [true_iff]
    by_contra hclear
    exact (hnear.mpr hclear).elim hover hadjacent

/-- The first address of what `remove` leaves, when it leaves one range. -/
def restFrom (self range : IPRange) : Bytes :=
  if compareAddr self.mFrom range.mFrom = .lt then self.mFrom else inc range.mTo

/-- The last address of what `remove` leaves, when it leaves one range. -/
def restTo (self range : IPRange) : Bytes :=
  if compareAddr self.mTo range.mTo = .gt then self.mTo else dec range.mFrom

/-- The ranges overlap. -/
theorem length_eq_of_overlaps (hover : ¬ r.overlaps s = false) :
    r.mFrom.length = s.mFrom.length := by
  have hplaces := overlaps_iff.mp (Bool.eq_true_of_not_eq_false hover)
  exact length_eq_of_near (by omega) (by omega)

theorem place_dec_of_overlaps (hover : ¬ r.overlaps s = false)
    (hlt : place r.mFrom < place s.mFrom) : place (dec s.mFrom) + 1 = place s.mFrom :=
  place_dec (length_eq_of_overlaps hover) hlt

theorem place_inc_of_overlaps (hover : ¬ r.overlaps s = false)
    (hlt : place s.mTo < place r.mTo) : place (inc s.mTo) = place s.mTo + 1 := by
  have hlength := length_eq_of_overlaps hover
  have hr := r.fits.length_eq
  have hs := s.fits.length_eq
  exact place_inc (by omega) hlt

theorem fits_before (hover : ¬ r.overlaps s = false)
    (hlt : compareAddr r.mFrom s.mFrom = .lt) : Fits r.mFrom (dec s.mFrom) := by
  rw [compareAddr_eq_lt_iff r.fits.family s.fits.family] at hlt
  have hplace := place_dec_of_overlaps hover hlt
  refine fits_of_place r.fits.family ?_ (by omega)
  rw [length_dec, length_eq_of_overlaps hover]

theorem fits_after (hover : ¬ r.overlaps s = false)
    (hlt : compareAddr s.mTo r.mTo = .lt) : Fits (inc s.mTo) r.mTo := by
  rw [compareAddr_eq_lt_iff s.family_to r.family_to] at hlt
  have hplace := place_inc_of_overlaps hover hlt
  have hlength := length_eq_of_overlaps hover
  have hr := r.fits.length_eq
  have hs := s.fits.length_eq
  exact fits_of_place (family_of_length s.family_to (length_inc _))
    (by rw [length_inc]; omega) (by omega)

/-- The ends of a range that is neither contained in the other one nor contains it inside. -/
theorem rest_cases (hcontains : ¬ s.contains r = true)
    (hinside : ¬ (compareAddr r.mFrom s.mFrom = .lt ∧ compareAddr s.mTo r.mTo = .lt)) :
    (place r.mFrom < place s.mFrom ∧ place r.mTo ≤ place s.mTo ∧
      r.restFrom s = r.mFrom ∧ r.restTo s = dec s.mFrom) ∨
    (place s.mFrom ≤ place r.mFrom ∧ place s.mTo < place r.mTo ∧
      r.restFrom s = inc s.mTo ∧ r.restTo s = r.mTo) := by
  rw [compareAddr_eq_lt_iff r.fits.family s.fits.family,
    compareAddr_eq_lt_iff s.family_to r.family_to] at hinside
  have hout : ¬ (place s.mFrom ≤ place r.mFrom ∧ place r.mTo ≤ place s.mTo) :=
    fun h ↦ hcontains (contains_iff.mpr (NonemptyInterval.le_def.mpr h))
  rw [restFrom, restTo]
  simp only [compareAddr_eq_lt_iff r.fits.family s.fits.family,
    compareAddr_eq_gt_iff r.family_to s.family_to]
  by_cases hlow : place r.mFrom < place s.mFrom
  · have hhigh : ¬ place s.mTo < place r.mTo := fun h ↦ hinside ⟨hlow, h⟩
    exact .inl ⟨hlow, not_lt.mp hhigh, if_pos hlow, if_neg hhigh⟩
  · have hhigh : place s.mTo < place r.mTo := by omega
    exact .inr ⟨not_lt.mp hlow, hhigh, if_neg hlow, if_pos hhigh⟩

theorem fits_rest (hover : ¬ r.overlaps s = false) (hcontains : ¬ s.contains r = true)
    (hinside : ¬ (compareAddr r.mFrom s.mFrom = .lt ∧ compareAddr s.mTo r.mTo = .lt)) :
    Fits (r.restFrom s) (r.restTo s) := by
  rcases rest_cases hcontains hinside with ⟨hlow, -, hfrom, hto⟩ | ⟨-, hhigh, hfrom, hto⟩
  · rw [hfrom, hto]
    exact fits_before hover ((compareAddr_eq_lt_iff r.fits.family s.fits.family).mpr hlow)
  · rw [hfrom, hto]
    exact fits_after hover ((compareAddr_eq_lt_iff s.family_to r.family_to).mpr hhigh)

/-- `remove`. -/
def remove (self range : IPRange) : List IPRange :=
  if hover : self.overlaps range = false then [self]
  else if hcontains : range.contains self = true then []
  else if hinside : compareAddr self.mFrom range.mFrom = .lt ∧
      compareAddr range.mTo self.mTo = .lt then
    [ofBounds self.mFrom (dec range.mFrom) (fits_before hover hinside.1),
      ofBounds (inc range.mTo) self.mTo (fits_after hover hinside.2)]
  else [ofBounds (self.restFrom range) (self.restTo range) (fits_rest hover hcontains hinside)]

/-- What is removed is gone, and the rest stays. -/
theorem exists_mem_remove_iff {x : ℕ} :
    (∃ t ∈ r.remove s, x ∈ t.interval) ↔ x ∈ r.interval ∧ x ∉ s.interval := by
  have hr := r.place_le
  have hs := s.place_le
  simp only [mem_interval]
  rw [remove]
  split_ifs with hover hcontains hinside
  · have hplaces : ¬ (place s.mFrom ≤ place r.mTo ∧ place r.mFrom ≤ place s.mTo) := fun h ↦ by
      rw [overlaps_iff.mpr h] at hover
      cases hover
    simp only [List.mem_singleton, exists_eq_left]
    omega
  · have hplaces := NonemptyInterval.le_def.mp (contains_iff.mp hcontains)
    simp only [interval_fst, interval_snd] at hplaces
    simp only [List.not_mem_nil, false_and, exists_false, false_iff]
    omega
  · have hbefore := hinside.1
    have hafter := hinside.2
    rw [compareAddr_eq_lt_iff r.fits.family s.fits.family] at hbefore
    rw [compareAddr_eq_lt_iff s.family_to r.family_to] at hafter
    have hdec := place_dec_of_overlaps hover hbefore
    have hinc := place_inc_of_overlaps hover hafter
    simp only [List.mem_cons, List.not_mem_nil, or_false, exists_eq_or_imp, exists_eq_left,
      ofBounds]
    omega
  · have hplaces := overlaps_iff.mp (Bool.eq_true_of_not_eq_false hover)
    simp only [List.mem_singleton, exists_eq_left, ofBounds]
    rcases rest_cases hcontains hinside with ⟨hlow, hle, hfrom, hto⟩ | ⟨hle, hhigh, hfrom, hto⟩
    · have hdec := place_dec_of_overlaps hover hlow
      rw [hfrom, hto]
      omega
    · have hinc := place_inc_of_overlaps hover hhigh
      rw [hfrom, hto]
      omega

/-- Between two ranges that `remove` leaves lies the one that was removed. -/
theorem pairwise_remove (r s : IPRange) :
    (r.remove s).Pairwise fun t u ↦ Apart t.interval u.interval := by
  rw [remove]
  split_ifs with hover hcontains hinside
  · exact List.pairwise_singleton ..
  · exact .nil
  · have hbefore := hinside.1
    have hafter := hinside.2
    rw [compareAddr_eq_lt_iff r.fits.family s.fits.family] at hbefore
    rw [compareAddr_eq_lt_iff s.family_to r.family_to] at hafter
    have hdec := place_dec_of_overlaps hover hbefore
    have hinc := place_inc_of_overlaps hover hafter
    have hs := s.place_le
    refine List.pairwise_pair.mpr (apart_iff.mpr ?_)
    change place (dec s.mFrom) + 1 < place (inc s.mTo)
    omega
  · exact List.pairwise_singleton ..

theorem interval_le_of_mem_remove (hmem : t ∈ r.remove s) : t.interval ≤ r.interval := by
  rw [← NonemptyInterval.coe_subset_coe]
  exact fun x hx ↦ (exists_mem_remove_iff.mp ⟨t, hmem, hx⟩).1

/-! ### The other constructors -/

/-- `initializeFromRange`, which takes the addresses in either order. -/
def initializeFromRange (fa ta : Bytes) (ha : OfFamily fa) (hb : OfFamily ta) : Option IPRange :=
  if hlength : fa.length ≠ ta.length then none
  else if hlt : compareAddr fa ta = .lt then
    some (ofBounds fa ta ⟨ha, not_not.mp hlength, by rw [hlt]; decide⟩)
  else
    some (ofBounds ta fa ⟨hb, (not_not.mp hlength).symm, by
      rw [← compareAddr_swap fa ta]
      cases h : compareAddr fa ta <;> simp_all⟩)

theorem ends_cidr (base : Bytes) {pre : ℕ} (hle : pre ≤ 8 * base.length) :
    Ends (networkBytes base pre) (broadcastBytes base pre) pre := by
  refine ⟨by rwa [length_networkBytes], value base / 2 ^ (8 * base.length - pre), ?_, ?_⟩
  · rw [length_networkBytes, value_networkBytes hle]
  · rw [length_networkBytes, value_broadcastBytes hle]

theorem value_le_of_ends {a b : Bytes} {pre : ℕ} (hends : Ends a b pre) : value a ≤ value b := by
  obtain ⟨-, index, hlow, hhigh⟩ := hends
  have hsize : 0 < 2 ^ (8 * a.length - pre) := Nat.two_pow_pos _
  rw [Nat.add_mul, Nat.one_mul] at hhigh
  omega

theorem fits_cidr {base : Bytes} (hfamily : OfFamily base) {pre : ℕ} (hle : pre ≤ 8 * base.length) :
    Fits (networkBytes base pre) (broadcastBytes base pre) := by
  have hlength : (networkBytes base pre).length = (broadcastBytes base pre).length := by simp
  have hvalue := value_le_of_ends (ends_cidr base hle)
  refine fits_of_place (family_of_length hfamily (length_networkBytes _ _)) hlength ?_
  rw [place, place, hlength]
  omega

theorem prefix_cidr (base : Bytes) {pre : ℕ} (hle : pre ≤ 8 * base.length) :
    some pre = determinePrefix (networkBytes base pre) (broadcastBytes base pre) :=
  ((determinePrefix_eq_some_iff (by simp) (value_le_of_ends (ends_cidr base hle))).mpr
    (ends_cidr base hle)).symm

theorem le_of_not_invalid {length : ℕ} {pre : ℤ} (hvalid : ¬ (pre < 0 ∨ pre > length * 8)) :
    pre.toNat ≤ 8 * length := by omega

/-- `initializeFromCIDR`, which throws for what is no address and for what is no prefix of one. -/
def initializeFromCIDR (base : Bytes) (pre : ℤ) : Option IPRange :=
  if hfamily : OfFamily base then
    if hinvalid : pre < 0 ∨ pre > base.length * 8 then none
    else some
      { mFrom := networkBytes base pre.toNat
        mTo := broadcastBytes base pre.toNat
        mPrefix := some pre.toNat
        fits := fits_cidr hfamily (le_of_not_invalid hinvalid)
        prefix_eq := prefix_cidr base (le_of_not_invalid hinvalid) }
  else none

/-! ### Addresses -/

/-- `InetAddress.getAddress`. -/
def getAddress : InetAddress → Bytes
  | .v4 address => (Positional.toBase 256 4 address).map (BitVec.ofNat 8)
  | .v6 address => (Positional.toBase 256 16 address).map (BitVec.ofNat 8)

/-- `InetAddress.getByAddress`. -/
def getByAddress (addr : Bytes) : Option InetAddress :=
  if addr.length = 4 then some (.v4 (Fin.ofNat (2 ^ 32) (value addr)))
  else if addr.length = 16 then some (.v6 (Fin.ofNat (2 ^ 128) (value addr)))
  else none

/-- `getFrom`. -/
def getFrom (r : IPRange) : Option InetAddress := getByAddress r.mFrom

/-- `getTo`. -/
def getTo (r : IPRange) : Option InetAddress := getByAddress r.mTo

/-- An address lies in a range. -/
def Holds (r : IPRange) (d : InetAddress) : Prop :=
  compareAddr r.mFrom (getAddress d) ≠ .gt ∧ compareAddr (getAddress d) r.mTo ≠ .gt

instance (r : IPRange) (d : InetAddress) : Decidable (r.Holds d) :=
  inferInstanceAs (Decidable (_ ∧ _))

theorem value_map_ofNat (count n : ℕ) :
    value ((Positional.toBase 256 count n).map (BitVec.ofNat 8)) = n % 256 ^ count := by
  have hbytes : ((Positional.toBase 256 count n).map (BitVec.ofNat 8)).map BitVec.toNat =
      Positional.toBase 256 count n := by
    rw [List.map_map]
    refine (List.map_congr_left fun digit hdigit ↦ ?_).trans (List.map_id _)
    rw [Function.comp_apply, BitVec.toNat_ofNat]
    exact Nat.mod_eq_of_lt (Positional.lt_of_mem_toBase (by decide) hdigit)
  rw [value, hbytes, Positional.ofBase_toBase]

theorem family_getAddress (d : InetAddress) : OfFamily (getAddress d) := by
  cases d with
  | v4 address => exact .inl (by simp [getAddress])
  | v6 address => exact .inr (by simp [getAddress])

theorem place_getAddress_v4 (address : Fin (2 ^ 32)) :
    place (getAddress (.v4 address)) = address := by
  have hlength : (getAddress (.v4 address)).length = 4 := by simp [getAddress]
  rw [place, offset, if_pos hlength, Nat.zero_add, getAddress, value_map_ofNat]
  exact Nat.mod_eq_of_lt address.isLt

theorem place_getAddress_v6 (address : Fin (2 ^ 128)) :
    place (getAddress (.v6 address)) = 2 ^ 32 + 1 + address := by
  have hlength : (getAddress (.v6 address)).length ≠ 4 := by simp [getAddress]
  rw [place, offset, if_neg hlength, getAddress, value_map_ofNat]
  congr 1
  exact Nat.mod_eq_of_lt address.isLt

theorem holds_iff {d : InetAddress} : r.Holds d ↔ place (getAddress d) ∈ r.interval := by
  rw [Holds, ne_eq, ne_eq, compareAddr_eq_gt_iff r.fits.family (family_getAddress d),
    compareAddr_eq_gt_iff (family_getAddress d) r.family_to, Nat.not_lt, Nat.not_lt]
  exact mem_interval.symm

/-- Every place of a range is the place of an address. -/
theorem exists_address {x : ℕ} (hmem : x ∈ r.interval) : ∃ d, place (getAddress d) = x := by
  obtain ⟨hlow, hhigh⟩ := mem_interval.mp hmem
  have hlt := value_lt r.mTo
  rw [place, offset] at hlow hhigh
  rw [← r.fits.length_eq] at hlt hhigh
  rcases r.fits.family with hlength | hlength
  · rw [hlength] at hlt
    rw [if_pos hlength] at hlow hhigh
    exact ⟨.v4 ⟨x, by omega⟩, place_getAddress_v4 _⟩
  · have hne : r.mFrom.length ≠ 4 := by omega
    rw [hlength] at hlt
    rw [if_neg hne] at hlow hhigh
    refine ⟨.v6 ⟨x - (2 ^ 32 + 1), by omega⟩, ?_⟩
    rw [place_getAddress_v6]
    dsimp only
    omega

end IPRange

end WindscribeVpn.Ikev2
