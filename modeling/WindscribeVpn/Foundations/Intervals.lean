import Mathlib.Order.Interval.Basic
import Mathlib.Data.List.Pairwise
import Mathlib.Data.Set.Insert

/-!
# Intervals with room between them

A set of points is kept as a list of intervals in ascending order. Two intervals are `Apart` when
some point lies between them, so that they neither overlap nor touch, and a list is `Separated` when
every interval is apart from all that follow it.

A separated list is a normal form: `eq_of_covered_eq` shows that two of them that cover the same
points are the same list. Intervals that are not apart either way make one interval, their
supremum, which covers what the two cover (`mem_sup_iff`), and what is left of an interval on the
two sides of another one is apart (`apart_of_between`).
-/

set_option autoImplicit false
set_option relaxedAutoImplicit false

namespace WindscribeVpn.Foundations.Intervals

variable {α : Type*} [LinearOrder α] {s t u : NonemptyInterval α} {L M : List (NonemptyInterval α)}

/-- There is a point after the first interval and before the second. -/
def Apart (s t : NonemptyInterval α) : Prop := ∃ x, s.snd < x ∧ x < t.fst

/-- One of the intervals comes before the other, with a point between them. -/
def Clear (s t : NonemptyInterval α) : Prop := Apart s t ∨ Apart t s

/-- The points of the intervals of a list. -/
def covered (L : List (NonemptyInterval α)) : Set α := {x | ∃ s ∈ L, x ∈ s}

/-- Every interval is apart from those that follow it. -/
def Separated (L : List (NonemptyInterval α)) : Prop := L.Pairwise Apart

theorem Apart.snd_lt_fst (h : Apart s t) : s.snd < t.fst := h.elim fun _ hx ↦ hx.1.trans hx.2

theorem Apart.fst_lt_fst (h : Apart s t) : s.fst < t.fst := s.fst_le_snd.trans_lt h.snd_lt_fst

theorem Apart.trans (h : Apart s t) (h' : Apart t u) : Apart s u :=
  h.elim fun x hx ↦ ⟨x, hx.1, hx.2.trans h'.fst_lt_fst⟩

theorem Apart.asymm (h : Apart s t) : ¬ Apart t s := fun h' ↦ h.fst_lt_fst.asymm h'.fst_lt_fst

/-- Smaller intervals are apart as well. -/
theorem Apart.mono {s' t' : NonemptyInterval α} (h : Apart s t) (hs : s' ≤ s) (ht : t' ≤ t) :
    Apart s' t' :=
  h.elim fun x hx ↦
    ⟨x, (NonemptyInterval.le_def.mp hs).2.trans_lt hx.1,
      hx.2.trans_le (NonemptyInterval.le_def.mp ht).1⟩

theorem Clear.symm (h : Clear s t) : Clear t s := Or.symm h

instance : Std.Symm (Clear (α := α)) := ⟨fun _ _ ↦ Clear.symm⟩

theorem Clear.mono {s' t' : NonemptyInterval α} (h : Clear s t) (hs : s' ≤ s) (ht : t' ≤ t) :
    Clear s' t' :=
  h.imp (fun happart ↦ happart.mono hs ht) fun happart ↦ happart.mono ht hs

theorem Clear.apart_of_fst_le (h : Clear s t) (hle : s.fst ≤ t.fst) : Apart s t :=
  h.resolve_right fun happart ↦ happart.fst_lt_fst.not_ge hle

/-- What ends before a point is apart from what begins after it. -/
theorem apart_of_between {x : α} (hs : s.snd < x) (ht : x < t.fst) : Apart s t := ⟨x, hs, ht⟩

/-- Intervals with no room between them are covered by their supremum and cover it. -/
theorem mem_sup_iff (hclear : ¬ Clear s t) {x : α} : x ∈ s ⊔ t ↔ x ∈ s ∨ x ∈ t := by
  simp only [NonemptyInterval.mem_def, NonemptyInterval.fst_sup, NonemptyInterval.snd_sup,
    inf_le_iff, le_sup_iff]
  constructor
  · rintro ⟨hfst, hsnd⟩
    by_contra hout
    rw [not_or, not_and_or, not_and_or] at hout
    simp only [not_le] at hout
    rcases hout with ⟨hs | hs, ht | ht⟩
    · exact hfst.elim hs.not_ge ht.not_ge
    · exact hclear (.inr ⟨x, ht, hs⟩)
    · exact hclear (.inl ⟨x, hs, ht⟩)
    · exact hsnd.elim hs.not_ge ht.not_ge
  · rintro (⟨hfst, hsnd⟩ | ⟨hfst, hsnd⟩)
    · exact ⟨.inl hfst, .inl hsnd⟩
    · exact ⟨.inr hfst, .inr hsnd⟩

/-! ### Separated lists -/

theorem separated_cons : Separated (s :: L) ↔ (∀ t ∈ L, Apart s t) ∧ Separated L :=
  List.pairwise_cons

@[simp] theorem mem_covered_cons {x : α} : x ∈ covered (s :: L) ↔ x ∈ s ∨ x ∈ covered L := by
  simp [covered]

theorem mem_covered {x : α} : x ∈ covered L ↔ ∃ s ∈ L, x ∈ s := Iff.rfl

/-- The points of the later intervals are those past the first one. -/
theorem mem_covered_tail (h : Separated (s :: L)) {x : α} :
    x ∈ covered L ↔ x ∈ covered (s :: L) ∧ s.snd < x := by
  rw [mem_covered_cons]
  constructor
  · rintro ⟨t, ht, hx⟩
    exact ⟨.inr ⟨t, ht, hx⟩, ((separated_cons.mp h).1 t ht).snd_lt_fst.trans_le hx.1⟩
  · rintro ⟨hx | hx, hlt⟩
    · exact absurd hx.2 hlt.not_ge
    · exact hx

theorem fst_le_of_mem_covered (h : Separated (s :: L)) {x : α} (hx : x ∈ covered (s :: L)) :
    s.fst ≤ x := by
  rcases mem_covered_cons.mp hx with hx | ⟨t, ht, hx⟩
  · exact hx.1
  · exact ((separated_cons.mp h).1 t ht).fst_lt_fst.le.trans hx.1

/-- Between the first interval and anything covered after it there is a point that is not. -/
theorem exists_not_mem_covered (h : Separated (s :: L)) {y : α} (hy : y ∈ covered (s :: L))
    (hlt : s.snd < y) : ∃ x, s.snd < x ∧ x < y ∧ x ∉ covered (s :: L) := by
  obtain ⟨hcons, hrest⟩ := separated_cons.mp h
  cases L with
  | nil =>
    have hself : y ∈ s := by simpa [covered] using hy
    exact absurd hself.2 hlt.not_ge
  | cons t L =>
    obtain ⟨x, hafter, hbefore⟩ := hcons t List.mem_cons_self
    have hle : ∀ z ∈ covered (t :: L), t.fst ≤ z := fun z hz ↦ fst_le_of_mem_covered hrest hz
    refine ⟨x, hafter, hbefore.trans_le (hle y ((mem_covered_tail h).mpr ⟨hy, hlt⟩)), fun hx ↦ ?_⟩
    exact hbefore.not_ge (hle x ((mem_covered_tail h).mpr ⟨hx, hafter⟩))

/-- The first intervals of two separated lists that cover the same points end at the same point. -/
theorem snd_le_of_covered_eq (hL : Separated (s :: L)) (hfst : s.fst = t.fst)
    (heq : covered (s :: L) = covered (t :: M)) : t.snd ≤ s.snd := by
  by_contra hlt
  rw [not_le] at hlt
  have hself : t.snd ∈ covered (t :: M) := mem_covered_cons.mpr (.inl ⟨t.fst_le_snd, le_rfl⟩)
  obtain ⟨x, hafter, hbefore, hout⟩ := exists_not_mem_covered hL (heq ▸ hself) hlt
  have hle : t.fst ≤ x := hfst ▸ s.fst_le_snd.trans hafter.le
  rw [heq] at hout
  exact hout (mem_covered_cons.mpr (.inl ⟨hle, hbefore.le⟩))

/-- The same after any interval of the list. -/
theorem exists_gap (hL : Separated L) (hmem : s ∈ L) {y : α} (hy : y ∈ covered L)
    (hlt : s.snd < y) : ∃ x, s.snd < x ∧ x < y ∧ x ∉ covered L := by
  obtain ⟨before, after, rfl⟩ := List.append_of_mem hmem
  obtain ⟨-, hafter, hbetween⟩ := List.pairwise_append.mp hL
  have hbefore : ∀ t ∈ before, t.snd < s.snd := fun t ht ↦
    (hbetween t ht s List.mem_cons_self).snd_lt_fst.trans_le s.fst_le_snd
  have hsplit : ∀ {z}, z ∈ covered (before ++ s :: after) → s.snd < z →
      z ∈ covered (s :: after) := by
    rintro z ⟨t, ht, hz⟩ hpast
    rcases List.mem_append.mp ht with ht | ht
    · exact absurd (hz.2.trans_lt ((hbefore t ht).trans hpast)) (lt_irrefl z)
    · exact ⟨t, ht, hz⟩
  obtain ⟨x, hpast, hless, hout⟩ := exists_not_mem_covered hafter (hsplit hy hlt) hlt
  exact ⟨x, hpast, hless, fun hx ↦ hout (hsplit hx hpast)⟩

/-- Two intervals of the list are the same or apart. -/
theorem eq_or_clear_of_mem (hL : Separated L) (hs : s ∈ L) (ht : t ∈ L) : s = t ∨ Clear s t := by
  by_cases heq : s = t
  · exact .inl heq
  · have hclear : L.Pairwise Clear := hL.imp .inl
    exact .inr (hclear.forall hs ht heq)

/-- An interval that is covered lies in the interval that it meets. -/
theorem le_of_mem_covered (hL : Separated L) (hmem : s ∈ L) (hcovered : ∀ x ∈ t, x ∈ covered L)
    {p : α} (hpt : p ∈ t) (hps : p ∈ s) : t ≤ s := by
  refine NonemptyInterval.le_def.mpr ⟨?_, ?_⟩
  · by_contra hlt
    rw [not_le] at hlt
    -- The interval that the beginning lies in comes before `s`, and the gap after it is in `t`.
    obtain ⟨u, hu, hbegin⟩ := hcovered t.fst ⟨le_rfl, t.fst_le_snd⟩
    have hbefore : u.snd < s.fst := by
      rcases eq_or_clear_of_mem hL hu hmem with rfl | hclear
      · exact absurd hbegin.1 hlt.not_ge
      · rcases hclear with happart | happart
        · exact happart.snd_lt_fst
        · exact absurd (happart.fst_lt_fst.trans_le hbegin.1) hlt.not_gt
    obtain ⟨x, hpast, hless, hout⟩ :=
      exists_gap hL hu ⟨s, hmem, hps⟩ (hbefore.trans_le hps.1)
    exact hout (hcovered x ⟨hbegin.2.trans hpast.le, hless.le.trans hpt.2⟩)
  · by_contra hlt
    rw [not_le] at hlt
    obtain ⟨x, hpast, hless, hout⟩ :=
      exists_gap hL hmem (hcovered t.snd ⟨t.fst_le_snd, le_rfl⟩) hlt
    exact hout (hcovered x ⟨hpt.1.trans (hps.2.trans hpast.le), hless.le⟩)

/-- A separated list is determined by what it covers. -/
theorem eq_of_covered_eq (hL : Separated L) (hM : Separated M) (heq : covered L = covered M) :
    L = M := by
  induction L generalizing M with
  | nil =>
    cases M with
    | nil => rfl
    | cons t M =>
      have hself : t.fst ∈ covered (t :: M) := mem_covered_cons.mpr (.inl ⟨le_rfl, t.fst_le_snd⟩)
      rw [← heq] at hself
      obtain ⟨_, hnil, _⟩ := hself
      cases hnil
  | cons s L ih =>
    have hself : s.fst ∈ covered (s :: L) := mem_covered_cons.mpr (.inl ⟨le_rfl, s.fst_le_snd⟩)
    cases M with
    | nil =>
      rw [heq] at hself
      obtain ⟨_, hnil, _⟩ := hself
      cases hnil
    | cons t M =>
      have hother : t.fst ∈ covered (t :: M) := mem_covered_cons.mpr (.inl ⟨le_rfl, t.fst_le_snd⟩)
      have hfst : s.fst = t.fst :=
        le_antisymm (fst_le_of_mem_covered hL (heq ▸ hother))
          (fst_le_of_mem_covered hM (heq ▸ hself))
      have hsnd : s.snd = t.snd :=
        le_antisymm (snd_le_of_covered_eq hM hfst.symm heq.symm) (snd_le_of_covered_eq hL hfst heq)
      have hhead : s = t := NonemptyInterval.ext (Prod.ext hfst hsnd)
      subst hhead
      congr 1
      refine ih (separated_cons.mp hL).2 (separated_cons.mp hM).2 (Set.ext fun x ↦ ?_)
      rw [mem_covered_tail hL, mem_covered_tail hM, heq]

end WindscribeVpn.Foundations.Intervals
