import Mathlib.Data.List.Basic
import Mathlib.Tactic.SplitIfs
import Mathlib.Tactic.Tauto

/-!
# Sets in the order of insertion

A set that remembers the order of insertion is a list to which an element is added only when it is
not in it yet. `replaceStep` is one turn of a loop that copies a collection into such a set and puts
a fixed collection in the place of one element, once; `mem_foldl_replaceStep` says what the set
holds after any number of turns. `LinkedHashSet` is a list that such additions can build, and
copying one into an empty set gives it back (`addAll_empty`).
-/

set_option autoImplicit false
set_option relaxedAutoImplicit false

namespace WindscribeVpn.Foundations.LinkedSets

variable {α : Type*} [DecidableEq α]

/-- Adds an element that is not in the set yet. -/
def add (output : List α) (element : α) : List α :=
  if element ∈ output then output else output ++ [element]

/-- Copies an element, or puts the replacements in its place the first time it is the wildcard. -/
def replaceStep (wildcard : α) (replacements : List α) (state : List α × Bool) (element : α) :
    List α × Bool :=
  let (output, replaced) := state
  if element = wildcard then
    if replaced then (output, true) else (replacements.foldl add output, true)
  else (add output element, replaced)

variable {wildcard x : α}

theorem mem_add (output : List α) (element : α) :
    x ∈ add output element ↔ x ∈ output ∨ x = element := by
  rw [add]
  split_ifs with hmem
  · refine ⟨Or.inl, ?_⟩
    rintro (hx | rfl)
    · exact hx
    · exact hmem
  · rw [List.mem_append, List.mem_singleton]

theorem mem_foldl_add (elements output : List α) :
    x ∈ elements.foldl add output ↔ x ∈ output ∨ x ∈ elements := by
  induction elements generalizing output with
  | nil => simp
  | cons element rest ih => rw [List.foldl_cons, ih, mem_add, List.mem_cons, or_assoc]

/-- What the loop has put out. -/
theorem mem_foldl_replaceStep (replacements input output : List α) (replaced : Bool) :
    x ∈ (input.foldl (replaceStep wildcard replacements) (output, replaced)).1 ↔
      x ∈ output ∨ (x ∈ input ∧ x ≠ wildcard) ∨
        (wildcard ∈ input ∧ replaced = false ∧ x ∈ replacements) := by
  induction input generalizing output replaced with
  | nil => simp
  | cons element rest ih =>
    rw [List.foldl_cons, replaceStep]
    by_cases hwild : element = wildcard
    · cases replaced with
      | true =>
        simp only [if_pos hwild, if_true, ih]
        simp only [List.mem_cons, Bool.true_eq_false, false_and, and_false, or_false]
        constructor
        · tauto
        · rintro (hout | ⟨rfl | hrest, hne⟩)
          · exact Or.inl hout
          · exact absurd hwild hne
          · exact Or.inr ⟨hrest, hne⟩
      | false =>
        simp only [if_pos hwild, Bool.false_eq_true, if_false, ih, mem_foldl_add]
        simp only [List.mem_cons, hwild, Bool.true_eq_false, false_and, and_false, or_false,
          true_or, true_and]
        constructor
        · tauto
        · rintro (hout | ⟨rfl | hrest, hne⟩ | hreplacement)
          · exact Or.inl (Or.inl hout)
          · exact absurd rfl hne
          · exact Or.inr ⟨hrest, hne⟩
          · exact Or.inl (Or.inr hreplacement)
    · simp only [if_neg hwild, ih, mem_add]
      have hother : wildcard ∈ element :: rest ↔ wildcard ∈ rest := by
        rw [List.mem_cons, or_iff_right (Ne.symm hwild)]
      rw [hother, List.mem_cons]
      constructor
      · rintro ((hout | rfl) | hrest | hreplacement)
        · exact Or.inl hout
        · exact Or.inr (Or.inl ⟨Or.inl rfl, hwild⟩)
        · exact Or.inr (Or.inl ⟨Or.inr hrest.1, hrest.2⟩)
        · exact Or.inr (Or.inr hreplacement)
      · rintro (hout | ⟨rfl | hrest, hne⟩ | hreplacement)
        · exact Or.inl (Or.inl hout)
        · exact Or.inl (Or.inr rfl)
        · exact Or.inr (Or.inl ⟨hrest, hne⟩)
        · exact Or.inr (Or.inr hreplacement)

/-! ### Sets without repetitions -/

/-- Adding elements that are new and differ appends them. -/
theorem foldl_add_of_nodup {output elements : List α} (hnodup : (output ++ elements).Nodup) :
    elements.foldl add output = output ++ elements := by
  induction elements generalizing output with
  | nil => rw [List.append_nil]; rfl
  | cons element rest ih =>
    have hnew : element ∉ output := fun hmem ↦
      (List.nodup_append.mp hnodup).2.2 element hmem element List.mem_cons_self rfl
    have hshift : output ++ element :: rest = (output ++ [element]) ++ rest := by
      rw [List.append_assoc]
      rfl
    rw [List.foldl_cons, add, if_neg hnew, ih (hshift ▸ hnodup), hshift]

theorem nodup_add {output : List α} (hnodup : output.Nodup) (element : α) :
    (add output element).Nodup := by
  rw [add]
  split_ifs with hmem
  · exact hnodup
  · refine List.nodup_append.mpr ⟨hnodup, List.nodup_cons.mpr ⟨List.not_mem_nil, List.nodup_nil⟩,
      fun x hx y hsingle heq ↦ hmem ?_⟩
    rwa [← List.mem_singleton.mp hsingle, ← heq]

theorem nodup_foldl_add {output : List α} (hnodup : output.Nodup) (elements : List α) :
    (elements.foldl add output).Nodup := by
  induction elements generalizing output with
  | nil => exact hnodup
  | cons element rest ih => exact ih (nodup_add hnodup element)

/-- A set in the order of insertion. -/
@[ext] structure LinkedHashSet (α : Type*) where
  elements : List α
  nodup : elements.Nodup
  deriving DecidableEq

namespace LinkedHashSet

/-- The empty set. -/
def empty : LinkedHashSet α := ⟨[], List.nodup_nil⟩

/-- Adds the elements of a collection. -/
def addAll (set : LinkedHashSet α) (elements : List α) : LinkedHashSet α :=
  ⟨elements.foldl add set.elements, nodup_foldl_add set.nodup elements⟩

omit [DecidableEq α] in
theorem eq_empty {set : LinkedHashSet α} (hnone : set.elements = []) : set = empty :=
  LinkedHashSet.ext hnone

/-- A set is copied into an empty one. -/
theorem addAll_empty (set : LinkedHashSet α) : empty.addAll set.elements = set := by
  have hcopy : set.elements.foldl add [] = [] ++ set.elements := foldl_add_of_nodup set.nodup
  exact LinkedHashSet.ext hcopy

end LinkedHashSet

end WindscribeVpn.Foundations.LinkedSets
