import Mathlib.Data.String.Basic

/-!
# Splitting strings

`String.splitOn` goes through the bytes of a string. At a separator of one character it is
`List.splitOn` on the characters (`splitOn_singleton`), which can be evaluated. The proof follows
the loop: `before` has been split off, `part` has been read since the last separator. A string split
at itself has two empty parts (`splitOn_self`).
-/

set_option autoImplicit false
set_option relaxedAutoImplicit false

namespace WindscribeVpn.Foundations.Splitting

open String

section Position

variable (before part rest : List Char) (c d : Char)

/-- The loop is at the end when there is no rest. -/
theorem atEnd_iff_nil :
    Pos.Raw.atEnd (ofList (before ++ part ++ rest)) ⟨utf8Len before + utf8Len part⟩ = true ↔
      rest = [] := by
  rw [← utf8Len_append]
  exact atEnd_of_valid (before ++ part) rest

theorem get_cons :
    Pos.Raw.get (ofList (before ++ part ++ d :: rest)) ⟨utf8Len before + utf8Len part⟩ = d := by
  rw [← utf8Len_append]
  exact get_of_valid (before ++ part) (d :: rest)

theorem next_cons :
    Pos.Raw.next (ofList (before ++ part ++ d :: rest)) ⟨utf8Len before + utf8Len part⟩ =
      ⟨utf8Len before + utf8Len part + d.utf8Size⟩ := by
  rw [← utf8Len_append]
  exact next_of_valid (before ++ part) d rest

theorem atEnd_separator : Pos.Raw.atEnd (ofList [c]) ⟨0 + c.utf8Size⟩ = true := by
  have hend := (atEnd_of_valid [c] []).mpr rfl
  rwa [List.append_nil, utf8Len_cons, utf8Len_nil] at hend

end Position

/-- The loop of `splitOn` at a separator of one character. -/
theorem splitOnAux_singleton (c : Char) (before part rest : List Char) (acc : List String) :
    splitOnAux (ofList (before ++ part ++ rest)) (ofList [c]) ⟨utf8Len before⟩
        ⟨utf8Len before + utf8Len part⟩ 0 acc =
      acc.reverse ++ (List.splitOnPPrepend (· == c) rest part.reverse).map ofList := by
  induction rest generalizing before part acc with
  | nil =>
    rw [splitOnAux, if_pos ((atEnd_iff_nil before part []).mpr rfl), extract_of_valid]
    simp
  | cons d rest ih =>
    have hget : Pos.Raw.get (ofList [c]) 0 = c := get_of_valid [] [c]
    have hnext : Pos.Raw.next (ofList [c]) 0 = ⟨0 + c.utf8Size⟩ := next_of_valid [] c []
    have hback : Pos.Raw.unoffsetBy ⟨utf8Len before + utf8Len part⟩ 0 =
        ⟨utf8Len before + utf8Len part⟩ := rfl
    rw [splitOnAux, if_neg fun hend ↦ List.cons_ne_nil d rest
      ((atEnd_iff_nil before part (d :: rest)).mp hend), get_cons, hget]
    dsimp only
    rw [next_cons, hnext, atEnd_separator, hback, next_cons]
    by_cases heq : d = c
    · -- The part ends here, and the next one starts after the separator.
      subst heq
      have hpart : Pos.Raw.unoffsetBy ⟨utf8Len before + utf8Len part + d.utf8Size⟩
          ⟨0 + d.utf8Size⟩ = ⟨utf8Len before + utf8Len part⟩ := by
        simp [Pos.Raw.unoffsetBy]
      rw [if_pos (beq_self_eq_true d), if_pos rfl, hpart, extract_of_valid,
        List.splitOnPPrepend_cons_eq_if, if_pos (beq_self_eq_true d)]
      have hrest := ih (before ++ part ++ [d]) [] (ofList part :: acc)
      simpa [Nat.add_assoc] using hrest
    · have hne : ¬ (d == c) = true := by rwa [beq_iff_eq]
      rw [if_neg hne, List.splitOnPPrepend_cons_eq_if, if_neg hne]
      have hrest := ih before (part ++ [d]) acc
      simpa [Nat.add_assoc] using hrest

/-- Splitting at a character. -/
theorem splitOn_singleton (s : String) (c : Char) :
    s.splitOn (ofList [c]) = (s.toList.splitOn c).map ofList := by
  have hloop := splitOnAux_singleton c [] [] s.toList []
  have hsep : ¬ (ofList [c] == "") = true := by
    rw [beq_iff_eq]
    exact fun heq ↦ List.cons_ne_nil c [] (ofList_inj.mp heq)
  rw [splitOn, if_neg hsep, List.splitOn]
  simpa using hloop

/-- The loop of `splitOn` while a string is matched against itself: `before` has been read, and
`c :: rest` is still to come. -/
theorem splitOnAux_self (before : List Char) (c : Char) (rest : List Char) :
    splitOnAux (ofList (before ++ c :: rest)) (ofList (before ++ c :: rest)) 0
        ⟨utf8Len before⟩ ⟨utf8Len before⟩ [] =
      ["", ""] := by
  have hget : Pos.Raw.get (ofList (before ++ c :: rest)) ⟨utf8Len before⟩ = c :=
    get_of_valid before (c :: rest)
  have hnext : Pos.Raw.next (ofList (before ++ c :: rest)) ⟨utf8Len before⟩ =
      ⟨utf8Len before + c.utf8Size⟩ := next_of_valid before c rest
  have hwithin : ¬ Pos.Raw.atEnd (ofList (before ++ c :: rest)) ⟨utf8Len before⟩ = true :=
    fun hend ↦ List.cons_ne_nil c rest ((atEnd_of_valid before (c :: rest)).mp hend)
  have hend : Pos.Raw.atEnd (ofList (before ++ c :: rest)) ⟨utf8Len before + c.utf8Size⟩ = true ↔
      rest = [] := by
    have hsnoc := atEnd_of_valid (before ++ [c]) rest
    rwa [utf8Len_append, utf8Len_cons, utf8Len_nil, Nat.zero_add, List.append_assoc] at hsnoc
  rw [splitOnAux, if_neg hwithin, if_pos (beq_self_eq_true _), hnext]
  dsimp only
  cases rest with
  | nil =>
    rw [if_pos (hend.mpr rfl), splitOnAux, if_pos (hend.mpr rfl)]
    have hstart : Pos.Raw.unoffsetBy ⟨utf8Len before + c.utf8Size⟩
        ⟨utf8Len before + c.utf8Size⟩ = 0 := by
      simp [Pos.Raw.unoffsetBy]
    have hfirst : Pos.Raw.extract (ofList (before ++ [c])) 0 0 = "" :=
      extract_of_valid [] [] (before ++ [c])
    have hlast := extract_of_valid (before ++ [c]) [] []
    simp only [List.append_nil, utf8Len_append, utf8Len_cons, utf8Len_nil, Nat.zero_add,
      Nat.add_zero] at hlast
    rw [hstart, hfirst, hlast]
    rfl
  | cons d rest =>
    rw [if_neg fun hnil ↦ List.cons_ne_nil d rest (hend.mp hnil)]
    have hrest := splitOnAux_self (before ++ [c]) d rest
    simpa using hrest

/-- A string that is not empty is split at itself into two empty parts. -/
theorem splitOn_self {s : String} (hs : s ≠ "") : s.splitOn s = ["", ""] := by
  have hsep : ¬ (s == "") = true := by rwa [beq_iff_eq]
  rw [splitOn, if_neg hsep]
  cases hlist : s.toList with
  | nil => exact absurd (toList_eq_nil_iff.mp hlist) hs
  | cons c rest =>
    have hself := splitOnAux_self [] c rest
    rwa [List.nil_append, ← hlist, ofList_toList] at hself

end WindscribeVpn.Foundations.Splitting
