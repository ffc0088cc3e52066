import WindscribeVpn.Foundations.Texts

/-!
# Lines

A text is cut into lines at line feeds, at carriage returns, and at pairs of the two (`lines`). A
text that is empty or ends with a line feed is finished: what comes after it starts a line of its
own, so that its lines stay what they are (`lines_append`). That makes a filter of lines work piece
by piece: a line that the filter drops can be left out of the text (`filter_lines_dropped`), and
texts with the same lines can be put in one another's place (`filter_lines_append_congr`).
-/

set_option autoImplicit false
set_option relaxedAutoImplicit false

namespace WindscribeVpn.Foundations.Lines

open Texts

/-- The characters that end a line. -/
def isBreak (c : Char) : Bool := c == '\n' || c == '\r'

/-- The lines of a text; after a break at the end there is an empty one. -/
def lines : Text → List Text
  | [] => [[]]
  | '\r' :: '\n' :: rest => [] :: lines rest
  | c :: rest => if isBreak c then [] :: lines rest else (lines rest).modifyHead (c :: ·)

/-- The text is empty or ends with a line feed. -/
def Finished (text : Text) : Prop := ∀ c, text.getLast? = some c → c = '\n'

/-- The text is one line. -/
def Unbroken (text : Text) : Prop := ∀ c ∈ text, isBreak c = false

instance (text : Text) : Decidable (Unbroken text) :=
  List.decidableBAll _ _

variable {text line : Text}

theorem lines_ne_nil (text : Text) : lines text ≠ [] := by
  induction text using lines.induct with
  | case1 => exact List.cons_ne_nil _ _
  | case2 rest ih => exact List.cons_ne_nil _ _
  | case3 c rest hpair hbreak ih =>
    rw [lines, if_pos hbreak]
    · exact List.cons_ne_nil _ _
    · exact hpair
  | case4 c rest hpair hbreak ih =>
    rw [lines, if_neg hbreak]
    · obtain ⟨head, tail, hlines⟩ := List.exists_cons_of_ne_nil ih
      rw [hlines]
      exact List.cons_ne_nil _ _
    · exact hpair

theorem finished_nil : Finished [] := fun _ hlast ↦ by cases hlast

theorem finished_of_getLast (hlast : text.getLast? = some '\n') : Finished text := by
  intro c hc
  exact Option.some.inj (hc.symm.trans hlast)

theorem finished_append_newline (text : Text) : Finished (text ++ ['\n']) :=
  finished_of_getLast List.getLast?_concat

theorem Finished.append {first second : Text} (hfirst : Finished first)
    (hsecond : Finished second) : Finished (first ++ second) := by
  intro c hlast
  rw [List.getLast?_append] at hlast
  cases hsome : second.getLast? with
  | none =>
    rw [hsome, Option.none_or] at hlast
    exact hfirst c hlast
  | some d =>
    rw [hsome, Option.some_or] at hlast
    exact Option.some.inj hlast ▸ hsecond d hsome

theorem Finished.tail {c : Char} {rest : Text} (hfinished : Finished (c :: rest)) :
    Finished rest := by
  intro d hlast
  refine hfinished d ?_
  cases rest with
  | nil => cases hlast
  | cons e rest => rwa [List.getLast?_cons_cons]

/-- A finished text with a first character other than a line feed goes on. -/
theorem Finished.tail_ne_nil {c : Char} {rest : Text} (hfinished : Finished (c :: rest))
    (hc : c ≠ '\n') : rest ≠ [] := by
  rintro rfl
  exact hc (hfinished c rfl)

theorem lines_cons_break {c : Char} {rest : Text} (hbreak : isBreak c = true)
    (hpair : ∀ after, c = '\r' → rest = '\n' :: after → False) :
    lines (c :: rest) = [] :: lines rest := by
  rw [lines, if_pos hbreak]
  exact hpair

theorem lines_cons {c : Char} {rest : Text} (hbreak : isBreak c = false) :
    lines (c :: rest) = (lines rest).modifyHead (c :: ·) := by
  rw [lines, if_neg (by rw [hbreak]; decide)]
  rintro after rfl -
  cases hbreak

/-- A finished text that is not empty has a line before its last, empty one. -/
theorem one_lt_length_lines (hfinished : Finished text) (hne : text ≠ []) :
    1 < (lines text).length := by
  induction text using lines.induct with
  | case1 => exact absurd rfl hne
  | case2 rest ih =>
    rw [lines, List.length_cons]
    exact Nat.succ_lt_succ (List.length_pos_iff.mpr (lines_ne_nil rest))
  | case3 c rest hpair hbreak ih =>
    rw [lines_cons_break hbreak hpair, List.length_cons]
    exact Nat.succ_lt_succ (List.length_pos_iff.mpr (lines_ne_nil rest))
  | case4 c rest hpair hbreak ih =>
    rw [lines_cons (Bool.eq_false_of_not_eq_true hbreak), List.length_modifyHead]
    refine ih hfinished.tail (hfinished.tail_ne_nil ?_)
    rintro rfl
    exact hbreak rfl

/-- What follows a finished text starts a line of its own. -/
theorem lines_append (hfinished : Finished text) (after : Text) :
    lines (text ++ after) = (lines text).dropLast ++ lines after := by
  induction text using lines.induct with
  | case1 => rfl
  | case2 rest ih =>
    have htail := ih hfinished.tail.tail
    rw [List.cons_append, List.cons_append, lines, htail, lines,
      List.dropLast_cons_of_ne_nil (lines_ne_nil rest), List.cons_append]
  | case3 c rest hpair hbreak ih =>
    have hpair' : ∀ next, c = '\r' → rest ++ after = '\n' :: next → False := by
      rintro next rfl hnext
      cases rest with
      | nil => exact hfinished.tail_ne_nil (by decide) rfl
      | cons d rest =>
        rw [List.cons_append, List.cons.injEq] at hnext
        exact hpair rest rfl (by rw [hnext.1])
    rw [List.cons_append, lines_cons_break hbreak hpair', ih hfinished.tail,
      lines_cons_break hbreak hpair, List.dropLast_cons_of_ne_nil (lines_ne_nil rest),
      List.cons_append]
  | case4 c rest hpair hbreak ih =>
    have hnot : isBreak c = false := Bool.eq_false_of_not_eq_true hbreak
    have hne : rest ≠ [] := by
      refine hfinished.tail_ne_nil ?_
      rintro rfl
      exact hbreak rfl
    obtain ⟨first, second, tail, hlines⟩ : ∃ first second tail,
        lines rest = first :: second :: tail := by
      match hlines : lines rest, one_lt_length_lines hfinished.tail hne with
      | first :: second :: tail, _ => exact ⟨first, second, tail, rfl⟩
    rw [List.cons_append, lines_cons hnot, ih hfinished.tail, lines_cons hnot, hlines]
    rfl

/-! ### Lines one by one -/

/-- The line before a line feed. -/
theorem lines_unbroken_append (hline : Unbroken line) (after : Text) :
    lines (line ++ '\n' :: after) = line :: lines after := by
  induction line with
  | nil => exact lines_cons_break rfl (by rintro _ ⟨⟩)
  | cons c rest ih =>
    rw [List.cons_append, lines_cons (hline c List.mem_cons_self),
      ih fun d hmem ↦ hline d (List.mem_cons_of_mem _ hmem)]
    rfl

theorem Unbroken.append {first second : Text} (hfirst : Unbroken first)
    (hsecond : Unbroken second) : Unbroken (first ++ second) := by
  intro c hmem
  rcases List.mem_append.mp hmem with hmem | hmem
  · exact hfirst c hmem
  · exact hsecond c hmem

variable (keep : Text → Bool)

/-- A line that is dropped might as well not be there. -/
theorem filter_lines_dropped (hline : Unbroken line) (hdropped : keep line = false) (after : Text) :
    (lines (line ++ '\n' :: after)).filter keep = (lines after).filter keep := by
  rw [lines_unbroken_append hline, List.filter_cons_of_neg (by rw [hdropped]; decide)]

/-- Texts of which the same lines are kept go on having the same lines after a finished one. -/
theorem filter_lines_append_congr (hfinished : Finished text) {after after' : Text}
    (hsame : (lines after).filter keep = (lines after').filter keep) :
    (lines (text ++ after)).filter keep = (lines (text ++ after')).filter keep := by
  rw [lines_append hfinished, lines_append hfinished, List.filter_append, List.filter_append, hsame]

end WindscribeVpn.Foundations.Lines
