import Mathlib.Data.Nat.Notation
import Mathlib.Data.List.Basic

/-!
# Write-behind cells

A value that many readers ask for is kept twice: in memory, where a write is seen at once, and in a
store, to which the write is committed later. A reader is given the value in memory, and the stored
one only when nothing was written. The edits that are launched and not committed yet are a list, and
any of them may be the next to be committed, so the store may end with an older value than the
memory.

A cell is `Sound` when it has no edits left over without a value in memory. A commit of a sound cell
changes nothing that is read (`Sound.read_commit`). Clearing the store and then the memory keeps a
cell sound only where no edit is left over, and an `Untouched` cell is such a one.
-/

set_option autoImplicit false
set_option relaxedAutoImplicit false

namespace WindscribeVpn.Foundations.WriteBehind

/-- A value in memory over a value in a store. -/
structure Cell (α : Type*) where
  /-- The value written since the memory was cleared. -/
  written : Option α
  stored : Option α
  /-- The values that are to be committed. -/
  edits : List α
  deriving DecidableEq, Repr

namespace Cell

variable {α : Type*} {c d : Cell α} {n : ℕ}

/-- A cell that was not written since the store was opened. -/
def ofStored (stored : Option α) : Cell α where
  written := none
  stored := stored
  edits := []

/-- The value a reader is given. -/
def read (c : Cell α) : Option α := c.written.or c.stored

/-- Writes to the memory and launches the edit. -/
def set (c : Cell α) (value : α) : Cell α :=
  { c with written := some value, edits := c.edits ++ [value] }

/-- Commits the `n`-th of the launched edits. -/
def commit (c : Cell α) (n : ℕ) : Option (Cell α) :=
  c.edits[n]?.map fun value ↦ { c with stored := some value, edits := c.edits.eraseIdx n }

/-- Clears the store. -/
def clearStored (c : Cell α) : Cell α := { c with stored := none }

/-- Clears the memory. -/
def clearWritten (c : Cell α) : Cell α := { c with written := none }

/-- No edit is left over without a value in memory. -/
def Sound (c : Cell α) : Prop := c.written = none → c.edits = []

/-- The cell was not written since its memory was cleared, and no edit is left over. -/
structure Untouched (c : Cell α) : Prop where
  written : c.written = none
  edits : c.edits = []

theorem untouched_ofStored (stored : Option α) : (ofStored stored).Untouched := ⟨rfl, rfl⟩

theorem Untouched.sound (hc : c.Untouched) : c.Sound := fun _ ↦ hc.edits

theorem Untouched.read (hc : c.Untouched) : c.read = c.stored := by
  rw [Cell.read, hc.written, Option.none_or]

theorem sound_set (c : Cell α) (value : α) : (c.set value).Sound := nofun

theorem Untouched.clearStored (hc : c.Untouched) : c.clearStored.Untouched :=
  ⟨hc.written, hc.edits⟩

theorem Untouched.clearWritten (hc : c.Untouched) : c.clearWritten.Untouched := ⟨rfl, hc.edits⟩

/-- An untouched cell has nothing to commit. -/
theorem Untouched.commit_eq_none (hc : c.Untouched) : c.commit n = none := by
  rw [commit, hc.edits, List.getElem?_nil, Option.map_none]

/-- A commit leaves the memory. -/
theorem written_commit (hcommit : c.commit n = some d) : d.written = c.written := by
  obtain ⟨value, -, rfl⟩ := Option.map_eq_some_iff.mp hcommit
  rfl

/-- There is something to commit in a sound cell only when a value is in memory. -/
theorem Sound.written_of_commit (hc : c.Sound) (hcommit : c.commit n = some d) :
    c.written ≠ none := by
  intro hwritten
  have hnone : c.commit n = none := Untouched.commit_eq_none ⟨hwritten, hc hwritten⟩
  rw [hnone] at hcommit
  cases hcommit

theorem Sound.commit (hc : c.Sound) (hcommit : c.commit n = some d) : d.Sound := by
  intro hwritten
  rw [written_commit hcommit] at hwritten
  exact absurd hwritten (hc.written_of_commit hcommit)

/-- A commit of a sound cell changes nothing that is read. -/
theorem Sound.read_commit (hc : c.Sound) (hcommit : c.commit n = some d) : d.read = c.read := by
  obtain ⟨value, hvalue⟩ := Option.ne_none_iff_exists'.mp (hc.written_of_commit hcommit)
  rw [read, read, written_commit hcommit, hvalue, Option.some_or, Option.some_or]

end Cell

end WindscribeVpn.Foundations.WriteBehind
