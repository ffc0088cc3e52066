import Mathlib.Data.Option.Basic
import Mathlib.Logic.Function.Basic

/-!
# Tables keyed by one column

A table with a primary key is a function from keys to optional rows. Inserting with replacement
writes the row at its own key (`upsert`), a batch is inserted in the order of its list
(`upsertAll`), and `eraseAll` deletes by key. A *patch* inserts a batch and then deletes a list of
keys.

`upsertAll_congr` is the fact the others come from: what a batch leaves at a key depends on the
table before it only where the batch has no row. So a patch absorbs what it has already done, its
insertions (`patch_upsertAll`) and its deletions (`patch_eraseAll`), and may be repeated from any of
its points.
-/

set_option autoImplicit false
set_option relaxedAutoImplicit false

namespace WindscribeVpn.Foundations.KeyedTables

/-- The rows of a table by their key. -/
abbrev Table (κ ρ : Type*) := κ → Option ρ

variable {κ ρ : Type*} [DecidableEq κ] (key : ρ → κ)

/-- Inserts a row, replacing the one of the same key. -/
def upsert (t : Table κ ρ) (row : ρ) : Table κ ρ := Function.update t (key row) (some row)

/-- Inserts a batch; of two rows of one key the later one stays. -/
def upsertAll (rows : List ρ) (t : Table κ ρ) : Table κ ρ := rows.foldl (upsert key) t

/-- Deletes the rows of the given keys. -/
def eraseAll (keys : List κ) (t : Table κ ρ) : Table κ ρ := fun k ↦ if k ∈ keys then none else t k

/-- Inserts a batch and then deletes by key. -/
def patch (rows : List ρ) (keys : List κ) (t : Table κ ρ) : Table κ ρ :=
  eraseAll keys (upsertAll key rows t)

@[simp] theorem upsertAll_nil (t : Table κ ρ) : upsertAll key [] t = t := rfl

@[simp] theorem upsertAll_cons (row : ρ) (rows : List ρ) (t : Table κ ρ) :
    upsertAll key (row :: rows) t = upsertAll key rows (upsert key t row) := rfl

variable {rows : List ρ} {keys : List κ} {s t : Table κ ρ} {k : κ}

/-- What a batch leaves at a key depends on the table before it only where the batch has no row. -/
theorem upsertAll_congr (hagree : k ∈ rows.map key ∨ s k = t k) :
    upsertAll key rows s k = upsertAll key rows t k := by
  induction rows generalizing s t with
  | nil =>
    rcases hagree with hmem | hsame
    · cases hmem
    · exact hsame
  | cons row rows ih =>
    rw [upsertAll_cons, upsertAll_cons]
    apply ih
    by_cases hrow : k = key row
    · right
      rw [upsert, upsert, hrow, Function.update_self, Function.update_self]
    · rcases hagree with hmem | hsame
      · left
        exact (List.mem_cons.mp hmem).resolve_left hrow
      · right
        rw [upsert, upsert, Function.update_of_ne hrow, Function.update_of_ne hrow, hsame]

/-- A batch leaves the keys it has no row for. -/
theorem upsertAll_of_notMem (hmem : k ∉ rows.map key) : upsertAll key rows t k = t k := by
  induction rows generalizing t with
  | nil => rfl
  | cons row rows ih =>
    rw [List.map_cons, List.mem_cons, not_or] at hmem
    rw [upsertAll_cons, ih hmem.2, upsert, Function.update_of_ne hmem.1]

/-- A batch inserted twice is inserted once. -/
theorem upsertAll_upsertAll (rows : List ρ) (t : Table κ ρ) :
    upsertAll key rows (upsertAll key rows t) = upsertAll key rows t := by
  funext k
  apply upsertAll_congr
  by_cases hmem : k ∈ rows.map key
  · exact Or.inl hmem
  · exact Or.inr (upsertAll_of_notMem key hmem)

/-- A patch absorbs its own insertions. -/
theorem patch_upsertAll (rows : List ρ) (keys : List κ) (t : Table κ ρ) :
    patch key rows keys (upsertAll key rows t) = patch key rows keys t := by
  rw [patch, upsertAll_upsertAll, patch]

/-- A patch absorbs its own deletions. -/
theorem patch_eraseAll (rows : List ρ) (keys : List κ) (t : Table κ ρ) :
    patch key rows keys (eraseAll keys t) = patch key rows keys t := by
  funext k
  by_cases hdeleted : k ∈ keys
  · rw [patch, patch, eraseAll, eraseAll, if_pos hdeleted, if_pos hdeleted]
  · rw [patch, patch, eraseAll, eraseAll, if_neg hdeleted, if_neg hdeleted]
    apply upsertAll_congr
    right
    rw [eraseAll, if_neg hdeleted]

end WindscribeVpn.Foundations.KeyedTables
