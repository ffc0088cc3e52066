import Mathlib.Data.List.Find
import Mathlib.Data.List.Nodup
import Mathlib.Data.List.Perm.Basic
import Mathlib.Tactic.SplitIfs

/-!
# Mutable objects that are shared by reference

A list of mutable objects is a list of references, and a write through one list is seen through
every other reference to the same object. `Objects` maps references to values; `alloc` makes new
objects and `modify` writes one. `modifyFirst` and `modifyAll` write the first object of a list that
passes a check, and all that do.

Where a key tells the objects of a list apart (`Keyed`), the object of a key is the first one with
it, and a write to this object is a write to the value of the key (`Keyed.get_modifyFirst`).
`promote` puts a reference in the place of the one with its key, at the head.
-/

set_option autoImplicit false
set_option relaxedAutoImplicit false

namespace WindscribeVpn.Foundations.SharedObjects

/-- The objects that were made so far. -/
structure Objects (α : Type*) where
  get : ℕ → α
  size : ℕ

namespace Objects

variable {α κ : Type*} (objects : Objects α)

/-- The references of objects that are about to be made. -/
def fresh (values : List α) : List ℕ := List.range' objects.size values.length

/-- Makes objects with some values. -/
def alloc (values : List α) : Objects α where
  get ref := if objects.size ≤ ref then (values[ref - objects.size]?).getD (objects.get ref)
    else objects.get ref
  size := objects.size + values.length

/-- Writes an object. -/
def modify (ref : ℕ) (write : α → α) : Objects α :=
  { objects with get := Function.update objects.get ref (write (objects.get ref)) }

/-- The first object of a list that passes a check. -/
def first (refs : List ℕ) (picked : α → Bool) : Option ℕ :=
  refs.find? fun ref ↦ picked (objects.get ref)

/-- Writes the first object of a list that passes a check, where there is one. -/
def modifyFirst (refs : List ℕ) (picked : α → Bool) (write : α → α) : Objects α :=
  match objects.first refs picked with
  | none => objects
  | some ref => objects.modify ref write

/-- Writes all objects of a list that pass a check. -/
def modifyAll (refs : List ℕ) (picked : α → Bool) (write : α → α) : Objects α :=
  { objects with
    get := fun ref ↦
      if ref ∈ refs ∧ picked (objects.get ref) = true then write (objects.get ref)
      else objects.get ref }

/-- The values behind some references. -/
def values (refs : List ℕ) : List α := refs.map objects.get

/-- Puts a reference at the head, in the place of the first one with its key. -/
def promote [DecidableEq κ] (key : α → κ) (ref : ℕ) (refs : List ℕ) : List ℕ :=
  ref :: refs.eraseP fun other ↦ key (objects.get other) = key (objects.get ref)

variable {objects}

theorem get_alloc_of_lt {values : List α} {ref : ℕ} (hold : ref < objects.size) :
    (objects.alloc values).get ref = objects.get ref := if_neg (Nat.not_le.mpr hold)

/-- The new objects have the values they were made with. -/
theorem values_alloc (values : List α) :
    (objects.alloc values).values (objects.fresh values) = values := by
  refine List.ext_getElem ?_ fun i hi hi' ↦ ?_
  · rw [Objects.values, List.length_map, fresh, List.length_range']
  · simp only [Objects.values, fresh, List.getElem_map, List.getElem_range', alloc]
    rw [if_pos (Nat.le_add_right _ _), Nat.one_mul, Nat.add_sub_cancel_left,
      List.getElem?_eq_getElem hi', Option.getD_some]

theorem mem_fresh {values : List α} {ref : ℕ} :
    ref ∈ objects.fresh values ↔
      objects.size ≤ ref ∧ ref < objects.size + values.length := by
  rw [fresh, List.mem_range'_1]

theorem get_modify {ref other : ℕ} {write : α → α} :
    (objects.modify ref write).get other =
      if other = ref then write (objects.get ref) else objects.get other :=
  Function.update_apply ..

theorem first_eq_some {refs : List ℕ} {picked : α → Bool} {ref : ℕ}
    (hfirst : objects.first refs picked = some ref) :
    ref ∈ refs ∧ picked (objects.get ref) = true := by
  have hpicked := List.find?_some hfirst
  exact ⟨List.mem_of_find?_eq_some hfirst, hpicked⟩

@[simp] theorem size_modifyFirst (refs : List ℕ) (picked : α → Bool) (write : α → α) :
    (objects.modifyFirst refs picked write).size = objects.size := by
  rw [modifyFirst]
  split <;> rfl

/-- Only the objects of the list are written. -/
theorem get_modifyFirst_of_notMem {refs : List ℕ} {picked : α → Bool} {write : α → α} {ref : ℕ}
    (href : ref ∉ refs) :
    (objects.modifyFirst refs picked write).get ref = objects.get ref := by
  rw [modifyFirst]
  rcases hfirst : objects.first refs picked with _ | found
  · rfl
  · rw [get_modify, if_neg]
    rintro rfl
    exact href (first_eq_some hfirst).1

theorem mem_of_mem_promote [DecidableEq κ] {key : α → κ} {ref other : ℕ} {refs : List ℕ}
    (hother : other ∈ objects.promote key ref refs) : other = ref ∨ other ∈ refs :=
  (List.mem_cons.mp hother).imp_right List.mem_of_mem_eraseP

/-- What every write leaves alone is left alone. -/
theorem apply_modifyFirst {β : Type*} (read : α → β) {write : α → α}
    (hwrite : ∀ value, read (write value) = read value) (refs : List ℕ) (picked : α → Bool)
    (ref : ℕ) :
    read ((objects.modifyFirst refs picked write).get ref) = read (objects.get ref) := by
  rw [modifyFirst]
  split
  · rfl
  · rw [get_modify]
    split_ifs with hsame
    · rw [hwrite, hsame]
    · rfl

theorem apply_modifyAll {β : Type*} (read : α → β) {write : α → α}
    (hwrite : ∀ value, read (write value) = read value) (refs : List ℕ) (picked : α → Bool)
    (ref : ℕ) :
    read ((objects.modifyAll refs picked write).get ref) = read (objects.get ref) := by
  rw [modifyAll]
  simp only
  split_ifs
  · exact hwrite _
  · rfl

/-- What is put at the head, in the place of the first one with its key, leaves the keys. -/
theorem map_cons_eraseP_perm [DecidableEq κ] (key : α → κ) (value : α) (list : List α)
    (hvalue : key value ∈ list.map key) :
    ((value :: list.eraseP fun other ↦ key other = key value).map key).Perm (list.map key) := by
  have herase : (list.eraseP fun other ↦ key other = key value).map key =
      (list.map key).erase (key value) := by
    rw [List.erase_eq_eraseP', List.eraseP_map]
    rfl
  rw [List.map_cons, herase]
  exact (List.perm_cons_erase hvalue).symm

/-- The keys of a list are those given, each once. -/
def Keyed (objects : Objects α) (key : α → κ) (keys : List κ) (refs : List ℕ) : Prop :=
  keys.Nodup ∧ (refs.map fun ref ↦ key (objects.get ref)).Perm keys

namespace Keyed

variable {key : α → κ} {keys : List κ} {refs : List ℕ}

/-- Only the keys of the references count. -/
theorem congr {objects' : Objects α} (hkeyed : objects.Keyed key keys refs)
    (hsame : ∀ ref ∈ refs, key (objects'.get ref) = key (objects.get ref)) :
    objects'.Keyed key keys refs :=
  ⟨hkeyed.1, by rw [List.map_congr_left hsame]; exact hkeyed.2⟩

/-- The order of the references does not count. -/
theorem perm {refs' : List ℕ} (hkeyed : objects.Keyed key keys refs) (hperm : refs'.Perm refs) :
    objects.Keyed key keys refs' := ⟨hkeyed.1, (hperm.map _).trans hkeyed.2⟩

theorem nodup (hkeyed : objects.Keyed key keys refs) :
    (refs.map fun ref ↦ key (objects.get ref)).Nodup := hkeyed.2.nodup_iff.mpr hkeyed.1

/-- Two references of the list with one key are the same. -/
theorem inj (hkeyed : objects.Keyed key keys refs) {ref other : ℕ} (href : ref ∈ refs)
    (hother : other ∈ refs) (hsame : key (objects.get ref) = key (objects.get other)) :
    ref = other := List.inj_on_of_nodup_map hkeyed.nodup href hother hsame

theorem mem (hkeyed : objects.Keyed key keys refs) {ref : ℕ} (href : ref ∈ refs) :
    key (objects.get ref) ∈ keys :=
  hkeyed.2.mem_iff.mp (List.mem_map_of_mem (f := fun ref ↦ key (objects.get ref)) href)

variable [DecidableEq κ]

/-- A key of the list has an object. -/
theorem exists_first (hkeyed : objects.Keyed key keys refs) {k : κ} (hk : k ∈ keys) :
    ∃ ref ∈ refs, objects.first refs (fun value ↦ key value = k) = some ref ∧
      key (objects.get ref) = k := by
  obtain ⟨ref, href, hkey⟩ := List.mem_map.mp (hkeyed.2.mem_iff.mpr hk)
  rcases hfirst : objects.first refs fun value ↦ key value = k with _ | found
  · exact absurd (decide_eq_true hkey) (List.find?_eq_none.mp hfirst ref href)
  · obtain ⟨hfound, hpicked⟩ := first_eq_some hfirst
    exact ⟨found, hfound, rfl, of_decide_eq_true hpicked⟩

/-- Another key has none. -/
theorem first_eq_none (hkeyed : objects.Keyed key keys refs) {k : κ} (hk : k ∉ keys) :
    objects.first refs (fun value ↦ key value = k) = none := by
  refine List.find?_eq_none.mpr fun ref href hpicked ↦ hk ?_
  rw [← of_decide_eq_true hpicked]
  exact hkeyed.mem href

/-- A write to the object of a key is a write to the value of the key. -/
theorem get_modifyFirst (hkeyed : objects.Keyed key keys refs) (k : κ) (write : α → α) {ref : ℕ}
    (href : ref ∈ refs) :
    (objects.modifyFirst refs (fun value ↦ key value = k) write).get ref =
      if key (objects.get ref) = k then write (objects.get ref) else objects.get ref := by
  rw [modifyFirst]
  rcases hfirst : objects.first refs fun value ↦ key value = k with _ | found
  · have hnone := List.find?_eq_none.mp hfirst ref href
    exact (if_neg fun hkey ↦ hnone (decide_eq_true hkey)).symm
  · obtain ⟨hfound, hpicked⟩ := first_eq_some hfirst
    have hkey := of_decide_eq_true hpicked
    have hiff : ref = found ↔ key (objects.get ref) = k :=
      ⟨fun hsame ↦ hsame ▸ hkey, fun hsame ↦ hkeyed.inj href hfound (hsame.trans hkey.symm)⟩
    rw [get_modify, if_congr hiff rfl rfl]
    split_ifs with hsame
    · rw [hiff.mpr hsame]
    · rfl

/-- A reference with a key of the list may be put at the head. -/
theorem promote (hkeyed : objects.Keyed key keys refs) {ref : ℕ}
    (href : key (objects.get ref) ∈ keys) :
    objects.Keyed key keys (objects.promote key ref refs) := by
  refine ⟨hkeyed.1, ?_⟩
  rw [← hkeyed.2.mem_iff] at href
  exact (map_cons_eraseP_perm (fun other ↦ key (objects.get other)) ref refs href).trans hkeyed.2

end Keyed

end Objects

end WindscribeVpn.Foundations.SharedObjects
