import WindscribeVpn.Foundations.Runs

/-!
# The profile on disk and its copy in memory

`Util.saveProfile` writes the VPN profile to the file `wd.vp` and keeps a copy in memory, which
`Util.getProfile` prefers to the file. `WindUtilities.deleteProfile` and `deleteProfileCompletely`
remove the file; only the second drops the copy.

`Mirrors` is the promise of the copy: a reader is given a profile exactly when the file holds a
readable one of the type asked for, and then that one. `mirrors_iff` says what that means for the
copy. `keepsMirror_iff` is exact about a single step: the promise survives unless a write breaks off
or the file is deleted while there is a copy of something else. With it `mirrors_run_iff` says in
which runs the promise holds throughout, and `not_mirrors_deleteProfile` is the shortest run in
which it does not.

Profiles and their types are arbitrary; a profile that is read back from the file is the one that
was written.
-/

set_option autoImplicit false
set_option relaxedAutoImplicit false

namespace WindscribeVpn.Backend.ProfileCache

open Foundations.Runs

/-! ### The file and the copy -/

/-- What `wd.vp` holds. -/
inductive ProfileFile (Profile : Type*)
  | absent
  | unreadable
  | readable (profile : Profile)
  deriving DecidableEq, Repr

/-- How far a write that fails has come. -/
inductive WritePoint
  /-- The file could not be opened, and is as it was. -/
  | opening
  /-- The file has been emptied, and the profile is not complete in it. -/
  | writing
  /-- The profile is in the file, but flushing or closing it failed. -/
  | written
  deriving DecidableEq, Repr

/-- The two files and the copy in memory. -/
structure Storage (Profile : Type*) where
  cachedProfile : Option Profile
  file : ProfileFile Profile
  hasSelectedLocation : Bool
  deriving DecidableEq, Repr

/-- What happens to the profile. The flag of a deletion says whether the file system deletes. -/
inductive Action (Profile Kind : Type*)
  | saveProfile (profile : Profile)
  | failedSave (profile : Profile) (point : WritePoint)
  | deleteProfile (deletes : Bool)
  | deleteProfileCompletely (deletes : Bool)
  | getProfile (kind : Kind)
  | restart
  deriving DecidableEq, Repr

variable {Profile Kind : Type*}

namespace Storage

/-- `saveProfile` when nothing fails. -/
def saveProfile (s : Storage Profile) (profile : Profile) : Storage Profile :=
  { s with file := .readable profile, cachedProfile := some profile }

/-- `saveProfile` when an exception is thrown before the copy is replaced. -/
def failedSave (s : Storage Profile) (profile : Profile) : WritePoint → Storage Profile
  | .opening => s
  | .writing => { s with file := .unreadable }
  | .written => { s with file := .readable profile }

/-- `WindUtilities.deleteProfile`. -/
def deleteProfile (s : Storage Profile) (deletes : Bool) : Storage Profile :=
  match s.file with
  | .absent => s
  | .unreadable | .readable _ => if deletes then { s with file := .absent } else s

/-- `Util.clearProfileCache`. -/
def clearProfileCache (s : Storage Profile) : Storage Profile := { s with cachedProfile := none }

/-- `WindUtilities.deleteProfileCompletely`. -/
def deleteProfileCompletely (s : Storage Profile) (deletes : Bool) : Storage Profile :=
  let cleared := (s.deleteProfile deletes).clearProfileCache
  { cleared with hasSelectedLocation := cleared.hasSelectedLocation && !deletes }

variable [DecidableEq Kind] (kindOf : Profile → Kind)

/-- The second half of `getProfile`, which reads the file. -/
def readProfile (s : Storage Profile) (kind : Kind) : Option Profile × Storage Profile :=
  match s.file with
  | .readable profile =>
    if kindOf profile = kind then (some profile, { s with cachedProfile := some profile })
    else (none, s)
  | .absent | .unreadable => (none, s)

/-- `getProfile`. -/
def getProfile (s : Storage Profile) (kind : Kind) : Option Profile × Storage Profile :=
  match s.cachedProfile with
  | some cached => if kindOf cached = kind then (some cached, s) else s.readProfile kindOf kind
  | none => s.readProfile kindOf kind

/-- What one action does. -/
def step (s : Storage Profile) : Action Profile Kind → Storage Profile
  | .saveProfile profile => s.saveProfile profile
  | .failedSave profile point => s.failedSave profile point
  | .deleteProfile deletes => s.deleteProfile deletes
  | .deleteProfileCompletely deletes => s.deleteProfileCompletely deletes
  | .getProfile kind => (s.getProfile kindOf kind).2
  | .restart => s.clearProfileCache

/-- What a sequence of actions does. -/
def run (s : Storage Profile) (actions : List (Action Profile Kind)) : Storage Profile :=
  actions.foldl (step kindOf) s

/-- The storage of a new process over the files that it finds. -/
def initial (file : ProfileFile Profile) (hasSelectedLocation : Bool) : Storage Profile :=
  { cachedProfile := none, file, hasSelectedLocation }

/-! ### The promise -/

/-- A reader is given a profile exactly when the file holds a readable one of the type that is asked
for, and then that one. -/
def Mirrors (s : Storage Profile) : Prop :=
  ∀ kind profile, (s.getProfile kindOf kind).1 = some profile ↔
    s.file = .readable profile ∧ kindOf profile = kind

/-- The actions that keep the promise: a write that breaks off finds no copy, or leaves in the file
what the copy is of, and the file is not deleted while there is a copy. -/
def KeepsMirror (s : Storage Profile) : Action Profile Kind → Prop
  | .failedSave _ .writing => s.cachedProfile = none
  | .failedSave profile .written => ∀ cached, s.cachedProfile = some cached → cached = profile
  | .deleteProfile deletes => deletes = false ∨ s.cachedProfile = none
  | .saveProfile _ | .failedSave _ .opening | .deleteProfileCompletely _ | .getProfile _
  | .restart => True

/-! ### One step -/

variable {kindOf} {s : Storage Profile}

theorem readProfile_eq_some {kind : Kind} {profile : Profile} :
    (s.readProfile kindOf kind).1 = some profile ↔
      s.file = .readable profile ∧ kindOf profile = kind := by
  unfold readProfile
  cases hfile : s.file with
  | absent => simp
  | unreadable => simp
  | readable stored =>
    dsimp only
    by_cases hkind : kindOf stored = kind
    · rw [if_pos hkind]
      constructor
      · intro hsome
        obtain rfl := Option.some.inj hsome
        exact ⟨rfl, hkind⟩
      · rintro ⟨hsame, -⟩
        exact congrArg some (ProfileFile.readable.inj hsame)
    · rw [if_neg hkind]
      refine ⟨nofun, ?_⟩
      rintro ⟨hsame, hprofile⟩
      exact absurd (ProfileFile.readable.inj hsame ▸ hprofile) hkind

/-- The promise is that the file holds whatever there is a copy of. -/
theorem mirrors_iff : s.Mirrors kindOf ↔
    ∀ cached, s.cachedProfile = some cached → s.file = .readable cached := by
  constructor
  · intro hmirrors cached hcached
    refine ((hmirrors (kindOf cached) cached).mp ?_).1
    simp [getProfile, hcached]
  · intro hfile kind profile
    unfold getProfile
    cases hcached : s.cachedProfile with
    | none => exact readProfile_eq_some
    | some cached =>
      dsimp only
      by_cases hkind : kindOf cached = kind
      · rw [if_pos hkind, hfile cached hcached]
        constructor
        · intro hsome
          obtain rfl := Option.some.inj hsome
          exact ⟨rfl, hkind⟩
        · rintro ⟨hsame, -⟩
          exact congrArg some (ProfileFile.readable.inj hsame)
      · rw [if_neg hkind]
        exact readProfile_eq_some

theorem mirrors_of_none (hnone : s.cachedProfile = none) : s.Mirrors kindOf :=
  mirrors_iff.mpr fun cached hcached ↦ by rw [hnone] at hcached; cases hcached

theorem mirrors_saveProfile (s : Storage Profile) (profile : Profile) :
    (s.saveProfile profile).Mirrors kindOf :=
  mirrors_iff.mpr fun _ hcached ↦ congrArg ProfileFile.readable (Option.some.inj hcached)

/-- A profile that is read from the file is what the copy is of from then on. -/
theorem mirrors_getProfile (hmirrors : s.Mirrors kindOf) (kind : Kind) :
    (s.getProfile kindOf kind).2.Mirrors kindOf := by
  have hread : (s.readProfile kindOf kind).2.Mirrors kindOf := by
    unfold readProfile
    cases hfile : s.file with
    | absent => exact hmirrors
    | unreadable => exact hmirrors
    | readable profile =>
      dsimp only
      split_ifs
      · exact mirrors_iff.mpr fun cached hcached ↦
          congrArg ProfileFile.readable (Option.some.inj hcached)
      · exact hmirrors
  unfold getProfile
  cases s.cachedProfile with
  | none => exact hread
  | some cached =>
    dsimp only
    split_ifs
    · exact hmirrors
    · exact hread

/-- Emptying the file keeps the promise only where there is no copy. -/
theorem mirrors_of_unreadable {file : ProfileFile Profile}
    (hfile : ∀ profile, file ≠ .readable profile) :
    Mirrors kindOf { s with file := file } ↔ s.cachedProfile = none := by
  rw [mirrors_iff]
  constructor
  · intro hmirrors
    cases hcached : s.cachedProfile with
    | none => rfl
    | some cached => exact absurd (hmirrors cached hcached) (hfile cached)
  · intro hnone cached hcached
    exact absurd (hnone.symm.trans hcached) (Option.some_ne_none cached).symm

theorem mirrors_deleteProfile_iff (hmirrors : s.Mirrors kindOf) (deletes : Bool) :
    (s.deleteProfile deletes).Mirrors kindOf ↔ deletes = false ∨ s.cachedProfile = none := by
  unfold deleteProfile
  cases hfile : s.file with
  | absent =>
    refine iff_of_true hmirrors (Or.inr ?_)
    cases hcached : s.cachedProfile with
    | none => rfl
    | some cached =>
      have hheld := mirrors_iff.mp hmirrors cached hcached
      rw [hfile] at hheld
      cases hheld
  | unreadable =>
    cases deletes with
    | false => exact iff_of_true hmirrors (Or.inl rfl)
    | true => exact (mirrors_of_unreadable nofun).trans (or_iff_right nofun).symm
  | readable profile =>
    cases deletes with
    | false => exact iff_of_true hmirrors (Or.inl rfl)
    | true => exact (mirrors_of_unreadable nofun).trans (or_iff_right nofun).symm

/-- The actions that keep the promise are these and no others. -/
theorem keepsMirror_iff (s : Storage Profile) (a : Action Profile Kind)
    (hmirrors : s.Mirrors kindOf) : (s.step kindOf a).Mirrors kindOf ↔ s.KeepsMirror a := by
  cases a with
  | saveProfile profile => exact iff_of_true (mirrors_saveProfile s profile) trivial
  | failedSave profile point =>
    cases point with
    | opening => exact iff_of_true hmirrors trivial
    | writing => exact mirrors_of_unreadable nofun
    | written =>
      refine mirrors_iff.trans (forall₂_congr fun cached _ ↦ ?_)
      exact ⟨fun hsame ↦ (ProfileFile.readable.inj hsame).symm,
        fun hsame ↦ congrArg ProfileFile.readable hsame.symm⟩
  | deleteProfile deletes => exact mirrors_deleteProfile_iff hmirrors deletes
  | deleteProfileCompletely deletes => exact iff_of_true (mirrors_of_none rfl) trivial
  | getProfile kind => exact iff_of_true (mirrors_getProfile hmirrors kind) trivial
  | restart => exact iff_of_true (mirrors_of_none rfl) trivial

/-! ### Runs -/

/-- The promise holds throughout exactly the runs whose steps all keep it. -/
theorem mirrors_run_iff (kindOf : Profile → Kind) (file : ProfileFile Profile)
    (hasSelectedLocation : Bool) (actions : List (Action Profile Kind)) :
    (∀ past, past <+: actions →
      ((initial file hasSelectedLocation).run kindOf past).Mirrors kindOf) ↔
      ∀ past a, past ++ [a] <+: actions →
        ((initial file hasSelectedLocation).run kindOf past).KeepsMirror a :=
  forall_prefix_iff keepsMirror_iff (mirrors_of_none rfl) actions

/-- A profile is saved and `deleteProfile` removes the file: the copy is still served. -/
theorem not_mirrors_deleteProfile :
    ¬ ∀ (kindOf : String → Bool) (file : ProfileFile String) (hasSelectedLocation : Bool)
      (actions : List (Action String Bool)),
      ((initial file hasSelectedLocation).run kindOf actions).Mirrors kindOf := by
  intro hmirrors
  have hserved := hmirrors (fun _ ↦ true) .absent false
    [.saveProfile "profile", .deleteProfile true] true "profile"
  exact absurd (hserved.mp rfl).1 (by decide)

end Storage

end WindscribeVpn.Backend.ProfileCache
