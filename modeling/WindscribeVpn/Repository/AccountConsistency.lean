import WindscribeVpn.Foundations.Runs
import WindscribeVpn.Repository.UserRepository

/-!
# The account under concurrent reloads and logouts

`Consistent` says what the four places of `UserRepository` should show. Once every reload has
finished they derive from one response, the last that was handed to a reload; and once a logout has
completed after it, no session is stored and nobody is logged in.

Nothing orders two reloads that are under way together. One whose response is older may write a
place after the newer one has, and then the places disagree (`not_consistent_overlap`). A logout
never takes the user out of the flow, so whoever was logged in once is logged in to the end of the
process (`loggedIn_of_reaches`, `not_consistent_of_loggedIn`); and a reload that is under way when
the preferences are cleared writes the session back.

`consistent_of_orderly` shows consistency for the runs in which a reload writes a place only while
the newest one has still to write it or with the value that the newest response gives, no newest
reload is cancelled before its writes, and the preferences are cleared only while no user is in the
flow and no reload holds a response, with none handed over before that logout is complete. `Tracks`
is the invariant that carries it: each place shows the newest response, or the newest reload has
still to write it.
-/

set_option autoImplicit false
set_option relaxedAutoImplicit false

namespace WindscribeVpn.Repository.AccountConsistency

open Foundations.Runs Foundations.WriteBehind UserRepository

/-! ### The property and the condition -/

/-- All reloads have finished. -/
def idle (s : State) : Bool := s.reloads.all fun reload ↦ reload == .finished

/-- A logout is clearing the preferences. -/
def clearing (s : State) : Bool := s.deletions.any Deletion.clears

/-- The four places derive from one response. -/
structure DerivesFrom (s : State) (response : UserSessionResponse) : Prop where
  session : getSession s = some response
  user : s.user = some ⟨response⟩
  userStatus : userStatus s = (User.mk response).status
  userName : userName s = (User.mk response).userName

/-- Once all reloads have finished, the four places derive from the last response that was handed
over, or there is no account left when a logout has completed after it. -/
structure Consistent (s : State) : Prop where
  agree : idle s → clearing s = false → ∀ account ∈ s.account, DerivesFrom s account.response
  loggedOut : idle s → s.account = none → getSession s = none ∧ loggedIn s = false

/-- The reload that the account was handed to has still to write a place. -/
def due (s : State) (account : Account) (place : Place) : Bool :=
  s.reloads[account.reload]?.any fun reload ↦ reload.due place

/-- Two responses give one value for a place. -/
def sameAt (first second : UserSessionResponse) : Place → Bool
  | .session => first == second
  | .user => first == second
  | .userStatus => (User.mk first).status == (User.mk second).status
  | .userName => (User.mk first).userName == (User.mk second).userName

/-- The condition on a step. -/
def orderly (s : State) : Action → Bool
  | .reload (some _) _ => !clearing s
  | .advance i =>
    (s.reloads[i]?.bind Reload.writes).all fun write ↦ s.account.any fun account ↦
      due s account write.2 || sameAt write.1 account.response write.2
  | .cancel i => s.account.all fun account ↦ account.reload != i || !due s account .user
  | .onSessionDeleted k =>
    s.deletions[k]? != some .launched ||
      (s.user.isNone && s.reloads.all fun reload ↦ reload.writes.isNone)
  | _ => true

/-- A step that meets the condition. -/
def Orderly (s : State) (a : Action) : Prop := orderly s a = true

instance decidableOrderly (s : State) (a : Action) : Decidable (Orderly s a) :=
  inferInstanceAs (Decidable (_ = true))

/-! ### What a step does -/

variable {s t : State}

/-- The steps of a reload that write no place. -/
inductive Moves (s : State) : Reload → Reload → Prop
  | finish (joined : Bool) : Moves s (.finishing joined) .finished
  | read (joined : Bool) {response : UserSessionResponse}
      (hsession : getSession s = some response) : Moves s (.reading joined) (.cached response)
  | missing (joined : Bool) (hsession : getSession s = none) : Moves s (.reading joined) .finished

/-- What a step can do. -/
inductive Effect (s : State) : Action → State → Prop
  | launch (response : Option UserSessionResponse) (joined : Bool) :
      Effect s (.reload response joined) (launchReload s response joined)
  | write {i : ℕ} {reload : Reload} {write : UserSessionResponse × Place}
      (hreload : s.reloads[i]? = some reload) (hwrite : reload.writes = some write) :
      Effect s (.advance i) ((s.write write.1 write.2).put i reload.afterWrite)
  | move {i : ℕ} {reload reload' : Reload} (hreload : s.reloads[i]? = some reload)
      (hmoves : Moves s reload reload') : Effect s (.advance i) (s.put i reload')
  /-- A reload that is cancelled has written nothing or all. -/
  | cancel {i : ℕ} {reload : Reload} (hreload : s.reloads[i]? = some reload)
      (hfirst : ∀ write ∈ reload.writes, write.2 = .session)
      (hdue : reload.due .user = false → ∀ place, reload.due place = false) :
      Effect s (.cancel i) (s.put i .finished)
  | commitSession {n : ℕ} {cell : Cell UserSessionResponse}
      (hcommit : s.session.commit n = some cell) :
      Effect s (.commit .session n) { s with session := cell }
  | commitStatus {n : ℕ} {cell : Cell ℤ} (hcommit : s.userStatus.commit n = some cell) :
      Effect s (.commit .userStatus n) { s with userStatus := cell }
  | commitName {n : ℕ} {cell : Cell String} (hcommit : s.userName.commit n = some cell) :
      Effect s (.commit .userName n) { s with userName := cell }
  /-- A logout goes on and clears nothing yet. -/
  | request (a : Action) {stage : Option LogoutStage} {deletions : List Deletion}
      (hclears : deletions.any Deletion.clears = clearing s) :
      Effect s a { s with logout := stage, deletions := deletions }
  | clearStored {k : ℕ} (hdeletion : s.deletions[k]? = some .launched) :
      Effect s (.onSessionDeleted k) (s.clearStored.putDeletion k .storeCleared)
  | clearWritten {k : ℕ} (hdeletion : s.deletions[k]? = some .storeCleared) :
      Effect s (.onSessionDeleted k) (s.clearWritten.putDeletion k .writtenCleared)
  | complete {k : ℕ} (hdeletion : s.deletions[k]? = some .writtenCleared) :
      Effect s (.onSessionDeleted k) ({ s with account := none }.putDeletion k .completed)

theorem forall_mem_writes {reload : Reload} {P : UserSessionResponse × Place → Prop}
    (hnone : reload.writes = none) : ∀ write ∈ reload.writes, P write := by
  rw [hnone]
  exact fun write hwrite ↦ absurd hwrite (Option.not_mem_none write)

theorem effect_of_advance {i : ℕ} (hstep : advance s i = some t) : Effect s (.advance i) t := by
  unfold advance at hstep
  split at hstep
  case h_1 response next joined hreload =>
    obtain rfl := Option.some.inj hstep
    exact .write hreload rfl
  case h_2 joined hreload =>
    obtain rfl := Option.some.inj hstep
    exact .move hreload (.finish joined)
  case h_3 joined hreload =>
    split at hstep
    case h_1 response hsession =>
      obtain rfl := Option.some.inj hstep
      exact .move hreload (.read joined hsession)
    case h_2 hsession =>
      obtain rfl := Option.some.inj hstep
      exact .move hreload (.missing joined hsession)
  case h_4 response hreload =>
    obtain rfl := Option.some.inj hstep
    exact .write hreload rfl
  case h_5 => cases hstep
  case h_6 => cases hstep

theorem effect_of_cancel {i : ℕ} (hstep : cancel s i = some t) : Effect s (.cancel i) t := by
  unfold cancel at hstep
  split at hstep
  case h_1 response hreload =>
    obtain rfl := Option.some.inj hstep
    refine .cancel hreload ?_ fun hdue ↦ absurd hdue.symm Bool.false_ne_true
    rintro _ ⟨⟩
    rfl
  case h_2 hreload =>
    obtain rfl := Option.some.inj hstep
    exact .cancel hreload (forall_mem_writes rfl) fun _ _ ↦ rfl
  case h_3 hreload =>
    obtain rfl := Option.some.inj hstep
    exact .cancel hreload (forall_mem_writes rfl) fun hdue ↦ absurd hdue.symm Bool.false_ne_true
  case h_4 => cases hstep

theorem effect_of_commit {place : Place} {n : ℕ} (hstep : step s (.commit place n) = some t) :
    Effect s (.commit place n) t := by
  cases place with
  | session =>
    obtain ⟨cell, hcommit, rfl⟩ := Option.map_eq_some_iff.mp hstep
    exact .commitSession hcommit
  | user => cases hstep
  | userStatus =>
    obtain ⟨cell, hcommit, rfl⟩ := Option.map_eq_some_iff.mp hstep
    exact .commitStatus hcommit
  | userName =>
    obtain ⟨cell, hcommit, rfl⟩ := Option.map_eq_some_iff.mp hstep
    exact .commitName hcommit

theorem effect_of_deleteSession {success : Bool} (hstep : deleteSession s success = some t) :
    Effect s (.deleteSession success) t := by
  unfold deleteSession at hstep
  split at hstep
  case h_1 attempts hlogout =>
    split_ifs at hstep
    · obtain rfl := Option.some.inj hstep
      exact .request _ rfl
    · obtain rfl := Option.some.inj hstep
      exact .request _ (by simp [clearing, Deletion.clears])
  case h_2 => cases hstep

theorem effect_of_onSessionDeleted {k : ℕ} (hstep : onSessionDeleted s k = some t) :
    Effect s (.onSessionDeleted k) t := by
  unfold onSessionDeleted at hstep
  split at hstep
  case h_1 hdeletion =>
    obtain rfl := Option.some.inj hstep
    exact .clearStored hdeletion
  case h_2 hdeletion =>
    obtain rfl := Option.some.inj hstep
    exact .clearWritten hdeletion
  case h_3 hdeletion =>
    obtain rfl := Option.some.inj hstep
    exact .complete hdeletion
  case h_4 => cases hstep
  case h_5 => cases hstep

/-- Every step has one of the effects. -/
theorem effect_of_step (a : Action) (hstep : step s a = some t) : Effect s a t := by
  cases a with
  | reload response joined =>
    obtain rfl := Option.some.inj hstep
    exact .launch response joined
  | advance i => exact effect_of_advance hstep
  | cancel i => exact effect_of_cancel hstep
  | commit place n => exact effect_of_commit hstep
  | logout =>
    obtain rfl := Option.some.inj hstep
    split_ifs
    · exact .request _ rfl
    · exact .request _ rfl
  | signedOut =>
    simp only [step] at hstep
    split_ifs at hstep
    obtain rfl := Option.some.inj hstep
    exact .request _ rfl
  | deleteSession success => exact effect_of_deleteSession hstep
  | onSessionDeleted k => exact effect_of_onSessionDeleted hstep

/-! ### Nobody is logged out -/

/-- A write goes to one place. -/
theorem isSome_user_write (response : UserSessionResponse) (place : Place)
    (huser : s.user.isSome = true) : (s.write response place).user.isSome = true := by
  cases place with
  | user => rfl
  | session => exact huser
  | userStatus => exact huser
  | userName => exact huser

/-- No step takes the user out of the flow. -/
theorem isSome_user_step (a : Action) (huser : s.user.isSome = true) (hstep : step s a = some t) :
    t.user.isSome = true := by
  cases effect_of_step a hstep with
  | launch response joined =>
    cases response with
    | none => exact huser
    | some response => exact huser
  | write hreload hwrite => exact isSome_user_write _ _ huser
  | move hreload hmoves => exact huser
  | cancel hreload hfirst hdue => exact huser
  | commitSession hcommit => exact huser
  | commitStatus hcommit => exact huser
  | commitName hcommit => exact huser
  | request a hclears => exact huser
  | clearStored hdeletion => exact huser
  | clearWritten hdeletion => exact huser
  | complete hdeletion => exact huser

/-- Whoever was logged in once is logged in to the end of the process, whatever is logged out. -/
theorem loggedIn_of_reaches (hreach : Reaches step Always s t) (hloggedIn : loggedIn s = true) :
    loggedIn t = true :=
  hreach.invariant (fun s ↦ loggedIn s = true)
    (fun a _ _ huser _ hstep ↦ isSome_user_step a huser hstep) hloggedIn

/-- A logout of a user who is logged in does not leave the account consistent. -/
theorem not_consistent_of_loggedIn (hreach : Reaches step Always s t)
    (hloggedIn : loggedIn s = true) (hidle : idle t = true) (haccount : t.account = none) :
    ¬ Consistent t := by
  intro hconsistent
  have hout := (hconsistent.loggedOut hidle haccount).2
  rw [loggedIn_of_reaches hreach hloggedIn] at hout
  cases hout

/-! ### The preferences -/

/-- The preferences are sound. While no user is in the flow no reload has come past it, so the two
later places are untouched, and the session is too unless a reload has just written it. -/
structure Cells (s : State) : Prop where
  session : s.session.Sound
  userStatus : s.userStatus.Sound
  userName : s.userName.Sound
  early : s.user = none → ∀ reload ∈ s.reloads, ∀ write ∈ reload.writes, write.2.rank ≤ 1
  quiet : s.user = none → s.userStatus.Untouched ∧ s.userName.Untouched
  unwritten : s.user = none → (∀ reload ∈ s.reloads, ∀ write ∈ reload.writes, write.2 = .session) →
    s.session.Untouched

/-- No account is left, and no reload brings one back. -/
structure Cleared (s : State) : Prop where
  user : s.user = none
  stored : s.session.stored = none
  session : s.session.Untouched
  reloads : ∀ reload ∈ s.reloads, reload.writes = none

theorem cells_initial (stored : Option UserSessionResponse) : Cells (State.initial stored) where
  session := (Cell.untouched_ofStored _).sound
  userStatus := (Cell.untouched_ofStored _).sound
  userName := (Cell.untouched_ofStored _).sound
  early := by
    intro _ reload hreload
    obtain rfl := List.mem_singleton.mp hreload
    exact forall_mem_writes rfl
  quiet := fun _ ↦ ⟨Cell.untouched_ofStored _, Cell.untouched_ofStored _⟩
  unwritten := fun _ _ ↦ Cell.untouched_ofStored _

/-- Once a user is in the flow, the preferences only have to be sound. -/
theorem cells_of_isSome (huser : s.user.isSome = true) (hsession : s.session.Sound)
    (hstatus : s.userStatus.Sound) (hname : s.userName.Sound) : Cells s := by
  have hsome : s.user ≠ none := Option.isSome_iff_ne_none.mp huser
  exact ⟨hsession, hstatus, hname, fun hnone ↦ absurd hnone hsome, fun hnone ↦ absurd hnone hsome,
    fun hnone ↦ absurd hnone hsome⟩

/-- A reload is launched that does not write past the flow at once. -/
theorem cells_append {reload : Reload} (hcells : Cells s)
    (hearly : ∀ write ∈ reload.writes, write.2.rank ≤ 1) (account : Option Account) :
    Cells { s with reloads := s.reloads ++ [reload], account := account } where
  session := hcells.session
  userStatus := hcells.userStatus
  userName := hcells.userName
  early := by
    intro huser other hother
    rcases List.mem_append.mp hother with hold | hnew
    · exact hcells.early huser other hold
    · obtain rfl := List.mem_singleton.mp hnew
      exact hearly
  quiet := hcells.quiet
  unwritten := by
    intro huser hfirst
    exact hcells.unwritten huser fun other hother ↦ hfirst other (List.mem_append_left _ hother)

theorem cells_launchReload (hcells : Cells s) (response : Option UserSessionResponse)
    (joined : Bool) : Cells (launchReload s response joined) := by
  cases response with
  | none => exact cells_append hcells (forall_mem_writes rfl) s.account
  | some response =>
    refine cells_append hcells ?_ _
    rintro _ ⟨⟩
    exact Nat.zero_le 1

/-- A reload that has written nothing yet may move on, as long as it does not come past the flow. -/
theorem cells_put {i : ℕ} {reload reload' : Reload} (hcells : Cells s)
    (hreload : s.reloads[i]? = some reload)
    (hfirst : ∀ write ∈ reload.writes, write.2 = .session)
    (hearly : ∀ write ∈ reload'.writes, write.2.rank ≤ 1) : Cells (s.put i reload') where
  session := hcells.session
  userStatus := hcells.userStatus
  userName := hcells.userName
  early := by
    intro huser other hother
    rcases List.mem_or_eq_of_mem_set hother with hold | rfl
    · exact hcells.early huser other hold
    · exact hearly
  quiet := hcells.quiet
  unwritten := by
    intro huser hothers
    refine hcells.unwritten huser fun other hother ↦ ?_
    obtain ⟨j, hj⟩ := List.mem_iff_getElem?.mp hother
    by_cases hij : i = j
    · subst hij
      obtain rfl : reload = other := Option.some.inj (hreload.symm.trans hj)
      exact hfirst
    · have hsame : (s.put i reload').reloads[j]? = some other :=
        (List.getElem?_set_ne hij).trans hj
      exact hothers other (List.mem_of_getElem? hsame)

/-- A reload may end before it has written anything. -/
theorem cells_put_finished {i : ℕ} {reload : Reload} (hcells : Cells s)
    (hreload : s.reloads[i]? = some reload)
    (hfirst : ∀ write ∈ reload.writes, write.2 = .session) : Cells (s.put i .finished) :=
  cells_put hcells hreload hfirst (forall_mem_writes rfl)

/-- A reload writes its next place. -/
theorem cells_write {i : ℕ} {reload : Reload} {write : UserSessionResponse × Place}
    (hcells : Cells s) (hreload : s.reloads[i]? = some reload)
    (hwrite : reload.writes = some write) :
    Cells ((s.write write.1 write.2).put i reload.afterWrite) := by
  obtain ⟨response, place⟩ := write
  have hlate : 1 < place.rank → s.user.isSome = true := by
    intro hrank
    refine Option.isSome_iff_ne_none.mpr fun huser ↦ ?_
    have hearly := hcells.early huser reload (List.mem_of_getElem? hreload) _ hwrite
    exact absurd hearly (Nat.not_le.mpr hrank)
  cases place with
  | user => exact cells_of_isSome rfl hcells.session hcells.userStatus hcells.userName
  | userStatus =>
    exact cells_of_isSome (hlate (by decide)) hcells.session (Cell.sound_set _ _) hcells.userName
  | userName =>
    exact cells_of_isSome (hlate (by decide)) hcells.session hcells.userStatus (Cell.sound_set _ _)
  | session =>
    cases reload with
    | writing response' next joined =>
      obtain ⟨rfl, rfl⟩ := Prod.mk.inj (Option.some.inj hwrite)
      refine ⟨Cell.sound_set _ _, hcells.userStatus, hcells.userName, ?_, hcells.quiet, ?_⟩
      · intro huser other hother
        rcases List.mem_or_eq_of_mem_set hother with hold | rfl
        · exact hcells.early huser other hold
        · rintro _ ⟨⟩
          exact Nat.le_refl 1
      · intro huser hothers
        have hmem : Reload.writing response' .user joined ∈ s.reloads.set i _ :=
          List.mem_set (List.getElem?_eq_some_iff.mp hreload).1 _
        cases hothers _ hmem _ rfl
    | cached response' => cases hwrite
    | finishing joined => cases hwrite
    | reading joined => cases hwrite
    | finished => cases hwrite

/-- An orderly step keeps the preferences as they should be. -/
theorem cells_step (a : Action) (hcells : Cells s) (hcleared : clearing s = true → Cleared s)
    (hstep : step s a = some t) : Cells t := by
  cases effect_of_step a hstep with
  | launch response joined => exact cells_launchReload hcells response joined
  | write hreload hwrite => exact cells_write hcells hreload hwrite
  | move hreload hmoves =>
    cases hmoves with
    | finish joined => exact cells_put_finished hcells hreload (forall_mem_writes rfl)
    | read joined hsession =>
      refine cells_put hcells hreload (forall_mem_writes rfl) ?_
      rintro _ ⟨⟩
      exact Nat.le_refl 1
    | missing joined hsession => exact cells_put_finished hcells hreload (forall_mem_writes rfl)
  | cancel hreload hfirst hdue => exact cells_put_finished hcells hreload hfirst
  | commitSession hcommit =>
    refine ⟨hcells.session.commit hcommit, hcells.userStatus, hcells.userName, hcells.early,
      hcells.quiet, fun huser hfirst ↦ ?_⟩
    rw [(hcells.unwritten huser hfirst).commit_eq_none] at hcommit
    cases hcommit
  | commitStatus hcommit =>
    refine ⟨hcells.session, hcells.userStatus.commit hcommit, hcells.userName, hcells.early,
      fun huser ↦ ?_, hcells.unwritten⟩
    rw [(hcells.quiet huser).1.commit_eq_none] at hcommit
    cases hcommit
  | commitName hcommit =>
    refine ⟨hcells.session, hcells.userStatus, hcells.userName.commit hcommit, hcells.early,
      fun huser ↦ ?_, hcells.unwritten⟩
    rw [(hcells.quiet huser).2.commit_eq_none] at hcommit
    cases hcommit
  | request a hclears =>
    exact ⟨hcells.session, hcells.userStatus, hcells.userName, hcells.early, hcells.quiet,
      hcells.unwritten⟩
  | clearStored hdeletion =>
    exact ⟨hcells.session, hcells.userStatus, hcells.userName, hcells.early,
      fun huser ↦ ⟨(hcells.quiet huser).1.clearStored, (hcells.quiet huser).2.clearStored⟩,
      fun huser hfirst ↦ (hcells.unwritten huser hfirst).clearStored⟩
  | clearWritten hdeletion =>
    have hclears : clearing s = true :=
      List.any_eq_true.mpr ⟨_, List.mem_of_getElem? hdeletion, rfl⟩
    have hgone := hcleared hclears
    obtain ⟨hstatus, hname⟩ := hcells.quiet hgone.user
    exact ⟨hgone.session.clearWritten.sound, hstatus.clearWritten.sound, hname.clearWritten.sound,
      hcells.early, fun _ ↦ ⟨hstatus.clearWritten, hname.clearWritten⟩,
      fun _ _ ↦ hgone.session.clearWritten⟩
  | complete hdeletion =>
    exact ⟨hcells.session, hcells.userStatus, hcells.userName, hcells.early, hcells.quiet,
      hcells.unwritten⟩

/-! ### No account -/

/-- No session is read once the account is cleared. -/
theorem Cleared.getSession (hcleared : Cleared s) : getSession s = none := by
  rw [UserRepository.getSession, hcleared.session.read, hcleared.stored]

/-- A reload without a response finds nothing and ends. -/
theorem cleared_put {i : ℕ} {reload : Reload} (hcleared : Cleared s)
    (hwrites : reload.writes = none) : Cleared (s.put i reload) where
  user := hcleared.user
  stored := hcleared.stored
  session := hcleared.session
  reloads := by
    intro other hother
    rcases List.mem_or_eq_of_mem_set hother with hold | rfl
    · exact hcleared.reloads other hold
    · exact hwrites

/-- A response is handed to a reload. -/
def handsOver : Action → Bool
  | .reload (some _) _ => true
  | _ => false

/-- An account that is cleared stays so until a response is handed over. -/
theorem cleared_step {a : Action} (hcleared : Cleared s)
    (hkept : handsOver a = false) (hstep : step s a = some t) : Cleared t := by
  cases effect_of_step a hstep with
  | launch response joined =>
    cases response with
    | none =>
      refine ⟨hcleared.user, hcleared.stored, hcleared.session, fun reload hreload ↦ ?_⟩
      rcases List.mem_append.mp hreload with hold | hnew
      · exact hcleared.reloads reload hold
      · obtain rfl := List.mem_singleton.mp hnew
        rfl
    | some response => cases hkept
  | write hreload hwrite =>
    rw [hcleared.reloads _ (List.mem_of_getElem? hreload)] at hwrite
    cases hwrite
  | move hreload hmoves =>
    cases hmoves with
    | finish joined => exact cleared_put hcleared rfl
    | read joined hsession =>
      rw [hcleared.getSession] at hsession
      cases hsession
    | missing joined hsession => exact cleared_put hcleared rfl
  | cancel hreload hfirst hdue => exact cleared_put hcleared rfl
  | commitSession hcommit =>
    rw [hcleared.session.commit_eq_none] at hcommit
    cases hcommit
  | commitStatus hcommit =>
    exact ⟨hcleared.user, hcleared.stored, hcleared.session, hcleared.reloads⟩
  | commitName hcommit =>
    exact ⟨hcleared.user, hcleared.stored, hcleared.session, hcleared.reloads⟩
  | request a hclears =>
    exact ⟨hcleared.user, hcleared.stored, hcleared.session, hcleared.reloads⟩
  | clearStored hdeletion =>
    exact ⟨hcleared.user, rfl, hcleared.session.clearStored, hcleared.reloads⟩
  | clearWritten hdeletion =>
    exact ⟨hcleared.user, hcleared.stored, hcleared.session.clearWritten, hcleared.reloads⟩
  | complete hdeletion =>
    exact ⟨hcleared.user, hcleared.stored, hcleared.session, hcleared.reloads⟩

/-- Clearing the preferences leaves no account when no user is in the flow and no reload holds a
response. -/
theorem cleared_clearStored {k : ℕ} (hcells : Cells s) (huser : s.user = none)
    (hreloads : ∀ reload ∈ s.reloads, reload.writes = none) :
    Cleared (s.clearStored.putDeletion k .storeCleared) where
  user := huser
  stored := rfl
  session := by
    have hfirst : ∀ reload ∈ s.reloads, ∀ write ∈ reload.writes, write.2 = .session :=
      fun reload hreload ↦ forall_mem_writes (hreloads reload hreload)
    exact (hcells.unwritten huser hfirst).clearStored
  reloads := hreloads

/-! ### The newest response -/

/-- A place shows what a response gives for it. -/
def Shows (s : State) (response : UserSessionResponse) : Place → Prop
  | .session => s.session.read = some response
  | .user => s.user = some ⟨response⟩
  | .userStatus => s.userStatus.read = some (User.mk response).status
  | .userName => s.userName.read = some (User.mk response).userName

/-- Each place shows the newest response, or the reload that was handed it has still to write the
place. -/
structure Tracks (s : State) (account : Account) : Prop where
  places : ∀ place, Shows s account.response place ∨ due s account place = true
  own : ∀ reload, s.reloads[account.reload]? = some reload → ∀ write ∈ reload.writes,
    write.1 = account.response

variable {account : Account}

/-- A written place shows every response that gives the same value. -/
theorem shows_write {response response' : UserSessionResponse} {place : Place}
    (hsame : sameAt response response' place = true) :
    Shows (s.write response place) response' place := by
  cases place with
  | session => exact congrArg some (beq_iff_eq.mp hsame)
  | user => exact congrArg (fun response ↦ some (User.mk response)) (beq_iff_eq.mp hsame)
  | userStatus => exact congrArg some (beq_iff_eq.mp hsame)
  | userName => exact congrArg some (beq_iff_eq.mp hsame)

/-- The other places show what they did. -/
theorem shows_write_of_ne {response response' : UserSessionResponse} {place other : Place}
    (hne : other ≠ place) (hshows : Shows s response' other) :
    Shows (s.write response place) response' other := by
  cases place <;> cases other <;> first | exact hshows | exact absurd rfl hne

theorem sameAt_self (response : UserSessionResponse) (place : Place) :
    sameAt response response place = true := by
  cases place <;> exact beq_self_eq_true _

/-- A reload that has written a place has the places left that it had, less the one. -/
theorem due_afterWrite {reload : Reload} {write : UserSessionResponse × Place} {place : Place}
    (hwrite : reload.writes = some write) (hne : place ≠ write.2)
    (hdue : reload.due place = true) : reload.afterWrite.due place = true := by
  cases reload with
  | writing response next joined =>
    obtain rfl := Option.some.inj hwrite
    cases next <;> cases place <;>
      first | rfl | exact absurd rfl hne | exact absurd hdue Bool.false_ne_true
  | cached response =>
    obtain rfl := Option.some.inj hwrite
    exact absurd (beq_iff_eq.mp hdue) hne
  | finishing joined => cases hwrite
  | reading joined => cases hwrite
  | finished => cases hwrite

/-- A reload writes one response everywhere. -/
theorem writes_afterWrite {reload : Reload} {write write' : UserSessionResponse × Place}
    (hwrite : reload.writes = some write) (hwrite' : reload.afterWrite.writes = some write') :
    write'.1 = write.1 := by
  cases reload with
  | writing response next joined =>
    obtain rfl := Option.some.inj hwrite
    cases next with
    | userName => cases hwrite'
    | session => exact (congrArg Prod.fst (Option.some.inj hwrite')).symm
    | user => exact (congrArg Prod.fst (Option.some.inj hwrite')).symm
    | userStatus => exact (congrArg Prod.fst (Option.some.inj hwrite')).symm
  | cached response => cases hwrite'
  | finishing joined => cases hwrite
  | reading joined => cases hwrite
  | finished => cases hwrite

/-- What the newest reload has left depends on its entry only. -/
theorem due_put_of_ne {i : ℕ} (reload : Reload) (place : Place) (hne : i ≠ account.reload) :
    due (s.put i reload) account place = due s account place := by
  have hsame : (s.reloads.set i reload)[account.reload]? = s.reloads[account.reload]? :=
    List.getElem?_set_ne hne
  rw [due, due, State.put, hsame]

/-- The entry of a reload that moves on. -/
theorem getElem?_put {i : ℕ} {reload : Reload} (reload' : Reload)
    (hreload : s.reloads[i]? = some reload) : (s.put i reload').reloads[i]? = some reload' :=
  List.getElem?_set_self (List.getElem?_eq_some_iff.mp hreload).1

/-- A place that the newest reload has left, by its entry. -/
theorem due_eq {reload : Reload} (place : Place)
    (hreload : s.reloads[account.reload]? = some reload) :
    due s account place = reload.due place := by
  rw [due, hreload, Option.any_some]

/-- A reload moves on without a write. The newest one may do so as long as it forgets no place. -/
theorem tracks_put {i : ℕ} {reload reload' : Reload} (htracks : Tracks s account)
    (hreload : s.reloads[i]? = some reload)
    (hdue : i = account.reload → ∀ place, reload.due place = true → reload'.due place = true)
    (hown : i = account.reload → ∀ write ∈ reload'.writes, write.1 = account.response) :
    Tracks (s.put i reload') account := by
  by_cases hi : i = account.reload
  · subst hi
    have hentry := getElem?_put reload' hreload
    refine ⟨fun place ↦ ?_, fun other hother ↦ ?_⟩
    · refine (htracks.places place).imp id fun hplace ↦ ?_
      rw [due_eq place hreload] at hplace
      rw [due_eq place hentry]
      exact hdue rfl place hplace
    · obtain rfl : reload' = other := Option.some.inj (hentry.symm.trans hother)
      exact hown rfl
  · refine ⟨fun place ↦ ?_, fun other hother ↦ ?_⟩
    · rw [due_put_of_ne reload' place hi]
      exact htracks.places place
    · exact htracks.own other ((List.getElem?_set_ne hi).symm.trans hother)

/-- A reload writes a place that the newest one has still to write, or writes there what the newest
response gives. -/
theorem tracks_write {i : ℕ} {reload : Reload} {write : UserSessionResponse × Place}
    (htracks : Tracks s account) (hreload : s.reloads[i]? = some reload)
    (hwrite : reload.writes = some write)
    (horderly : due s account write.2 = true ∨
      sameAt write.1 account.response write.2 = true) :
    Tracks ((s.write write.1 write.2).put i reload.afterWrite) account := by
  have hreloads : (s.write write.1 write.2).reloads = s.reloads := by
    cases write.2 <;> rfl
  have hreload' : (s.write write.1 write.2).reloads[i]? = some reload := by
    rw [hreloads, hreload]
  have hdues : ∀ place, due (s.write write.1 write.2) account place = due s account place := by
    intro place
    rw [due, due, hreloads]
  by_cases hi : i = account.reload
  · subst hi
    have hresponse : write.1 = account.response := htracks.own reload hreload write hwrite
    have hentry := getElem?_put reload.afterWrite hreload'
    refine ⟨fun place ↦ ?_, fun other hother ↦ ?_⟩
    · by_cases hplace : place = write.2
      · subst hplace
        refine Or.inl (shows_write ?_)
        rw [hresponse]
        exact sameAt_self _ _
      · refine (htracks.places place).imp (shows_write_of_ne hplace) fun hdue ↦ ?_
        rw [due_eq place hreload] at hdue
        rw [due_eq place hentry]
        exact due_afterWrite hwrite hplace hdue
    · obtain rfl : reload.afterWrite = other := Option.some.inj (hentry.symm.trans hother)
      exact fun write' hwrite' ↦ (writes_afterWrite hwrite hwrite').trans hresponse
  · refine ⟨fun place ↦ ?_, fun other hother ↦ ?_⟩
    · rw [due_put_of_ne _ place hi, hdues]
      by_cases hplace : place = write.2
      · subst hplace
        exact horderly.symm.imp shows_write id
      · exact (htracks.places place).imp (shows_write_of_ne hplace) id
    · have hsame : (s.write write.1 write.2).reloads[account.reload]? = some other :=
        (List.getElem?_set_ne hi).symm.trans hother
      rw [hreloads] at hsame
      exact htracks.own other hsame

/-- A reload reads the stored session, or ends. The newest one finds the newest response there,
since it has only the flow to write. -/
theorem tracks_move {i : ℕ} {reload reload' : Reload} (htracks : Tracks s account)
    (hreload : s.reloads[i]? = some reload) (hmoves : Moves s reload reload') :
    Tracks (s.put i reload') account := by
  have hsession : ∀ joined, i = account.reload → reload = .reading joined →
      getSession s = some account.response := by
    rintro joined rfl rfl
    refine (htracks.places .session).resolve_right ?_
    rw [due_eq .session hreload]
    exact Bool.false_ne_true
  cases hmoves with
  | finish joined =>
    exact tracks_put htracks hreload (fun _ _ hdue ↦ hdue) fun _ ↦ forall_mem_writes rfl
  | read joined hread =>
    refine tracks_put htracks hreload (fun _ _ hdue ↦ hdue) fun hi write hwrite ↦ ?_
    obtain rfl := Option.some.inj hwrite
    exact Option.some.inj (hread.symm.trans (hsession joined hi rfl))
  | missing joined hread =>
    refine tracks_put htracks hreload (fun hi ↦ ?_) fun _ ↦ forall_mem_writes rfl
    cases hread.symm.trans (hsession joined hi rfl)

/-- A reload is cancelled that is not the newest, or has nothing to write. -/
theorem tracks_cancel {i : ℕ} {reload : Reload} (htracks : Tracks s account)
    (hreload : s.reloads[i]? = some reload)
    (hdue : reload.due .user = false → ∀ place, reload.due place = false)
    (horderly : account.reload ≠ i ∨ due s account .user = false) :
    Tracks (s.put i .finished) account := by
  refine tracks_put htracks hreload (fun hi place hplace ↦ ?_) fun _ ↦ forall_mem_writes rfl
  subst hi
  have huser := horderly.resolve_left fun hne ↦ hne rfl
  rw [due_eq .user hreload] at huser
  rw [hdue huser place] at hplace
  cases hplace

/-- The newest response after it was handed over: its reload has all the places left. -/
theorem tracks_handed (response : UserSessionResponse) (joined : Bool) :
    Tracks (launchReload s (some response) joined) ⟨response, s.reloads.length⟩ := by
  have hentry : (launchReload s (some response) joined).reloads[s.reloads.length]? =
      some (.writing response .session joined) := List.getElem?_concat_length
  refine ⟨fun place ↦ Or.inr ?_, fun reload hreload ↦ ?_⟩
  · rw [due, hentry]
    exact decide_eq_true (Nat.zero_le place.rank)
  · obtain rfl := Option.some.inj (hentry.symm.trans hreload)
    rintro _ ⟨⟩
    rfl

/-- A reload without a response is launched. -/
theorem tracks_launch (htracks : Tracks s account) (joined : Bool) :
    Tracks (launchReload s none joined) account := by
  refine ⟨fun place ↦ ?_, fun reload hreload ↦ ?_⟩
  · refine (htracks.places place).imp id fun hdue ↦ ?_
    obtain ⟨reload, hreload, hplace⟩ := (Option.any_eq_true _ _).mp hdue
    have hlength := (List.getElem?_eq_some_iff.mp hreload).1
    have hentry : (launchReload s none joined).reloads[account.reload]? = some reload :=
      (List.getElem?_append_left hlength).trans hreload
    rw [due_eq place hentry]
    exact hplace
  · have hentry := List.getElem?_append.symm.trans hreload
    split_ifs at hentry with hlength
    · exact htracks.own reload hentry
    · obtain rfl := List.mem_singleton.mp (List.mem_of_getElem? hentry)
      exact forall_mem_writes rfl

/-- A commit changes nothing that is shown. -/
theorem tracks_of_read {t : State} (htracks : Tracks s account)
    (hsession : t.session.read = s.session.read) (huser : t.user = s.user)
    (hstatus : t.userStatus.read = s.userStatus.read) (hname : t.userName.read = s.userName.read)
    (hreloads : t.reloads = s.reloads) : Tracks t account := by
  refine ⟨fun place ↦ ?_, fun reload hreload ↦ ?_⟩
  · rw [due, hreloads]
    refine (htracks.places place).imp (fun hshows ↦ ?_) id
    cases place with
    | session => exact hsession.trans hshows
    | user => exact huser.trans hshows
    | userStatus => exact hstatus.trans hshows
    | userName => exact hname.trans hshows
  · rw [hreloads] at hreload
    exact htracks.own reload hreload

/-! ### Consistency along orderly runs -/

/-- What holds along orderly runs. -/
structure Ledger (s : State) : Prop where
  cells : Cells s
  cleared : clearing s = true ∨ s.account = none → Cleared s
  tracks : clearing s = false → ∀ account ∈ s.account, Tracks s account

theorem ledger_initial (stored : Option UserSessionResponse) : Ledger (State.initial stored) where
  cells := cells_initial stored
  cleared := by
    rintro (hclearing | haccount)
    · cases hclearing
    · obtain rfl := Option.map_eq_none_iff.mp haccount
      refine ⟨rfl, rfl, Cell.untouched_ofStored _, fun reload hreload ↦ ?_⟩
      obtain rfl := List.mem_singleton.mp hreload
      rfl
  tracks := by
    intro _ account haccount
    obtain ⟨response, rfl, rfl⟩ := Option.map_eq_some_iff.mp haccount
    refine ⟨fun place ↦ ?_, fun reload hreload ↦ ?_⟩
    · cases place with
      | session => exact Or.inl rfl
      | user => exact Or.inr rfl
      | userStatus => exact Or.inl rfl
      | userName => exact Or.inl rfl
    · obtain rfl := Option.some.inj hreload
      exact forall_mem_writes rfl

/-- The ledger of a step that clears nothing and hands nothing over. -/
theorem ledger_of_same (hcells : Cells t) (hledger : Ledger s) (hclearing : clearing t = clearing s)
    (haccount : t.account = s.account) (hcleared : Cleared s → Cleared t)
    (htracks : ∀ account ∈ s.account, Tracks s account → Tracks t account) : Ledger t where
  cells := hcells
  cleared := by
    rw [hclearing, haccount]
    exact fun hgone ↦ hcleared (hledger.cleared hgone)
  tracks := by
    rw [hclearing, haccount]
    exact fun hopen account hmem ↦ htracks account hmem (hledger.tracks hopen account hmem)

/-- An orderly step keeps the ledger. -/
theorem ledger_step (a : Action) (hledger : Ledger s) (horderly : Orderly s a)
    (hstep : step s a = some t) : Ledger t := by
  have hcells : Cells t :=
    cells_step a hledger.cells (fun hclearing ↦ hledger.cleared (Or.inl hclearing)) hstep
  have hcleared : handsOver a = false → Cleared s → Cleared t :=
    fun hkept hgone ↦ cleared_step hgone hkept hstep
  cases effect_of_step a hstep with
  | launch response joined =>
    cases response with
    | none =>
      exact ledger_of_same hcells hledger rfl rfl (hcleared rfl)
        fun account _ htracks ↦ tracks_launch htracks joined
    | some response =>
      have hopen : clearing s = false := by simpa [Orderly, orderly] using horderly
      refine ⟨hcells, ?_, fun _ account haccount ↦ ?_⟩
      · rintro (hclearing | haccount)
        · cases hopen.symm.trans hclearing
        · cases haccount
      · obtain rfl := Option.some.inj haccount
        exact tracks_handed response joined
  | write hreload hwrite =>
    refine ledger_of_same hcells hledger ?_ ?_ (hcleared rfl) fun account haccount htracks ↦ ?_
    · cases Prod.snd _ <;> rfl
    · cases Prod.snd _ <;> rfl
    · refine tracks_write htracks hreload hwrite ?_
      obtain haccount : s.account = some account := haccount
      simpa [Orderly, orderly, hreload, hwrite, haccount] using horderly
  | move hreload hmoves =>
    exact ledger_of_same hcells hledger rfl rfl (hcleared rfl)
      fun account _ htracks ↦ tracks_move htracks hreload hmoves
  | cancel hreload hfirst hdue =>
    refine ledger_of_same hcells hledger rfl rfl (hcleared rfl) fun account haccount htracks ↦ ?_
    refine tracks_cancel htracks hreload hdue ?_
    obtain haccount : s.account = some account := haccount
    simpa [Orderly, orderly, haccount] using horderly
  | commitSession hcommit =>
    exact ledger_of_same hcells hledger rfl rfl (hcleared rfl) fun account _ htracks ↦
      tracks_of_read htracks (hledger.cells.session.read_commit hcommit) rfl rfl rfl rfl
  | commitStatus hcommit =>
    exact ledger_of_same hcells hledger rfl rfl (hcleared rfl) fun account _ htracks ↦
      tracks_of_read htracks rfl rfl (hledger.cells.userStatus.read_commit hcommit) rfl rfl
  | commitName hcommit =>
    exact ledger_of_same hcells hledger rfl rfl (hcleared rfl) fun account _ htracks ↦
      tracks_of_read htracks rfl rfl rfl (hledger.cells.userName.read_commit hcommit) rfl
  | request a hclears =>
    refine ledger_of_same hcells hledger hclears rfl ?_ fun account _ htracks ↦
      tracks_of_read htracks rfl rfl rfl rfl rfl
    exact fun hgone ↦ ⟨hgone.user, hgone.stored, hgone.session, hgone.reloads⟩
  | clearStored hdeletion =>
    have hclearing : clearing (s.clearStored.putDeletion _ .storeCleared) = true :=
      List.any_eq_true.mpr
        ⟨_, List.mem_set (List.getElem?_eq_some_iff.mp hdeletion).1 _, rfl⟩
    have hcondition : s.user = none ∧ ∀ reload ∈ s.reloads, reload.writes = none := by
      simpa [Orderly, orderly, hdeletion] using horderly
    refine ⟨hcells, fun _ ↦ ?_, fun hopen ↦ ?_⟩
    · exact cleared_clearStored hledger.cells hcondition.1 hcondition.2
    · cases hclearing.symm.trans hopen
  | clearWritten hdeletion =>
    have hclearing : clearing s = true :=
      List.any_eq_true.mpr ⟨_, List.mem_of_getElem? hdeletion, rfl⟩
    have hclearing' : clearing (s.clearWritten.putDeletion _ .writtenCleared) = true :=
      List.any_eq_true.mpr
        ⟨_, List.mem_set (List.getElem?_eq_some_iff.mp hdeletion).1 _, rfl⟩
    refine ⟨hcells, fun _ ↦ hcleared rfl (hledger.cleared (Or.inl hclearing)), fun hopen ↦ ?_⟩
    cases hclearing'.symm.trans hopen
  | complete hdeletion =>
    have hclearing : clearing s = true :=
      List.any_eq_true.mpr ⟨_, List.mem_of_getElem? hdeletion, rfl⟩
    exact ⟨hcells, fun _ ↦ hcleared rfl (hledger.cleared (Or.inl hclearing)),
      fun _ account haccount ↦ absurd haccount (Option.not_mem_none account)⟩

/-- Once all reloads have finished, the newest one has no place left. -/
theorem due_of_idle (hidle : idle s = true) (place : Place) : due s account place = false := by
  cases hentry : s.reloads[account.reload]? with
  | none => rw [due, hentry, Option.any_none]
  | some reload =>
    rw [due_eq place hentry]
    obtain rfl := beq_iff_eq.mp (List.all_eq_true.mp hidle reload (List.mem_of_getElem? hentry))
    rfl

/-- A ledger gives consistency. -/
theorem consistent_of_ledger (hledger : Ledger s) : Consistent s where
  agree := by
    intro hidle hopen account haccount
    have htracks := hledger.tracks hopen account haccount
    have hshows : ∀ place, Shows s account.response place := by
      intro place
      refine (htracks.places place).resolve_right ?_
      rw [due_of_idle hidle]
      exact Bool.false_ne_true
    refine ⟨hshows .session, hshows .user, ?_, ?_⟩
    · have hstatus : s.userStatus.read = _ := hshows .userStatus
      rw [userStatus, hstatus, Option.getD_some]
    · have hname : s.userName.read = _ := hshows .userName
      rw [userName, hname, Option.getD_some]
  loggedOut := by
    intro _ haccount
    have hcleared := hledger.cleared (Or.inr haccount)
    refine ⟨hcleared.getSession, ?_⟩
    rw [loggedIn, hcleared.user, Option.isSome_none]

/-- Every state of an orderly run is consistent. -/
theorem consistent_of_orderly (stored : Option UserSessionResponse)
    (hreach : Reaches step Orderly (State.initial stored) s) : Consistent s :=
  consistent_of_ledger (hreach.invariant Ledger
    (fun a _ _ hledger horderly hstep ↦ ledger_step a hledger horderly hstep)
    (ledger_initial stored))

/-! ### Two runs -/

/-- A free account for the runs below. -/
def freeResponse : UserSessionResponse where
  userName := some "ann"
  isPremium := some 0
  userAccountStatus := some 1
  userEmail := none
  emailStatus := some 0
  alcList := none
  sipCount := none

/-- The same account after it was upgraded. -/
def proResponse : UserSessionResponse := { freeResponse with isPremium := some 1 }

/-- The stored account is logged out before `init` has read it, with two requests that fail. Then
two responses are handed over, whose reloads take turns and whose edits of the session are committed
in the other order. -/
theorem consistent_of_orderly_takingTurns :
    ∃ s, Reaches step Orderly (State.initial (some freeResponse)) s ∧ idle s = true ∧
      s.account = some ⟨proResponse, 2⟩ ∧ Consistent s ∧ DerivesFrom s proResponse := by
  obtain ⟨s, hreach, hcheck⟩ := exists_reaches_of_run step Orderly
    (State.initial (some freeResponse))
    [.logout, .signedOut, .logout, .deleteSession false, .deleteSession false,
      .deleteSession true, .onSessionDeleted 0, .onSessionDeleted 0, .advance 0,
      .onSessionDeleted 0, .reload (some freeResponse) false, .advance 1,
      .reload (some proResponse) true, .advance 1, .advance 2, .commit .session 1, .advance 1,
      .advance 2, .advance 1, .advance 1, .advance 2, .advance 2, .cancel 2, .commit .session 0]
    (fun s ↦ idle s && !clearing s && (s.account == some ⟨proResponse, 2⟩)) (by decide)
  simp only [Bool.and_eq_true, Bool.not_eq_true', beq_iff_eq] at hcheck
  obtain ⟨⟨hidle, hopen⟩, haccount⟩ := hcheck
  have hconsistent := consistent_of_orderly (some freeResponse) hreach
  exact ⟨s, hreach, hidle, haccount, hconsistent, hconsistent.agree hidle hopen _ haccount⟩

/-- A reload with an older response writes the flow and the status after the newer one has: a user
who has upgraded is shown as free, over a stored session that says otherwise. -/
theorem not_consistent_overlap :
    ¬ ∀ (stored : Option UserSessionResponse) (s : State),
      Reaches step Always (State.initial stored) s → Consistent s := by
  intro hconsistent
  obtain ⟨s, hreach, hcheck⟩ := exists_reaches_of_run step Always (State.initial none)
    [.advance 0, .reload (some freeResponse) false, .reload (some proResponse) false, .advance 1,
      .advance 2, .advance 2, .advance 2, .advance 2, .advance 2, .advance 1, .advance 1,
      .advance 1, .advance 1]
    (fun s ↦ idle s && !clearing s && (s.account == some ⟨proResponse, 2⟩) &&
      (s.user == some ⟨freeResponse⟩)) (by decide)
  simp only [Bool.and_eq_true, Bool.not_eq_true', beq_iff_eq] at hcheck
  obtain ⟨⟨⟨hidle, hopen⟩, haccount⟩, huser⟩ := hcheck
  have hderives := (hconsistent none s hreach).agree hidle hopen _ haccount
  have hfree := User.mk.inj (Option.some.inj (huser.symm.trans hderives.user))
  revert hfree
  decide

end WindscribeVpn.Repository.AccountConsistency
