import WindscribeVpn.Backend.VPNState
import WindscribeVpn.Foundations.Runs
import Mathlib.Data.List.Basic
import Mathlib.Tactic.Set
import Mathlib.Tactic.SplitIfs

/-!
# What failover leaves of a held TUN

While `AutoConnectionManager.kt` drives a failover (`isEnabled`), a disconnect with one of the
handover errors keeps the TUN for the next attempt. Whoever stops driving has to say so with
`WindVpnController.endSession`, which releases the TUN or turns the hold into a blocking one; else
only a watchdog ends it. This module follows the manager through its attempts, dialogs and
callbacks, each of which may be answered at any time and in any order, and through disconnects and
published states.

`Unabandoned` is the promise: failover never stops driving with a hold that it has not answered with
`endSession`. `not_unabandoned_change` is a run that breaks it: the tunnel breaks while the dialog
for a change of protocol is open, and the user cancels the dialog. `Action.bare` names the exits
that call `stop` and not `endSession`, `Dutiful` is the condition that none of them is taken while a
hold is unanswered, and `unabandoned_of_dutiful` proves the promise for every run whose steps all
meet it.
-/

set_option autoImplicit false
set_option relaxedAutoImplicit false

namespace WindscribeVpn.AutoConnection.FailoverHold

open Backend Foundations.Runs

/-- What the manager waits for: the result of an attempt, the end of a delay or of a request, or the
answer to a dialog. -/
inductive Task
  /-- The attempt of `connectInForeground`. -/
  | foreground
  /-- The attempt of a protocol selected in one of the two dialogs. -/
  | selected
  /-- The delay behind a selection in the dialog for a change of protocol. -/
  | changeDelay
  /-- The request that sends the log. -/
  | sendingLog
  | failureDialog
  | changeDialog
  | allProtocolFailedDialog
  | debugLogSentDialog
  | preferredProtocolDialog
  | manualModeFailedDialog
  deriving DecidableEq, Repr

/-- An answer to a dialog: its cancel button, a protocol, or its other button. -/
inductive Reply
  | cancel
  | select
  | confirm
  deriving DecidableEq, Repr

/-- What the manager finds outside while one step runs. -/
structure Env where
  /-- `WindUtilities.isOnline()` at the first look. -/
  online : Bool := true
  /-- `WindUtilities.isOnline()` when a protocol is selected without a dialog. -/
  stillOnline : Bool := true
  isConnectingToConfigured : Bool := false
  /-- `connectionMode` is not automatic. -/
  manualMode : Bool := false
  /-- A protocol of the list is `Disconnected`. -/
  protocolLeft : Bool := true
  /-- A protocol of the list is `NextUp`. -/
  nextUp : Bool := true
  /-- The dialog is launched. -/
  launched : Bool := true
  /-- The network has no preferred protocol, or another one. -/
  unsaved : Bool := false
  /-- `isPreferredOn` of the network. -/
  preferredOn : Bool := false
  /-- The network has a name. -/
  named : Bool := true
  /-- The log was sent. -/
  sent : Bool := true
  deriving DecidableEq, Repr

/-- The manager. `continuation` says that the field is set. `held` says that a disconnect held the
TUN and neither `endSession` nor a `Connected` came since, `abandoned` that driving stopped so. -/
structure Manager where
  isEnabled : Bool
  continuation : Bool
  tasks : List Task
  held : Bool
  abandoned : Bool
  deriving DecidableEq, Repr

/-- The start of the process. -/
def Manager.initial : Manager := ⟨false, false, [], false, false⟩

/-- How the result of an attempt is taken. -/
inductive Outcome
  | connected
  /-- The error is shown to the user. -/
  | shown
  | userDisconnect
  | failed
  deriving DecidableEq, Repr

/-- The tests of a result, in the order in which all three places make them. -/
def outcome (result : VPNState) : Outcome :=
  if result.status = .connected then .connected
  else if result.error.map Error.showError = some true then .shown
  else if result.error.map Error.error = some .userDisconnect then .userDisconnect
  else .failed

/-- An action of the manager or of its surroundings. -/
inductive Action
  /-- `connectInForeground`; an automatic connect is ignored while something is connected. -/
  | connectInForeground (ignored : Bool) (env : Env)
  | changeProtocolInForeground (env : Env)
  /-- An attempt returns its result. -/
  | result (i : ℕ) (result : VPNState) (env : Env)
  /-- A delay or a request is over. -/
  | elapse (i : ℕ) (env : Env)
  /-- A dialog is answered. -/
  | reply (i : ℕ) (reply : Reply) (env : Env)
  /-- The coroutine of a task is cancelled, or a dialog goes unanswered. -/
  | drop (i : ℕ)
  /-- A backend disconnects. -/
  | disconnect (error : Option Error)
  /-- A `Connected` is published. -/
  | connected
  /-- The state collector handles a `Connected`. -/
  | collect
  deriving DecidableEq, Repr

/-! ### The manager -/

/-- `stop`. -/
def Manager.stop (s : Manager) : Manager := { s with isEnabled := false, continuation := false }

/-- `WindVpnController.endSession`. -/
def Manager.endSession (s : Manager) : Manager := { s with held := false }

/-- `giveUp` and `giveUpNoNetwork`. -/
def Manager.giveUp (s : Manager) : Manager := s.stop.endSession

/-- Something more to wait for. -/
def Manager.await (s : Manager) (task : Task) : Manager := { s with tasks := s.tasks ++ [task] }

/-- `onProtocolSelect` of the dialog for a failure. -/
def Manager.onProtocolSelect (s : Manager) (online : Bool) : Manager :=
  let left := if online then s else s.giveUp
  if left.isEnabled && left.continuation then left.await .selected else left

/-- `showConnectionFailureDialog`. -/
def Manager.showConnectionFailureDialog (s : Manager) (env : Env) : Manager :=
  if env.launched then s.await .failureDialog
  else if env.nextUp && s.isEnabled then s.onProtocolSelect env.stillOnline
  else s.stop.endSession

/-- `showAllProtocolFailedDialog`. -/
def Manager.showAllProtocolFailedDialog (s : Manager) (env : Env) : Manager :=
  if env.launched then s.await .allProtocolFailedDialog else s.stop

/-- `engageAutomaticMode`. -/
def Manager.engageAutomaticMode (s : Manager) (env : Env) : Manager :=
  if env.protocolLeft then s.showConnectionFailureDialog env
  else s.endSession.showAllProtocolFailedDialog env

/-- `showConnectionChangeDialog`. -/
def Manager.showConnectionChangeDialog (s : Manager) (env : Env) : Manager :=
  if env.launched then s.await .changeDialog else s.stop

/-- `showManualModeFailedDialog`. -/
def Manager.showManualModeFailedDialog (s : Manager) (env : Env) : Manager :=
  if env.launched then s.await .manualModeFailedDialog else s.giveUp

/-- `saveNetworkForFutureUse`. -/
def Manager.saveNetworkForFutureUse (s : Manager) (env : Env) : Manager :=
  if env.preferredOn then s.stop
  else if env.named then if env.launched then s.await .preferredProtocolDialog else s.stop
  else s

/-- `contactSupport`. -/
def Manager.contactSupport (s : Manager) (env : Env) : Manager :=
  if env.launched then s.await .debugLogSentDialog else s.stop

/-- `connectInForeground`, up to its attempt. -/
def Manager.connectInForeground (s : Manager) (ignored : Bool) (env : Env) : Manager :=
  if ignored then s
  else if env.online then
    { s.stop with continuation := true, isEnabled := true }.await .foreground
  else s.stop.endSession

/-- `changeProtocolInForeground`. -/
def Manager.changeProtocolInForeground (s : Manager) (env : Env) : Manager :=
  let driving := { s with isEnabled := true, continuation := true }
  if env.online then driving.showConnectionChangeDialog env else driving.giveUp

/-- What `connectInForeground` does at once with a result. -/
def Manager.takeResult (s : Manager) : Outcome → Manager
  | .connected => { s.stop with held := false }
  | .shown | .userDisconnect => s.stop.endSession
  | .failed => s

/-- The error is one that the dialog about the manual mode is for. -/
def showsManualDialog (result : VPNState) (env : Env) : Bool :=
  env.manualMode &&
    (result.error.map Error.error = some .timeoutError ||
      result.error.map Error.error = some .connectivityTestFailed ||
      result.error.map Error.error = some .authenticationError)

/-- `connectInForeground` behind its attempt. -/
def Manager.foregroundResult (s : Manager) (result : VPNState) (env : Env) : Manager :=
  let taken := s.takeResult (outcome result)
  let left := if !env.online && taken.isEnabled then taken.giveUp else taken
  if left.isEnabled then
    if env.isConnectingToConfigured then left.stop.endSession
    else if showsManualDialog result env then left.showManualModeFailedDialog env
    else left.engageAutomaticMode env
  else left

/-- `onProtocolSelect` of either dialog behind its attempt. -/
def Manager.selectedResult (s : Manager) (result : VPNState) (env : Env) : Manager :=
  match outcome result with
  | .connected =>
    let found := { s with held := false }
    if env.unsaved then found.saveNetworkForFutureUse env else found
  | .shown | .userDisconnect => s.stop
  | .failed => s.engageAutomaticMode env

/-- The result of an attempt. -/
def Manager.onResult (s : Manager) (result : VPNState) (env : Env) : Task → Option Manager
  | .foreground => some (s.foregroundResult result env)
  | .selected => some (s.selectedResult result env)
  | .changeDelay | .sendingLog | .failureDialog | .changeDialog | .allProtocolFailedDialog
  | .debugLogSentDialog | .preferredProtocolDialog | .manualModeFailedDialog => none

/-- The end of a delay or of a request. Behind the delay the attempt starts whether or not the
device is online. -/
def Manager.onElapsed (s : Manager) (env : Env) : Task → Option Manager
  | .changeDelay => some ((if env.online then s else s.giveUp).await .selected)
  | .sendingLog => some (if env.sent then s.contactSupport env else s.stop)
  | .foreground | .selected | .failureDialog | .changeDialog | .allProtocolFailedDialog
  | .debugLogSentDialog | .preferredProtocolDialog | .manualModeFailedDialog => none

/-- The answer to a dialog. -/
def Manager.onReply (s : Manager) (env : Env) : Task → Reply → Option Manager
  | .failureDialog, .cancel => some { s with isEnabled := false }.endSession
  | .failureDialog, .select => some (s.onProtocolSelect env.online)
  | .changeDialog, .cancel => some s.stop
  | .changeDialog, .select =>
    some (if s.isEnabled && s.continuation then s.await .changeDelay else s)
  | .allProtocolFailedDialog, .cancel => some s.stop
  | .allProtocolFailedDialog, .confirm =>
    some (if s.isEnabled && s.continuation then s.await .sendingLog else s)
  | .debugLogSentDialog, .cancel | .debugLogSentDialog, .confirm => some s.stop
  | .preferredProtocolDialog, .cancel | .preferredProtocolDialog, .confirm => some s.stop
  | .manualModeFailedDialog, .cancel => some s.giveUp
  | .manualModeFailedDialog, .confirm => some s
  | _, _ => none

/-- A step, without its history. A dialog that is answered stays until it is dropped. -/
def move (s : Manager) : Action → Option Manager
  | .connectInForeground ignored env => some (s.connectInForeground ignored env)
  | .changeProtocolInForeground env => some (s.changeProtocolInForeground env)
  | .result i result env =>
    s.tasks[i]?.bind ({ s with tasks := s.tasks.eraseIdx i }.onResult result env)
  | .elapse i env => s.tasks[i]?.bind ({ s with tasks := s.tasks.eraseIdx i }.onElapsed env)
  | .reply i reply env =>
    s.tasks[i]?.bind fun task ↦ s.onReply env task reply
  | .drop i => some { s with tasks := s.tasks.eraseIdx i }
  | .disconnect error => some { s with held := s.held || isHandover error s.isEnabled }
  | .connected => some { s with held := false }
  | .collect => some { s with isEnabled := false }

/-- The manager drives at some time during the step. -/
def Manager.drives (s : Manager) : Action → Bool
  | .changeProtocolInForeground _ => true
  | _ => s.isEnabled

/-- One step. -/
def step (s : Manager) (a : Action) : Option Manager :=
  (move s a).map fun t ↦
    { t with abandoned := t.abandoned || s.drives a && !t.isEnabled && t.held }

/-! ### What failover promises -/

/-- Driving never stopped with a hold that was not answered. -/
def Unabandoned (s : Manager) : Prop := s.abandoned = false

/-- The answers to a dialog that call `stop` and not `endSession`. -/
def Task.bareReply : Task → Reply → Bool
  | .changeDialog, .cancel | .allProtocolFailedDialog, .cancel | .debugLogSentDialog, _
  | .preferredProtocolDialog, _ => true
  | _, _ => false

/-- The exits that call `stop` and not `endSession`: a change of protocol whose dialog is not
launched or is cancelled, an attempt from a dialog that ends in a shown error or a user's
disconnect, the dialogs and the request about logs and preferences, and the state collector. -/
def Manager.bare (s : Manager) : Action → Bool
  | .changeProtocolInForeground env => env.online && !env.launched
  | .result i result _ =>
    s.tasks[i]? = some .selected &&
      (outcome result = .shown || outcome result = .userDisconnect)
  | .elapse i _ => s.tasks[i]? = some .sendingLog
  | .reply i reply _ => s.tasks[i]?.any fun task ↦ task.bareReply reply
  | .collect => true
  | .connectInForeground _ _ | .drop _ | .disconnect _ | .connected => false

/-- The condition on one step: none of these exits is taken while a hold is unanswered. -/
def Dutiful (s : Manager) (a : Action) : Prop := s.bare a = true → s.held = false

instance decidableDutiful (s : Manager) (a : Action) : Decidable (Dutiful s a) :=
  inferInstanceAs (Decidable (_ → _))

/-! ### What each part of the manager leaves -/

/-- No part of the manager holds the TUN. -/
structure Moves (s t : Manager) : Prop where
  held : t.held = true → s.held = true
  abandoned : t.abandoned = s.abandoned

/-- If it stops driving, it has answered the hold. -/
structure Leaves (s t : Manager) : Prop extends Moves s t where
  answered : s.isEnabled = true → t.isEnabled = false → t.held = false

variable {s t u : Manager} {env : Env}

theorem Moves.trans (hst : Moves s t) (htu : Moves t u) : Moves s u :=
  ⟨fun hu ↦ hst.held (htu.held hu), htu.abandoned.trans hst.abandoned⟩

theorem moves_stop (s : Manager) : Moves s s.stop := ⟨id, rfl⟩

theorem moves_await (s : Manager) (task : Task) : Moves s (s.await task) := ⟨id, rfl⟩

/-- Whoever calls `endSession` has answered the hold. -/
theorem leaves_of_unheld (hunheld : t.held = false) (habandoned : t.abandoned = s.abandoned) :
    Leaves s t where
  held := fun ht ↦ by simp [hunheld] at ht
  abandoned := habandoned
  answered := fun _ _ ↦ hunheld

/-- Whoever goes on driving has nothing to answer. -/
theorem leaves_of_enabled (henabled : t.isEnabled = s.isEnabled) (hheld : t.held = s.held)
    (habandoned : t.abandoned = s.abandoned) : Leaves s t where
  held := fun ht ↦ hheld ▸ ht
  abandoned := habandoned
  answered := fun hs ht ↦ by simp [henabled, hs] at ht

theorem leaves_giveUp (s : Manager) : Leaves s s.giveUp := leaves_of_unheld rfl rfl

theorem leaves_await (s : Manager) (task : Task) : Leaves s (s.await task) :=
  leaves_of_enabled rfl rfl rfl

theorem leaves_onProtocolSelect (s : Manager) (online : Bool) :
    Leaves s (s.onProtocolSelect online) := by
  unfold Manager.onProtocolSelect
  cases online
  · exact leaves_of_unheld rfl rfl
  · simp only [↓reduceIte]
    split_ifs
    · exact leaves_await s .selected
    · exact leaves_of_enabled rfl rfl rfl

theorem leaves_showConnectionFailureDialog (s : Manager) (env : Env) :
    Leaves s (s.showConnectionFailureDialog env) := by
  unfold Manager.showConnectionFailureDialog
  split_ifs
  · exact leaves_await s .failureDialog
  · exact leaves_onProtocolSelect s env.stillOnline
  · exact leaves_giveUp s

theorem leaves_engageAutomaticMode (s : Manager) (env : Env) :
    Leaves s (s.engageAutomaticMode env) := by
  unfold Manager.engageAutomaticMode Manager.showAllProtocolFailedDialog
  split_ifs
  · exact leaves_showConnectionFailureDialog s env
  · exact leaves_of_unheld rfl rfl
  · exact leaves_of_unheld rfl rfl

theorem leaves_showManualModeFailedDialog (s : Manager) (env : Env) :
    Leaves s (s.showManualModeFailedDialog env) := by
  unfold Manager.showManualModeFailedDialog
  split_ifs
  · exact leaves_await s .manualModeFailedDialog
  · exact leaves_giveUp s

theorem leaves_connectInForeground (s : Manager) (ignored : Bool) (env : Env) :
    Leaves s (s.connectInForeground ignored env) := by
  unfold Manager.connectInForeground
  split_ifs
  · exact leaves_of_enabled rfl rfl rfl
  · exact ⟨⟨id, rfl⟩, fun _ hstopped ↦ by cases hstopped⟩
  · exact leaves_giveUp s

theorem leaves_takeResult (s : Manager) (o : Outcome) : Leaves s (s.takeResult o) := by
  cases o with
  | connected => exact leaves_of_unheld rfl rfl
  | shown | userDisconnect => exact leaves_giveUp s
  | failed => exact leaves_of_enabled rfl rfl rfl

/-- `connectInForeground` answers a hold on every exit. -/
theorem leaves_foregroundResult (s : Manager) (result : VPNState) (env : Env) :
    Leaves s (s.foregroundResult result env) := by
  unfold Manager.foregroundResult
  dsimp only
  set taken := s.takeResult (outcome result)
  have htaken : Leaves s taken := leaves_takeResult s (outcome result)
  set left := if !env.online && taken.isEnabled then taken.giveUp else taken with hleft
  have hs : Leaves s left := by
    rw [hleft]
    split_ifs
    · exact leaves_of_unheld rfl htaken.abandoned
    · exact htaken
  split_ifs with henabled
  · exact leaves_of_unheld rfl hs.abandoned
  · have hdialog := leaves_showManualModeFailedDialog left env
    exact ⟨hs.toMoves.trans hdialog.toMoves, fun _ ↦ hdialog.answered henabled⟩
  · have hengage := leaves_engageAutomaticMode left env
    exact ⟨hs.toMoves.trans hengage.toMoves, fun _ ↦ hengage.answered henabled⟩
  · exact hs

/-- An attempt from a dialog answers a hold when it connects and when it fails. -/
theorem leaves_selectedResult (s : Manager) {result : VPNState} (env : Env)
    (hshown : outcome result ≠ .shown) (huser : outcome result ≠ .userDisconnect) :
    Leaves s (s.selectedResult result env) := by
  unfold Manager.selectedResult Manager.saveNetworkForFutureUse
  split
  · dsimp only
    split_ifs <;> exact leaves_of_unheld rfl rfl
  · exact absurd ‹_› hshown
  · exact absurd ‹_› huser
  · exact leaves_engageAutomaticMode s env

theorem moves_selectedResult (s : Manager) (result : VPNState) (env : Env) :
    Moves s (s.selectedResult result env) := by
  by_cases hshown : outcome result = .shown
  · simp only [Manager.selectedResult, hshown]
    exact moves_stop s
  · by_cases huser : outcome result = .userDisconnect
    · simp only [Manager.selectedResult, huser]
      exact moves_stop s
    · exact (leaves_selectedResult s env hshown huser).toMoves

theorem moves_contactSupport (s : Manager) (env : Env) : Moves s (s.contactSupport env) := by
  unfold Manager.contactSupport
  split_ifs
  · exact moves_await s .debugLogSentDialog
  · exact moves_stop s

/-- A result answers the hold, or is one of the two bare ones. -/
theorem leaves_onResult {task : Task} {result : VPNState}
    (ht : s.onResult result env task = some t) :
    Moves s t ∧ (Leaves s t ∨
      task = .selected ∧ (outcome result = .shown ∨ outcome result = .userDisconnect)) := by
  cases task <;> cases ht
  · exact ⟨(leaves_foregroundResult s result env).toMoves,
      Or.inl (leaves_foregroundResult s result env)⟩
  · refine ⟨moves_selectedResult s result env, ?_⟩
    by_cases hshown : outcome result = .shown
    · exact Or.inr ⟨rfl, Or.inl hshown⟩
    · by_cases huser : outcome result = .userDisconnect
      · exact Or.inr ⟨rfl, Or.inr huser⟩
      · exact Or.inl (leaves_selectedResult s env hshown huser)

/-- The delay answers the hold; the request about the log is bare. -/
theorem leaves_onElapsed {task : Task} (ht : s.onElapsed env task = some t) :
    Moves s t ∧ (Leaves s t ∨ task = .sendingLog) := by
  cases task <;> cases ht
  · have hleaves : Leaves s ((if env.online then s else s.giveUp).await .selected) := by
      split_ifs
      · exact leaves_await s .selected
      · exact leaves_of_unheld rfl rfl
    exact ⟨hleaves.toMoves, Or.inl hleaves⟩
  · refine ⟨?_, Or.inr rfl⟩
    split_ifs
    · exact moves_contactSupport s env
    · exact moves_stop s

/-- The dialogs for a failure and for the manual mode answer the hold; the others are bare. -/
theorem leaves_onReply {task : Task} {reply : Reply} (ht : s.onReply env task reply = some t) :
    Moves s t ∧ (Leaves s t ∨ task.bareReply reply = true) := by
  unfold Manager.onReply at ht
  split at ht <;> cases ht
  · exact ⟨⟨nofun, rfl⟩, Or.inl (leaves_of_unheld rfl rfl)⟩
  · exact ⟨(leaves_onProtocolSelect s env.online).toMoves,
      Or.inl (leaves_onProtocolSelect s env.online)⟩
  · exact ⟨moves_stop s, Or.inr rfl⟩
  · have hleaves : Leaves s
        (if s.isEnabled && s.continuation then s.await .changeDelay else s) := by
      split_ifs <;> exact leaves_of_enabled rfl rfl rfl
    exact ⟨hleaves.toMoves, Or.inl hleaves⟩
  · exact ⟨moves_stop s, Or.inr rfl⟩
  · have hleaves : Leaves s
        (if s.isEnabled && s.continuation then s.await .sendingLog else s) := by
      split_ifs <;> exact leaves_of_enabled rfl rfl rfl
    exact ⟨hleaves.toMoves, Or.inl hleaves⟩
  · exact ⟨moves_stop s, Or.inr rfl⟩
  · exact ⟨moves_stop s, Or.inr rfl⟩
  · exact ⟨moves_stop s, Or.inr rfl⟩
  · exact ⟨moves_stop s, Or.inr rfl⟩
  · exact ⟨(leaves_giveUp s).toMoves, Or.inl (leaves_giveUp s)⟩
  · exact ⟨⟨id, rfl⟩, Or.inl (leaves_of_enabled rfl rfl rfl)⟩

/-! ### Runs -/

theorem Moves.unheld (h : Moves s t) (hs : s.held = false) : t.held = false := by
  rw [Bool.eq_false_iff]
  intro ht
  rw [h.held ht] at hs
  cases hs

/-- A dutiful step that stops driving leaves no hold unanswered. -/
theorem unheld_of_stopped {a : Action} (hdutiful : Dutiful s a) (ht : move s a = some t)
    (hdrives : s.drives a = true) (hstopped : t.isEnabled = false) : t.held = false := by
  cases a with
  | connectInForeground ignored env =>
    cases ht
    exact (leaves_connectInForeground s ignored env).answered hdrives hstopped
  | changeProtocolInForeground env =>
    cases ht
    unfold Manager.changeProtocolInForeground Manager.showConnectionChangeDialog at hstopped ⊢
    dsimp only at hstopped ⊢
    split_ifs at hstopped ⊢ with honline hlaunched
    · cases hstopped
    · exact hdutiful (by simp [Manager.bare, honline, hlaunched])
    · rfl
  | result i result env =>
    obtain ⟨task, htask, hresult⟩ := Option.bind_eq_some_iff.mp ht
    obtain ⟨hmoves, hleaves | ⟨rfl, hbare⟩⟩ := leaves_onResult hresult
    · exact hleaves.answered hdrives hstopped
    · exact hmoves.unheld (hdutiful (by simp [Manager.bare, htask, hbare]))
  | elapse i env =>
    obtain ⟨task, htask, helapsed⟩ := Option.bind_eq_some_iff.mp ht
    obtain ⟨hmoves, hleaves | rfl⟩ := leaves_onElapsed helapsed
    · exact hleaves.answered hdrives hstopped
    · exact hmoves.unheld (hdutiful (by simp [Manager.bare, htask]))
  | reply i reply env =>
    obtain ⟨task, htask, hreply⟩ := Option.bind_eq_some_iff.mp ht
    obtain ⟨hmoves, hleaves | hbare⟩ := leaves_onReply hreply
    · exact hleaves.answered hdrives hstopped
    · exact hmoves.unheld (hdutiful (by simp [Manager.bare, htask, hbare]))
  | drop i | disconnect error =>
    cases ht
    have hdriving : s.isEnabled = true := hdrives
    rw [hdriving] at hstopped
    cases hstopped
  | connected =>
    cases ht
    rfl
  | collect =>
    cases ht
    exact hdutiful rfl

/-- Only the history remembers that a hold was abandoned. -/
theorem move_abandoned {a : Action} (ht : move s a = some t) : t.abandoned = s.abandoned := by
  cases a with
  | connectInForeground ignored env =>
    cases ht
    exact (leaves_connectInForeground s ignored env).abandoned
  | changeProtocolInForeground env =>
    cases ht
    unfold Manager.changeProtocolInForeground Manager.showConnectionChangeDialog
    dsimp only
    split_ifs <;> rfl
  | result i result env =>
    obtain ⟨task, -, hresult⟩ := Option.bind_eq_some_iff.mp ht
    exact (leaves_onResult hresult).1.abandoned
  | elapse i env =>
    obtain ⟨task, -, helapsed⟩ := Option.bind_eq_some_iff.mp ht
    exact (leaves_onElapsed helapsed).1.abandoned
  | reply i reply env =>
    obtain ⟨task, -, hreply⟩ := Option.bind_eq_some_iff.mp ht
    exact (leaves_onReply hreply).1.abandoned
  | drop i | disconnect error | connected | collect =>
    cases ht
    rfl

theorem unabandoned_step {s' : Manager} {a : Action} (h : Unabandoned s) (hdutiful : Dutiful s a)
    (hstep : step s a = some s') : Unabandoned s' := by
  obtain ⟨t, ht, rfl⟩ := Option.map_eq_some_iff.mp hstep
  have habandoned : t.abandoned = false := (move_abandoned ht).trans h
  simp only [Unabandoned, habandoned, Bool.false_or]
  cases hdrives : s.drives a with
  | false => rfl
  | true =>
    cases hstopped : t.isEnabled with
    | false => simp [unheld_of_stopped hdutiful ht hdrives hstopped]
    | true => rfl

/-- **Failover abandons no held TUN.** In every run whose steps all meet the condition, whenever the
manager stops driving it has answered every hold with `endSession`, or a `Connected` came. -/
theorem unabandoned_of_dutiful (hreach : Reaches step Dutiful Manager.initial s) :
    Unabandoned s :=
  hreach.invariant Unabandoned (fun _ _ _ hx hdutiful hstep ↦ unabandoned_step hx hdutiful hstep)
    rfl

/-- The first attempt times out. -/
def timesOut (env : Env) : List Action :=
  [.connectInForeground false {}, .disconnect (some { error := .timeoutError }),
    .result 0 { status := .disconnected, error := some { error := .timeoutError } } env]

/-- In the background every protocol times out, and the last attempt ends the walk. -/
def exhaustedRun : List Action :=
  List.flatten [timesOut { launched := false }, [.disconnect (some { error := .timeoutError }),
    .result 0 { status := .disconnected, error := some { error := .timeoutError } }
      { protocolLeft := false, launched := false }]]

/-- In `exhaustedRun` two attempts hold the TUN, and driving stops. -/
theorem unabandoned_of_dutiful_exhausted :
    ∃ s, Reaches step Dutiful Manager.initial s ∧ s.isEnabled = false ∧ s.held = false ∧
      Unabandoned s := by
  obtain ⟨s, hreach, hcheck⟩ := exists_reaches_of_run step Dutiful Manager.initial exhaustedRun
    (fun s ↦ decide (s.isEnabled = false ∧ s.held = false)) (by decide)
  obtain ⟨hstopped, hunheld⟩ := of_decide_eq_true hcheck
  exact ⟨s, hreach, hstopped, hunheld, unabandoned_of_dutiful hreach⟩

/-! ### Two runs that break the promise -/

/-- On a live connection the user opens the dialog for a change of protocol; the tunnel breaks; the
user cancels the dialog. -/
def changeRun : List Action :=
  [.changeProtocolInForeground {}, .disconnect (some { error := .brokenTunnel }),
    .reply 0 .cancel {}]

/-- The hold of the broken tunnel is left to the watchdog. -/
theorem not_unabandoned_change :
    ¬ ∀ s, Reaches step Always Manager.initial s → Unabandoned s := by
  intro hall
  obtain ⟨s, hreach, hbad⟩ := exists_reaches_of_run step Always Manager.initial changeRun
    (fun s ↦ s.abandoned && !s.isEnabled && s.held) (by decide)
  have hunabandoned := hall s hreach
  rw [hunabandoned] at hbad
  cases hbad

/-- The first attempt times out, the user selects the next protocol and disconnects during its
attempt. -/
def disconnectedRun : List Action :=
  List.flatten [timesOut {}, [.reply 0 .select {},
    .result 1 { status := .disconnected, error := some { error := .userDisconnect } } {}]]

/-- No `endSession` follows the attempt that timed out. -/
theorem not_unabandoned_disconnected :
    ¬ ∀ s, Reaches step Always Manager.initial s → Unabandoned s := by
  intro hall
  obtain ⟨s, hreach, hbad⟩ := exists_reaches_of_run step Always Manager.initial disconnectedRun
    (fun s ↦ s.abandoned && !s.isEnabled && s.held) (by decide)
  have hunabandoned := hall s hreach
  rw [hunabandoned] at hbad
  cases hbad

end WindscribeVpn.AutoConnection.FailoverHold
