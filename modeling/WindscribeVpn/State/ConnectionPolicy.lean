import WindscribeVpn.Backend.VPNState
import Mathlib.Tactic.SplitIfs

/-!
# The connection policy

`ConnectionPolicy.kt` decides whether to connect on a network unasked, whether traffic is blocked
while no tunnel carries it, and what the service becomes once a session ends. Its functions are pure
in `PolicyInput`; who gathers the input, and when, is the business of the modules that use them.

`blockingApplies_optedOut` is the instruction of a network with Auto-Secure off, and
`serviceModeAfterSession_of_blocks` says which modes are decided while traffic is to be blocked.
-/

set_option autoImplicit false
set_option relaxedAutoImplicit false

namespace WindscribeVpn.State.ConnectionPolicy

open Backend

/-- `User.AccountStatus`. -/
inductive AccountStatus
  | okay
  | expired
  | banned
  deriving DecidableEq, Repr

/-- `WatchReason`. -/
inductive WatchReason
  | networkNotSecured
  | networkOptedOut
  | stoodDownByUser
  deriving DecidableEq, Repr

/-- `SessionEnd`. -/
inductive SessionEnd
  | userPause
  | userDisconnect
  | systemDisconnect
  | userTurnOff
  | connectFailed
  | noNetwork
  | awaitingSession
  | authFailed
  deriving DecidableEq, Repr

/-- `ServiceMode`. -/
inductive ServiceMode
  | off
  | watching (reason : WatchReason)
  | paused
  | failed (blocking : Bool)
  | noNetwork
  | awaitingSession
  | authFailed
  | accountBlocked (status : AccountStatus)
  deriving DecidableEq, Repr

/-- `PolicyInput`. -/
structure PolicyInput where
  isAutoSecureOn : Option Bool
  isNetworkStoodDown : Bool
  isNetworkOptedIn : Bool
  autoConnect : Bool
  autoStartOnBoot : Bool := false
  globalUserConnectionPreference : Bool
  accountStatus : Option AccountStatus
  status : Status
  serviceMode : Option ServiceMode
  canReadNetworkName : Bool
  isOnline : Bool := true
  isSystemLockdownEnabled : Bool := false
  isPreferredProtocolOn : Bool := false
  preferredProtocol : Option (String × String) := none
  activeProtocol : Option (String × String) := none
  isConnectingToConfigured : Bool := false
  deriving DecidableEq, Repr

/-! ### Decisions -/

/-- `accountCannotConnect`: a status that is not read yet is no verdict. -/
def accountCannotConnect (input : PolicyInput) : Bool :=
  input.accountStatus ≠ none ∧ input.accountStatus ≠ some .okay ∧
    input.isConnectingToConfigured = false

/-- `standsDown`. -/
def standsDown (input : PolicyInput) : Bool := input.isNetworkStoodDown

/-- `blockingApplies`. -/
def blockingApplies (input : PolicyInput) : Bool :=
  input.autoConnect && decide (input.isAutoSecureOn ≠ some false) && !standsDown input &&
    !input.isSystemLockdownEnabled && decide (input.serviceMode ≠ some .paused)

/-- `USER_INTENT_ENDS`, which `shouldBlockOutsideVpn` lists as well. -/
def SessionEnd.isUserIntent : SessionEnd → Bool
  | .userTurnOff | .userPause | .userDisconnect => true
  | .systemDisconnect | .connectFailed | .noNetwork | .awaitingSession | .authFailed => false

/-- `shouldBlockOutsideVpn`. -/
def shouldBlockOutsideVpn (input : PolicyInput) (sessionEnd : SessionEnd) : Bool :=
  !sessionEnd.isUserIntent && blockingApplies input

/-- `awaitsSecuredNetwork`. -/
def awaitsSecuredNetwork (input : PolicyInput) : Bool :=
  decide (input.isAutoSecureOn = some false) && input.globalUserConnectionPreference &&
    !standsDown input && !accountCannotConnect input

/-- `shouldWatch`. -/
def shouldWatch (input : PolicyInput) : Bool :=
  input.autoConnect && !accountCannotConnect input

/-- `networkAllowsAutoConnect`. -/
def networkAllowsAutoConnect (input : PolicyInput) : Bool :=
  input.isAutoSecureOn.getD (!input.canReadNetworkName)

/-- `restoresOptedOutSession`. -/
def restoresOptedOutSession (input : PolicyInput) : Bool :=
  input.globalUserConnectionPreference &&
    decide (input.serviceMode = some (.watching .networkOptedOut)) &&
    decide (input.isAutoSecureOn = some true)

/-- The modes that `shouldAutoConnect` waits out. -/
def ServiceMode.isSettled : ServiceMode → Bool
  | .paused | .failed _ | .awaitingSession | .authFailed => true
  | .off | .watching _ | .noNetwork | .accountBlocked _ => false

/-- `shouldAutoConnect`. -/
def shouldAutoConnect (input : PolicyInput) : Bool :=
  networkAllowsAutoConnect input && (input.autoConnect || restoresOptedOutSession input) &&
    input.isOnline && !standsDown input &&
    (decide (input.accountStatus = some .okay) || input.isConnectingToConfigured) &&
    decide (input.status = .disconnected) && !input.serviceMode.any ServiceMode.isSettled

/-- `shouldAutoDisconnect`. -/
def shouldAutoDisconnect (input : PolicyInput) : Bool :=
  decide (input.isAutoSecureOn = some false) && !input.isNetworkOptedIn &&
    decide (input.status = .connected)

/-- `shouldSwitchProtocol`. -/
def shouldSwitchProtocol (input : PolicyInput) : Bool :=
  if !input.isPreferredProtocolOn || decide (input.isAutoSecureOn ≠ some true) then false
  else
    match input.preferredProtocol, input.activeProtocol with
    | some preferred, some active => decide (input.status = .connected) && preferred != active
    | _, _ => false

/-- The mode after an end that is neither a pause nor a failure of its own. -/
def modeAfterDisconnect (input : PolicyInput) : ServiceMode :=
  if !shouldWatch input && !awaitsSecuredNetwork input then .off
  else if standsDown input then .watching .stoodDownByUser
  else if input.isAutoSecureOn = some false then .watching .networkOptedOut
  else .watching .networkNotSecured

/-- The mode of an account that cannot connect; there is none to name when it is not read. -/
def modeOfAccount (input : PolicyInput) : ServiceMode :=
  match input.autoConnect, input.accountStatus with
  | true, some status => .accountBlocked status
  | _, _ => .off

/-- `serviceModeAfterSession`. -/
def serviceModeAfterSession (input : PolicyInput) (sessionEnd : SessionEnd) : ServiceMode :=
  if !sessionEnd.isUserIntent && accountCannotConnect input then modeOfAccount input
  else
    match sessionEnd with
    | .userTurnOff => .off
    | .userPause => .paused
    | .connectFailed => .failed (shouldBlockOutsideVpn input sessionEnd)
    | .noNetwork => .noNetwork
    | .awaitingSession => .awaitingSession
    | .authFailed => .authFailed
    | .userDisconnect | .systemDisconnect => modeAfterDisconnect input

/-! ### What follows from them -/

variable {input : PolicyInput} {sessionEnd : SessionEnd}

/-- A network with Auto-Secure off is not blocked. -/
theorem blockingApplies_optedOut (hoff : input.isAutoSecureOn = some false) :
    blockingApplies input = false := by
  simp [blockingApplies, hoff]

/-- Nothing connects by itself on a network that is stood down. -/
theorem shouldAutoConnect_of_standsDown (hstood : standsDown input = true) :
    shouldAutoConnect input = false := by
  simp [shouldAutoConnect, hstood]

/-- Only Auto-Connect blocks. -/
theorem autoConnect_of_blocks (hblocks : shouldBlockOutsideVpn input sessionEnd = true) :
    input.autoConnect = true := by
  simp only [shouldBlockOutsideVpn, blockingApplies, Bool.and_eq_true] at hblocks
  exact hblocks.2.1.1.1.1

/-- No end that the user asked for blocks. -/
theorem not_isUserIntent_of_blocks (hblocks : shouldBlockOutsideVpn input sessionEnd = true) :
    sessionEnd.isUserIntent = false := by
  simp only [shouldBlockOutsideVpn, Bool.and_eq_true, Bool.not_eq_true'] at hblocks
  exact hblocks.1

/-- The modes that are documented as having no TUN, and the end of the service. -/
def ServiceMode.withoutTun : ServiceMode → Bool
  | .watching _ | .noNetwork | .paused | .awaitingSession | .authFailed | .off => true
  | .failed _ | .accountBlocked _ => false

/-- While traffic is to be blocked, the mode leaves room for a TUN exactly when the connect failed
or the account cannot connect. -/
theorem serviceModeAfterSession_of_blocks
    (hblocks : shouldBlockOutsideVpn input sessionEnd = true) :
    (serviceModeAfterSession input sessionEnd).withoutTun = false ↔
      sessionEnd = .connectFailed ∨ accountCannotConnect input = true := by
  have hauto := autoConnect_of_blocks hblocks
  have hintent := not_isUserIntent_of_blocks hblocks
  unfold serviceModeAfterSession
  cases haccount : accountCannotConnect input with
  | true =>
    have hstatus : input.accountStatus ≠ none := by
      simp only [accountCannotConnect, decide_eq_true_eq] at haccount
      exact haccount.1
    obtain ⟨status, hsome⟩ := Option.ne_none_iff_exists'.mp hstatus
    simp [hintent, modeOfAccount, hauto, hsome, ServiceMode.withoutTun]
  | false =>
    have hwatch : shouldWatch input = true := by simp [shouldWatch, hauto, haccount]
    have hwatching : (modeAfterDisconnect input).withoutTun = true := by
      simp only [modeAfterDisconnect, hwatch, Bool.not_true, Bool.false_and, Bool.false_eq_true,
        if_false]
      split_ifs <;> rfl
    rw [Bool.and_false, if_neg Bool.false_ne_true]
    cases sessionEnd with
    | userPause | userDisconnect | userTurnOff => cases hintent
    | systemDisconnect => simp [hwatching]
    | connectFailed | noNetwork | awaitingSession | authFailed => simp [ServiceMode.withoutTun]

end WindscribeVpn.State.ConnectionPolicy
