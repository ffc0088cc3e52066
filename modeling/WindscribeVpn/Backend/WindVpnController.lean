import WindscribeVpn.Backend.VPNState
import Mathlib.Data.Int.Notation
import Mathlib.Data.List.Basic
import Mathlib.Tactic.Set
import Mathlib.Tactic.SplitIfs

/-!
# Attempts that end before they reach a backend

`connectionAttempt` of `AutoConnectionManager.kt` calls `WindVpnController.connect` with a
connection id and then waits for a published state with this id. A call can end before the attempt
reaches a backend: the licence is suspended, the profile is not built in time or not at all, the
permission activity cannot be started. This module follows the call through `connect`,
`createProfileAndLaunchService`, `launchVPNService`, `handleVPNError` and `disconnect`, and keeps
the states that it publishes.

Almost none of these paths stamps the id. `recognised_iff` says exactly when the published states
include one that failover recognises: the user confirms the dialog about the key limit, or the call
ends in `disconnect` while an idle backend of the same attempt is still the active one.
`awaits_eq_wait` shows that failover otherwise goes on waiting, and `not_recognised_timeout` is the
first attempt of a process whose profile is not built in time.

The coroutines of `setState` run at once here; `StatePublication` treats their interleavings. A call
that is cancelled has nobody waiting for it and is left out.
-/

set_option autoImplicit false
set_option relaxedAutoImplicit false

namespace WindscribeVpn.Backend.WindVpnController

/-- The codes that `handleVPNError` tells apart. -/
inductive ErrorCode
  | unableToReachApi
  | unexpectedApiData
  | wgKeyLimitExceeded
  | unableToSelectWireGuardIp
  | wgUnableToGeneratePsk
  | wgInvalidPublicKey
  | invalidDnsAddress
  | expiredOrBannedAccount
  | validConfigNotFound
  | other (code : ℤ)
  deriving DecidableEq, Repr

/-- What becomes of the dialog about the key limit. -/
inductive Answer
  | retry
  | cancel
  | unanswered
  deriving DecidableEq, Repr

/-- How `launchVPNService` ends. -/
inductive Launch
  /-- The permission is there and a backend takes the attempt. -/
  | prepared
  /-- The permission is there and no backend serves the protocol. -/
  | unserved
  /-- The permission activity is started. -/
  | permissionActivity
  /-- The permission activity cannot be started from the background. -/
  | securityException
  | exception
  deriving DecidableEq, Repr

/-- How the work of a call ends. -/
inductive Way
  | built (launch : Launch)
  | timeout
  | invalidConfig (code : ErrorCode) (errorMessage : String) (answer : Answer)
  | exception
  deriving DecidableEq, Repr

/-- The attempt is in the hands of a backend or of the permission dialog. -/
def Way.handedOver : Way → Bool
  | .built .prepared | .built .permissionActivity => true
  | .built .unserved | .built .securityException | .built .exception | .timeout
  | .invalidConfig _ _ _ | .exception => false

/-- The backend that the holder refers to, active or not. -/
structure VpnBackend where
  active : Bool
  connectionId : Option ℕ
  protocolInformation : Option ProtocolInformation
  deriving DecidableEq, Repr

/-- The controller and what it works on. `settles` says that the service, if there is one, publishes
a state at the end of a session. `emitted` are the states published by the call, oldest first. -/
structure Controller where
  isLicenceSuspended : Bool
  activeBackend : Option VpnBackend
  hasService : Bool
  settles : Bool
  hasActivity : Bool
  state : VPNState
  emitted : List VPNState
  deriving DecidableEq, Repr

/-! ### A call of `connect` -/

/-- `setState`. -/
def Controller.setState (s : Controller) (state : VPNState) (force : Bool) : Controller :=
  if state.supersedes s.state force then
    { s with state := state, emitted := s.emitted ++ [state] }
  else s

/-- `serviceGate.current?.endSession`. -/
def Controller.endSession (s : Controller) : Controller :=
  if s.hasService && s.settles then s.setState { status := .disconnected } true else s

/-- `disconnect` of a backend, up to the state that it publishes. -/
def Controller.disconnectBackend (s : Controller) (b : VpnBackend) (error : Option Error) :
    Controller :=
  let ended := s.endSession
  if error.map Error.error = some .userReconnect then ended
  else if b.connectionId = none then ended
  else
    ended.setState
      { status := .disconnected
        error := error
        protocolInformation := b.protocolInformation
        connectionId := b.connectionId } false

/-- What `disconnect` does about a backend, or about there being none. -/
def Controller.disconnectHolder (s : Controller) (error : Option Error) : Controller :=
  match s.activeBackend with
  | some b => { s.disconnectBackend b error with activeBackend := none }
  | none =>
    if s.state.status ≠ .disconnected then
      (s.setState { status := .disconnected, error := error } true).endSession
    else s

/-- `disconnect`. -/
def Controller.disconnect (s : Controller) (reconnecting : Bool) (error : Option Error) :
    Controller :=
  let left := s.disconnectHolder error
  if reconnecting ∧ left.state.status ≠ .disconnected then
    left.setState { status := .disconnected, error := error } true
  else left

/-- The error with which `handleVPNError` disconnects. -/
def disconnectError (errorMessage : String) : ErrorCode → Error
  | .unableToReachApi | .unexpectedApiData =>
    ⟨.wireguardApiError, "Unable to reach the server. Please check your internet connection.", true⟩
  | .wgKeyLimitExceeded => ⟨.genericError, errorMessage, false⟩
  | .unableToSelectWireGuardIp | .wgUnableToGeneratePsk | .wgInvalidPublicKey | .invalidDnsAddress
  | .expiredOrBannedAccount | .validConfigNotFound | .other _ =>
    ⟨.wireguardApiError, errorMessage, true⟩

/-- The dialog about the key limit. -/
def Controller.showRetryDialog (s : Controller) (connectionId : ℕ)
    (protocolInformation : Option ProtocolInformation) : Answer → Controller
  | .retry =>
    s.setState
      { status := .disconnected
        error := some ⟨.wireguardAuthenticationError, "Wireguard wg key limit exceeded.", false⟩
        protocolInformation := protocolInformation
        connectionId := some connectionId } false
  | .cancel => s.disconnect false (some { error := .userDisconnect })
  | .unanswered => s

/-- `handleVPNError`. -/
def Controller.handleVPNError (s : Controller) (code : ErrorCode) (errorMessage : String)
    (connectionId : ℕ) (protocolInformation : Option ProtocolInformation) (answer : Answer) :
    Controller :=
  if code = .wgKeyLimitExceeded ∧ s.hasActivity then
    s.showRetryDialog connectionId protocolInformation answer
  else s.disconnect false (some (disconnectError errorMessage code))

/-- `launchVPNService`. -/
def Controller.launchVPNService (s : Controller) : Launch → Controller
  | .prepared | .unserved | .permissionActivity | .securityException => s
  | .exception => s.disconnect false none

/-- `createProfileAndLaunchService`. -/
def Controller.createProfileAndLaunchService (s : Controller) (connectionId : ℕ)
    (protocolInformation : Option ProtocolInformation) (way : Way) : Controller :=
  let connecting := s.setState { status := .connecting, connectionId := some connectionId } false
  match way with
  | .built launch => connecting.launchVPNService launch
  | .timeout =>
    connecting.disconnect false (some ⟨.timeoutError, "Timed out preparing the connection.", false⟩)
  | .invalidConfig code errorMessage answer =>
    connecting.handleVPNError code errorMessage connectionId protocolInformation answer
  | .exception => connecting.disconnect false none

/-- `connect`. -/
def Controller.connect (s : Controller) (connectionId : ℕ)
    (protocolInformation : Option ProtocolInformation) (way : Way) : Controller :=
  if s.isLicenceSuspended then s
  else if s.activeBackend.any VpnBackend.active then
    (s.disconnect true (some { error := .userReconnect })).createProfileAndLaunchService
      connectionId protocolInformation way
  else s.createProfileAndLaunchService connectionId protocolInformation way

/-- The states that one call publishes. -/
def published (s : Controller) (connectionId : ℕ) (protocolInformation : Option ProtocolInformation)
    (way : Way) : List VPNState :=
  (Controller.connect { s with emitted := [] } connectionId protocolInformation way).emitted

/-! ### What failover waits for -/

/-- What the predicate of `connectionAttempt` does with a state. -/
inductive Verdict
  | finish
  | reconnect
  | wait
  deriving DecidableEq, Repr

/-- The predicate of `connectionAttempt`. `updated` says that new credentials were fetched. -/
def awaits (connectionId : ℕ) (credentialsRefreshed keysReinitialised updated : Bool)
    (state : VPNState) : Verdict :=
  if state.connectionId = some connectionId then
    match state.error.map Error.error with
    | some .authenticationError =>
      if credentialsRefreshed then .finish else if updated then .reconnect else .finish
    | some .wireguardAuthenticationError => if keysReinitialised then .finish else .reconnect
    | some .userReconnect => .wait
    | _ => if state.status ≠ .connecting then .finish else .wait
  else .wait

/-- The state has the id of the attempt and is not `Connecting`. -/
def Ends (connectionId : ℕ) (state : VPNState) : Prop :=
  state.connectionId = some connectionId ∧ state.status ≠ .connecting

instance decidableEnds (connectionId : ℕ) (state : VPNState) :
    Decidable (Ends connectionId state) :=
  inferInstanceAs (Decidable (_ ∧ _))

/-- Failover goes on waiting at a `Connecting` and at a state of another attempt, and at no other
state but that of a reconnect. -/
theorem awaits_eq_wait {connectionId : ℕ} {credentialsRefreshed keysReinitialised updated : Bool}
    {state : VPNState} (hconnecting : state.status = .connecting → state.error = none)
    (hreconnect : state.error.map Error.error ≠ some .userReconnect) :
    awaits connectionId credentialsRefreshed keysReinitialised updated state = .wait ↔
      ¬ Ends connectionId state := by
  unfold awaits Ends
  by_cases hid : state.connectionId = some connectionId
  · rw [if_pos hid]
    by_cases hstatus : state.status = .connecting
    · simp [hstatus, hconnecting hstatus]
    · have hends : ¬ (¬ (state.connectionId = some connectionId ∧ state.status ≠ .connecting)) :=
        fun hnot ↦ hnot ⟨hid, hstatus⟩
      rw [iff_false_intro hends, iff_false]
      split
      · split_ifs <;> simp
      · split_ifs <;> simp
      · exact absurd ‹_› hreconnect
      · simp [hstatus]
  · simp [hid]

/-- The call ends in `disconnect`. -/
def Way.disconnects (hasActivity : Bool) : Way → Bool
  | .timeout | .exception | .built .exception => true
  | .invalidConfig code _ answer =>
    if code = .wgKeyLimitExceeded ∧ hasActivity then answer = .cancel else true
  | .built .prepared | .built .unserved | .built .permissionActivity
  | .built .securityException => false

/-- The user confirms the dialog about the key limit. -/
def Way.retries (hasActivity : Bool) : Way → Bool
  | .invalidConfig code _ answer => code = .wgKeyLimitExceeded && hasActivity && answer = .retry
  | .timeout | .exception | .built _ => false

/-- A backend that ended its session by itself is still the active one, and its attempt is the one
that is tried again. -/
def Controller.holdsAttempt (s : Controller) (connectionId : ℕ) : Bool :=
  s.activeBackend.any fun b ↦ !b.active && b.connectionId = some connectionId

/-- The call publishes a state that failover recognises. -/
def Controller.recognised (s : Controller) (connectionId : ℕ) : Prop :=
  ∃ state ∈ s.emitted, Ends connectionId state

/-! ### The steps of a call -/

section Steps

variable {s : Controller} {connectionId : ℕ} {state : VPNState} {force : Bool}

/-- A state without the id changes nothing for failover. -/
theorem recognised_setState_of_not (hnot : ¬ Ends connectionId state) :
    (s.setState state force).recognised connectionId ↔ s.recognised connectionId := by
  unfold Controller.setState Controller.recognised
  split_ifs
  · refine ⟨fun ⟨st, hst, hends⟩ ↦ ?_, fun ⟨st, hst, hends⟩ ↦ ⟨st, ?_, hends⟩⟩
    · rcases List.mem_append.mp hst with hold | hnew
      · exact ⟨st, hold, hends⟩
      · exact absurd (List.mem_singleton.mp hnew ▸ hends) hnot
    · exact List.mem_append_left _ hst
  · exact Iff.rfl

/-- A state with the id is published, unless the last one looks the same. -/
theorem recognised_setState_of_ends (hends : Ends connectionId state)
    (hkey : state.key ≠ s.state.key) : (s.setState state force).recognised connectionId := by
  unfold Controller.setState VPNState.supersedes
  rw [if_pos (by simp [hkey])]
  exact ⟨state, List.mem_append_right _ (List.mem_singleton_self _), hends⟩

/-- The last state looks like the one that was set. -/
theorem setState_key : (s.setState state force).state.key = state.key := by
  unfold Controller.setState VPNState.supersedes
  split_ifs with hsupersedes
  · rfl
  · simp only [Bool.or_eq_true, decide_eq_true_eq, not_or, not_not] at hsupersedes
    exact hsupersedes.1.symm

theorem recognised_endSession (s : Controller) (connectionId : ℕ) :
    s.endSession.recognised connectionId ↔ s.recognised connectionId := by
  unfold Controller.endSession
  split_ifs
  · exact recognised_setState_of_not (by simp [Ends])
  · exact Iff.rfl

/-- The service does not publish the id. -/
theorem endSession_key (hkey : s.state.key ≠ (.disconnected, some connectionId)) :
    s.endSession.state.key ≠ (.disconnected, some connectionId) := by
  unfold Controller.endSession
  split_ifs
  · rw [setState_key]
    simp [VPNState.key]
  · exact hkey

/-- A backend publishes its own id. -/
theorem recognised_disconnectBackend (b : VpnBackend) (error : Option Error)
    (hkey : s.state.key ≠ (.disconnected, some connectionId)) :
    (s.disconnectBackend b error).recognised connectionId ↔
      s.recognised connectionId ∨
        error.map Error.error ≠ some .userReconnect ∧ b.connectionId = some connectionId := by
  unfold Controller.disconnectBackend
  dsimp only
  split_ifs with hreconnect hnone
  · simp [recognised_endSession, hreconnect]
  · simp [recognised_endSession, hnone]
  · by_cases hid : b.connectionId = some connectionId
    · refine iff_of_true (recognised_setState_of_ends ⟨hid, by simp⟩ ?_) (Or.inr ⟨hreconnect, hid⟩)
      rw [show VPNState.key ⟨.disconnected, error, b.protocolInformation, b.connectionId⟩ =
        (.disconnected, some connectionId) by rw [VPNState.key, hid]]
      exact (endSession_key hkey).symm
    · rw [recognised_setState_of_not (by simp [Ends, hid]), recognised_endSession]
      simp [hid]

theorem recognised_disconnectHolder {error : Option Error}
    (hkey : s.state.key ≠ (.disconnected, some connectionId)) :
    (s.disconnectHolder error).recognised connectionId ↔
      s.recognised connectionId ∨ error.map Error.error ≠ some .userReconnect ∧
        ∃ b ∈ s.activeBackend, b.connectionId = some connectionId := by
  unfold Controller.disconnectHolder
  split
  · rename_i b hbackend
    have hdisconnected := recognised_disconnectBackend b error hkey
    simpa [hbackend, Controller.recognised] using hdisconnected
  · rename_i hbackend
    split_ifs
    · rw [recognised_endSession, recognised_setState_of_not (by simp [Ends])]
      simp [hbackend]
    · simp [hbackend]

/-- `disconnect` publishes the id only through the backend that has it. -/
theorem recognised_disconnect {reconnecting : Bool} {error : Option Error}
    (hkey : s.state.key ≠ (.disconnected, some connectionId)) :
    (s.disconnect reconnecting error).recognised connectionId ↔
      s.recognised connectionId ∨ error.map Error.error ≠ some .userReconnect ∧
        ∃ b ∈ s.activeBackend, b.connectionId = some connectionId := by
  unfold Controller.disconnect
  dsimp only
  split_ifs
  · rw [recognised_setState_of_not (by simp [Ends]), recognised_disconnectHolder hkey]
  · exact recognised_disconnectHolder hkey

/-- A disconnect for a reconnect publishes no id. -/
theorem recognised_disconnect_reconnect {reconnecting : Bool} {error : Option Error}
    (hreconnect : error.map Error.error = some .userReconnect) :
    (s.disconnect reconnecting error).recognised connectionId ↔ s.recognised connectionId := by
  have hholder : (s.disconnectHolder error).recognised connectionId ↔
      s.recognised connectionId := by
    unfold Controller.disconnectHolder Controller.disconnectBackend
    split
    · simpa [hreconnect, Controller.recognised] using
        recognised_endSession s connectionId
    · split_ifs
      · rw [recognised_endSession, recognised_setState_of_not (by simp [Ends])]
      · exact Iff.rfl
  unfold Controller.disconnect
  dsimp only
  split_ifs
  · rw [recognised_setState_of_not (by simp [Ends]), hholder]
  · exact hholder

@[simp] theorem setState_activeBackend :
    (s.setState state force).activeBackend = s.activeBackend := by
  unfold Controller.setState
  split_ifs <;> rfl

@[simp] theorem setState_hasActivity : (s.setState state force).hasActivity = s.hasActivity := by
  unfold Controller.setState
  split_ifs <;> rfl

@[simp] theorem endSession_activeBackend : s.endSession.activeBackend = s.activeBackend := by
  unfold Controller.endSession
  split_ifs <;> simp

@[simp] theorem endSession_hasActivity : s.endSession.hasActivity = s.hasActivity := by
  unfold Controller.endSession
  split_ifs <;> simp

/-- A disconnect leaves no active backend. -/
@[simp] theorem disconnect_activeBackend {reconnecting : Bool} {error : Option Error} :
    (s.disconnect reconnecting error).activeBackend = none := by
  have hholder : (s.disconnectHolder error).activeBackend = none := by
    unfold Controller.disconnectHolder
    split <;> rename_i hbackend
    · rfl
    · split_ifs <;> simp [hbackend]
  unfold Controller.disconnect
  dsimp only
  split_ifs <;> simp [hholder]

@[simp] theorem disconnect_hasActivity {reconnecting : Bool} {error : Option Error} :
    (s.disconnect reconnecting error).hasActivity = s.hasActivity := by
  have hholder : (s.disconnectHolder error).hasActivity = s.hasActivity := by
    unfold Controller.disconnectHolder
    split
    · unfold Controller.disconnectBackend
      dsimp only
      split_ifs <;> simp
    · split_ifs <;> simp
  unfold Controller.disconnect
  dsimp only
  split_ifs <;> simp [hholder]

theorem recognised_handleVPNError {code : ErrorCode} {errorMessage : String} {answer : Answer}
    {protocolInformation : Option ProtocolInformation}
    (hkey : s.state.key = (.connecting, some connectionId)) (hnot : ¬ s.recognised connectionId) :
    (s.handleVPNError code errorMessage connectionId protocolInformation answer).recognised
        connectionId ↔
      (Way.invalidConfig code errorMessage answer).retries s.hasActivity = true ∨
        (Way.invalidConfig code errorMessage answer).disconnects s.hasActivity = true ∧
          ∃ b ∈ s.activeBackend, b.connectionId = some connectionId := by
  have hne : s.state.key ≠ (.disconnected, some connectionId) := by simp [hkey]
  unfold Controller.handleVPNError
  split_ifs with hdialog
  · unfold Controller.showRetryDialog
    obtain ⟨rfl, hactivity⟩ := hdialog
    split
    · refine iff_of_true (recognised_setState_of_ends ⟨rfl, by simp⟩ ?_) (Or.inl ?_)
      · rw [hkey]
        simp [VPNState.key]
      · simp [Way.retries, hactivity]
    · rw [recognised_disconnect hne]
      simp [Way.retries, Way.disconnects, hactivity, hnot]
    · simp [Way.retries, Way.disconnects, hactivity, hnot]
  · rw [recognised_disconnect hne]
    have hreconnect : (disconnectError errorMessage code).error ≠ .userReconnect := by
      cases code <;> simp [disconnectError]
    have hretries : (Way.invalidConfig code errorMessage answer).retries s.hasActivity ≠ true := by
      intro hretries
      simp only [Way.retries, Bool.and_eq_true, decide_eq_true_eq] at hretries
      exact hdialog hretries.1
    simp [Way.disconnects, hdialog, hretries, hnot, hreconnect]

theorem recognised_createProfileAndLaunchService {way : Way}
    {protocolInformation : Option ProtocolInformation} (hnot : ¬ s.recognised connectionId) :
    (s.createProfileAndLaunchService connectionId protocolInformation way).recognised
        connectionId ↔
      way.retries s.hasActivity = true ∨ way.disconnects s.hasActivity = true ∧
        ∃ b ∈ s.activeBackend, b.connectionId = some connectionId := by
  unfold Controller.createProfileAndLaunchService
  dsimp only
  set connecting := s.setState { status := .connecting, connectionId := some connectionId } false
    with hconnecting
  have hkey : connecting.state.key = (.connecting, some connectionId) := setState_key
  have hnot' : ¬ connecting.recognised connectionId := by
    rwa [hconnecting, recognised_setState_of_not (by simp [Ends])]
  have hbackend : connecting.activeBackend = s.activeBackend := setState_activeBackend
  have hactivity : connecting.hasActivity = s.hasActivity := setState_hasActivity
  have hne : connecting.state.key ≠ (.disconnected, some connectionId) := by simp [hkey]
  cases way with
  | built launch =>
    cases launch with
    | exception =>
      simp [Controller.launchVPNService, recognised_disconnect hne, hnot', hbackend, Way.retries,
        Way.disconnects]
    | prepared | unserved | permissionActivity | securityException =>
      simp [Controller.launchVPNService, hnot', Way.retries, Way.disconnects]
  | timeout | exception =>
    simp [recognised_disconnect hne, hnot', hbackend, Way.retries, Way.disconnects]
  | invalidConfig code errorMessage answer =>
    rw [← hactivity, ← hbackend]
    exact recognised_handleVPNError hkey hnot'

end Steps

/-! ### Calls -/

/-- **When failover recognises the end of a call.** A call publishes a state with the id of the
attempt, other than `Connecting`, if and only if the licence is not suspended and either the user
confirms the dialog about the key limit, or the call ends in a disconnect while an idle backend of
the same attempt is still the active one. -/
theorem recognised_iff (s : Controller) (connectionId : ℕ)
    (protocolInformation : Option ProtocolInformation) (way : Way) :
    (∃ state ∈ published s connectionId protocolInformation way, Ends connectionId state) ↔
      s.isLicenceSuspended = false ∧ (way.retries s.hasActivity = true ∨
        way.disconnects s.hasActivity = true ∧ s.holdsAttempt connectionId = true) := by
  change (Controller.connect { s with emitted := [] } connectionId protocolInformation
    way).recognised connectionId ↔ _
  have hnone : ¬ Controller.recognised { s with emitted := [] } connectionId := by
    simp [Controller.recognised]
  unfold Controller.connect
  split_ifs with hsuspended hactive
  · have hlicence : s.isLicenceSuspended ≠ false := fun hfalse ↦ by simp [hfalse] at hsuspended
    exact iff_of_false hnone fun hboth ↦ hlicence hboth.1
  · have hlicence : s.isLicenceSuspended = false := Bool.eq_false_iff.mpr hsuspended
    have hnot : ¬ (Controller.disconnect { s with emitted := [] } true
        (some { error := .userReconnect })).recognised connectionId := by
      rwa [recognised_disconnect_reconnect rfl]
    have hidle : s.holdsAttempt connectionId = false := by
      obtain ⟨b, hb, hb'⟩ := (Option.any_eq_true _ _).mp hactive
      have hsome : s.activeBackend = some b := hb
      simp [Controller.holdsAttempt, hsome, hb']
    rw [recognised_createProfileAndLaunchService hnot]
    simp [hlicence, hidle]
  · have hlicence : s.isLicenceSuspended = false := Bool.eq_false_iff.mpr hsuspended
    have hheld : (∃ b ∈ s.activeBackend, b.connectionId = some connectionId) ↔
        s.holdsAttempt connectionId = true := by
      rw [Controller.holdsAttempt, Option.any_eq_true]
      refine ⟨fun ⟨b, hb, hid⟩ ↦ ⟨b, hb, ?_⟩, fun ⟨b, hb, hboth⟩ ↦ ⟨b, hb, ?_⟩⟩
      · have hidle : b.active = false := by
          rw [Bool.eq_false_iff]
          exact fun hb' ↦ hactive ((Option.any_eq_true _ _).mpr ⟨b, hb, hb'⟩)
        simp [hidle, hid]
      · rw [Bool.and_eq_true, decide_eq_true_eq] at hboth
        exact hboth.2
    rw [recognised_createProfileAndLaunchService hnone, hheld]
    simp [hlicence]

/-- The first attempt of a process with a service. -/
def firstAttempt : Controller where
  isLicenceSuspended := false
  activeBackend := none
  hasService := true
  settles := true
  hasActivity := true
  state := { status := .disconnected }
  emitted := []

/-- An attempt whose profile is not built in time ends without a state that failover recognises. -/
theorem not_recognised_timeout :
    ¬ ∀ (s : Controller) (connectionId : ℕ) (protocolInformation : Option ProtocolInformation)
      (way : Way), way.handedOver = false →
        ∃ state ∈ published s connectionId protocolInformation way, Ends connectionId state := by
  intro hall
  have hends := hall firstAttempt 0 none .timeout rfl
  revert hends
  decide

end WindscribeVpn.Backend.WindVpnController
