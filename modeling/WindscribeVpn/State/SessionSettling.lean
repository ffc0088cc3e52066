import WindscribeVpn.State.ConnectionPolicy
import WindscribeVpn.State.SessionTunnel

/-!
# What the service says after a session

A session ends in `WindVpnController.endSession` or in a backend's `runDisconnect`. Both let the
policy decide what becomes of the TUN, and hand the input they decided with to
`WindscribeVpnService.endSession`, which establishes a blocking TUN if one is called for and is not
there, and publishes the mode of the service.

`Truthful` is the promise: the TUN is up exactly when the policy blocks (and one could be had), a
`Failed` mode says whether it is, and a mode that is documented as having no TUN is not published
with one. `truthful_iff` gives the exact condition for it. The modes of the policy know of a TUN
only after a failed connect and for an account that cannot connect; after every other end that
blocks, the mode that is published denies the TUN that is held, as in `not_truthful_noNetwork`.
-/

set_option autoImplicit false
set_option relaxedAutoImplicit false

namespace WindscribeVpn.State.SessionSettling

open Backend ConnectionPolicy SessionTunnel Tunnel.TunnelManager

/-- `isTunnelUp` of the state manager. -/
def isTunnelUp (state : VPNState) : Bool :=
  match state.status with
  | .connected | .connecting | .disconnecting | .protocolSwitch => true
  | .disconnected | .requiresUserInput | .unsecuredNetwork | .invalidSession => false

/-- What the end of a session finds: the tunnel, `serviceGate.current`, whether a blocking TUN would
come up, and the state published last. -/
structure Found where
  tunnel : TunnelView
  service : Bool
  establishes : Bool
  state : VPNState
  deriving DecidableEq, Repr

/-- What the end of a session leaves: the tunnel, and the mode the service publishes or stops
with. -/
structure Outcome where
  tunnel : TunnelView
  mode : Option ServiceMode
  deriving DecidableEq, Repr

/-- A connect that started while this session ended. -/
def anotherConnect (found : Found) (endingConnectionId : Option ℕ) : Bool :=
  isTunnelUp found.state &&
    (endingConnectionId = none || found.state.connectionId ≠ endingConnectionId)

/-- The mode that is reported: a `Failed` says what the interface says. -/
def reported (decided : ServiceMode) (tunnel : TunnelView) : ServiceMode :=
  match decided with
  | .failed _ => .failed tunnel.tunnelUp
  | mode => mode

/-- `WindscribeVpnService.endSession`. -/
def serviceEndSession (found : Found) (sessionEnd : SessionEnd) (input : PolicyInput)
    (endingConnectionId : Option ℕ) : Outcome :=
  let tunnel :=
    if shouldBlockOutsideVpn input sessionEnd && !found.tunnel.tunnelUp then
      found.tunnel.beginBlocking found.establishes
    else found.tunnel
  ⟨tunnel, if anotherConnect found endingConnectionId then none
    else some (reported (serviceModeAfterSession input sessionEnd) tunnel)⟩

/-- `serviceGate.current?.endSession`. -/
def settle (found : Found) (sessionEnd : SessionEnd) (input : PolicyInput)
    (endingConnectionId : Option ℕ) : Outcome :=
  if found.service then serviceEndSession found sessionEnd input endingConnectionId
  else ⟨found.tunnel, none⟩

/-- `WindVpnController.endSession`, from the input it has read on. -/
def endSession (found : Found) (sessionEnd : SessionEnd) (input : PolicyInput) : Outcome :=
  let tunnel :=
    if shouldBlockOutsideVpn input sessionEnd then found.tunnel.holdForBlocking
    else found.tunnel.releaseHeldTunnel
  settle { found with tunnel } sessionEnd input none

/-- `runDisconnect`, from the input it has read on, when the disconnect is not a handover. -/
def runDisconnect (found : Found) (sessionEnd : SessionEnd) (input : PolicyInput)
    (connectionId : Option ℕ) : Outcome :=
  let hold := if shouldBlockOutsideVpn input sessionEnd then TunHold.forBlocking else TunHold.none
  settle { found with tunnel := found.tunnel.disconnect hold } sessionEnd input connectionId

/-- The two ways a session ends. -/
inductive Ending
  | endSession
  | runDisconnect (connectionId : Option ℕ)
  deriving DecidableEq, Repr

/-- The connection that ends, as the service is told. -/
def Ending.connectionId : Ending → Option ℕ
  | .endSession => none
  | .runDisconnect connectionId => connectionId

/-- The session ends. -/
def Ending.run (ending : Ending) (found : Found) (sessionEnd : SessionEnd) (input : PolicyInput) :
    Outcome :=
  match ending with
  | .endSession => SessionSettling.endSession found sessionEnd input
  | .runDisconnect connectionId =>
    SessionSettling.runDisconnect found sessionEnd input connectionId

/-! ### The promise -/

/-- A TUN is there to hold, or one can be established. -/
def canBlock (found : Found) : Bool :=
  found.tunnel.tunnelUp || (found.service && found.tunnel.host && found.establishes)

/-- The mode tells the truth about the interface. -/
structure Truthful (found : Found) (sessionEnd : SessionEnd) (input : PolicyInput)
    (outcome : Outcome) : Prop where
  held : outcome.tunnel.tunnelUp = true ↔
    shouldBlockOutsideVpn input sessionEnd = true ∧ canBlock found = true
  failed : ∀ blocking, outcome.mode = some (.failed blocking) →
    blocking = outcome.tunnel.tunnelUp
  withoutTun : ∀ mode, outcome.mode = some mode → mode.withoutTun = true →
    outcome.tunnel.tunnelUp = false

/-- Something is published. -/
def publishes (ending : Ending) (found : Found) : Bool :=
  found.service && !anotherConnect found ending.connectionId

/-- The condition on what a session end is given and finds: a mode with room for a TUN is decided
when one is held and something is published, and no engine is left on a TUN that
`WindVpnController.endSession` is to release. -/
structure Consistent (ending : Ending) (found : Found) (sessionEnd : SessionEnd)
    (input : PolicyInput) : Prop where
  mode : shouldBlockOutsideVpn input sessionEnd = true → canBlock found = true →
    publishes ending found = true →
      sessionEnd = .connectFailed ∨ accountCannotConnect input = true
  engine : shouldBlockOutsideVpn input sessionEnd = false → ending = .endSession →
    found.tunnel.tunnelUp = true → found.tunnel.engine = false

/-! ### What an end leaves -/

variable {ending : Ending} {found : Found} {sessionEnd : SessionEnd} {input : PolicyInput}

theorem settle_mode (connectionId : Option ℕ) :
    (settle found sessionEnd input connectionId).mode =
      if found.service && !anotherConnect found connectionId then
        some (reported (serviceModeAfterSession input sessionEnd)
          (settle found sessionEnd input connectionId).tunnel)
      else none := by
  unfold settle
  cases found.service with
  | false => rfl
  | true =>
    unfold serviceEndSession
    cases anotherConnect found connectionId <;> rfl

/-- The service adds a TUN only where one is called for. -/
theorem settle_tunnelUp (connectionId : Option ℕ) :
    (settle found sessionEnd input connectionId).tunnel.tunnelUp =
      (found.tunnel.tunnelUp || (shouldBlockOutsideVpn input sessionEnd && found.service &&
        found.tunnel.host && found.establishes)) := by
  unfold settle serviceEndSession
  cases found.service with
  | false => simp
  | true =>
    cases hup : found.tunnel.tunnelUp with
    | true => simp [hup]
    | false =>
      cases shouldBlockOutsideVpn input sessionEnd with
      | false => simp [hup]
      | true => simp [TunnelView.beginBlocking_tunnelUp, hup]

/-- What is published is the mode of the policy, told of the TUN that is left. -/
theorem run_mode (ending : Ending) (found : Found) (sessionEnd : SessionEnd)
    (input : PolicyInput) :
    (ending.run found sessionEnd input).mode =
      if publishes ending found then
        some (reported (serviceModeAfterSession input sessionEnd)
          (ending.run found sessionEnd input).tunnel)
      else none := by
  cases ending with
  | endSession => exact settle_mode none
  | runDisconnect connectionId => exact settle_mode connectionId

/-- A session end that blocks keeps what can be kept. -/
theorem run_tunnelUp_of_blocks (ending : Ending) (found : Found)
    (hblocks : shouldBlockOutsideVpn input sessionEnd = true) :
    (ending.run found sessionEnd input).tunnel.tunnelUp = canBlock found := by
  cases ending with
  | endSession =>
    refine (settle_tunnelUp none).trans ?_
    simp [hblocks, canBlock, TunnelView.holdForBlocking]
  | runDisconnect connectionId =>
    refine (settle_tunnelUp connectionId).trans ?_
    simp [hblocks, canBlock, TunnelView.disconnect]

/-- A session end that does not block leaves a TUN only to an engine it did not stop. -/
theorem run_tunnelUp_of_not_blocks (ending : Ending) (found : Found)
    (hblocks : shouldBlockOutsideVpn input sessionEnd = false) :
    (ending.run found sessionEnd input).tunnel.tunnelUp =
      (decide (ending = .endSession) && found.tunnel.tunnelUp && found.tunnel.engine) := by
  cases ending with
  | endSession =>
    refine (settle_tunnelUp none).trans ?_
    simp [hblocks, TunnelView.releaseHeldTunnel_tunnelUp]
  | runDisconnect connectionId =>
    refine (settle_tunnelUp connectionId).trans ?_
    simp [hblocks, TunnelView.disconnect]

theorem reported_withoutTun (decided : ServiceMode) (tunnel : TunnelView) :
    (reported decided tunnel).withoutTun = decided.withoutTun := by
  cases decided <;> rfl

theorem reported_failed {decided : ServiceMode} {tunnel : TunnelView} {blocking : Bool}
    (hfailed : reported decided tunnel = .failed blocking) : blocking = tunnel.tunnelUp := by
  cases decided with
  | failed _ => exact (ServiceMode.failed.inj hfailed).symm
  | off | watching _ | paused | noNetwork | awaitingSession | authFailed | accountBlocked _ =>
    cases hfailed

/-- A `Failed` mode says whether the TUN is up, whatever the session end finds. -/
theorem run_failed {blocking : Bool}
    (hmode : (ending.run found sessionEnd input).mode = some (.failed blocking)) :
    blocking = (ending.run found sessionEnd input).tunnel.tunnelUp := by
  rw [run_mode] at hmode
  split_ifs at hmode
  exact reported_failed (Option.some.inj hmode)

theorem consistent_of_truthful
    (htruthful : Truthful found sessionEnd input (ending.run found sessionEnd input)) :
    Consistent ending found sessionEnd input := by
  constructor
  · intro hblocks hcan hpublishes
    by_contra hother
    have hwithout : (serviceModeAfterSession input sessionEnd).withoutTun = true := by
      by_contra hwith
      exact hother ((serviceModeAfterSession_of_blocks hblocks).mp (eq_false_of_ne_true hwith))
    have hmode := run_mode ending found sessionEnd input
    rw [if_pos hpublishes] at hmode
    have hdown := htruthful.withoutTun _ hmode (by rw [reported_withoutTun]; exact hwithout)
    rw [run_tunnelUp_of_blocks ending found hblocks, hcan] at hdown
    cases hdown
  · intro hblocks hending hup
    by_contra hengine
    have hleft := run_tunnelUp_of_not_blocks ending found hblocks
    rw [hup, eq_true_of_ne_false hengine, decide_eq_true hending] at hleft
    have hblocks' := (htruthful.held.mp hleft).1
    rw [hblocks] at hblocks'
    cases hblocks'

theorem truthful_of_consistent (hconsistent : Consistent ending found sessionEnd input) :
    Truthful found sessionEnd input (ending.run found sessionEnd input) := by
  cases hblocks : shouldBlockOutsideVpn input sessionEnd with
  | true =>
    have hup := run_tunnelUp_of_blocks ending found hblocks
    refine ⟨by rw [hup, hblocks]; simp, fun _ ↦ run_failed, fun mode hmode hwithout ↦ ?_⟩
    rw [run_mode] at hmode
    split_ifs at hmode with hpublishes
    rw [← Option.some.inj hmode, reported_withoutTun] at hwithout
    rw [hup]
    by_contra hcan
    have hroom := (serviceModeAfterSession_of_blocks hblocks).mpr
      (hconsistent.mode hblocks (eq_true_of_ne_false hcan) hpublishes)
    rw [hwithout] at hroom
    cases hroom
  | false =>
    have hdown : (ending.run found sessionEnd input).tunnel.tunnelUp = false := by
      rw [run_tunnelUp_of_not_blocks ending found hblocks]
      by_contra hleft
      simp only [Bool.not_eq_false, Bool.and_eq_true, decide_eq_true_eq] at hleft
      have hengine := hconsistent.engine hblocks hleft.1.1 hleft.1.2
      rw [hleft.2] at hengine
      cases hengine
    exact ⟨by rw [hdown, hblocks]; simp, fun _ ↦ run_failed, fun _ _ _ ↦ hdown⟩

/-- The mode tells the truth about the interface exactly when a mode with room for a TUN is decided
for a TUN that is held, and no engine is left on a TUN that is to be released. -/
theorem truthful_iff (ending : Ending) (found : Found) (sessionEnd : SessionEnd)
    (input : PolicyInput) :
    Truthful found sessionEnd input (ending.run found sessionEnd input) ↔
      Consistent ending found sessionEnd input :=
  ⟨consistent_of_truthful, truthful_of_consistent⟩

/-- Auto-Connect is on, and the network is secured. -/
def autoConnectInput : PolicyInput :=
  { isAutoSecureOn := some true
    isNetworkStoodDown := false
    isNetworkOptedIn := false
    autoConnect := true
    globalUserConnectionPreference := true
    accountStatus := some .okay
    status := .disconnected
    serviceMode := none
    canReadNetworkName := true
    isOnline := false }

/-- A failover has left its TUN held, and nothing connects. -/
def heldTunnel : Found :=
  { tunnel := ⟨true, false, true⟩
    service := true
    establishes := true
    state := { status := .disconnected } }

/-- Failover gives up for want of a network. The TUN is kept to block traffic, and the mode that is
published, `NoNetwork`, says that there is none. -/
theorem not_truthful_noNetwork :
    ¬ ∀ (ending : Ending) (found : Found) (sessionEnd : SessionEnd) (input : PolicyInput),
      Truthful found sessionEnd input (ending.run found sessionEnd input) := by
  intro htruthful
  have hdown := (htruthful .endSession heldTunnel .noNetwork autoConnectInput).withoutTun
    .noNetwork (by decide) rfl
  revert hdown
  decide

end WindscribeVpn.State.SessionSettling
