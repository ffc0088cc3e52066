import Mathlib.Data.Nat.Notation

/-!
# Connection states

The states that are published about a connection (`VPNState.kt`), and what
`VPNConnectionStateManager.setState` compares of them; and which disconnects are handovers
(`VpnBackend.kt`). A connection id, a random UUID in the source, is a number that is allotted once.
-/

set_option autoImplicit false
set_option relaxedAutoImplicit false

namespace WindscribeVpn.Backend

/-- `VPNState.Status`. -/
inductive Status
  | connecting
  | connected
  | disconnected
  | disconnecting
  | requiresUserInput
  | protocolSwitch
  | unsecuredNetwork
  | invalidSession
  deriving DecidableEq, Repr

/-- `VPNState.ErrorType`. -/
inductive ErrorType
  | userReconnect
  | userDisconnect
  | userPause
  | userTurnOff
  | revoked
  | authenticationError
  | wireguardAuthenticationError
  | genericError
  | timeoutError
  | wireguardApiError
  | connectivityTestFailed
  | brokenTunnel
  deriving DecidableEq, Repr

/-- `VPNState.Error`. -/
structure Error where
  error : ErrorType
  message : String := "Unknown"
  showError : Bool := false
  deriving DecidableEq, Repr

/-- `ProtocolInformation`, by which protocol and port it names. -/
structure ProtocolInformation where
  protocol : String
  port : String
  deriving DecidableEq, Repr

/-- `VPNState`. -/
structure VPNState where
  status : Status
  error : Option Error := none
  protocolInformation : Option ProtocolInformation := none
  connectionId : Option ℕ := none
  deriving DecidableEq, Repr

/-- What `setState` compares of a state: its status and its connection id. -/
def VPNState.key (state : VPNState) : Status × Option ℕ := (state.status, state.connectionId)

/-- `lastState != state || force`: the state is emitted over the one published last. -/
def VPNState.supersedes (state last : VPNState) (force : Bool) : Bool :=
  state.key ≠ last.key || force

/-- `HANDOVER_ERRORS`: the reasons for a disconnect that a connect follows. -/
def ErrorType.isHandoverError : ErrorType → Bool
  | .userReconnect | .timeoutError | .connectivityTestFailed | .brokenTunnel | .authenticationError
  | .wireguardAuthenticationError => true
  | .userDisconnect | .userPause | .userTurnOff | .revoked | .genericError
  | .wireguardApiError => false

/-- `isHandover`: the disconnect keeps the TUN for the engine that comes next. -/
def isHandover (error : Option Error) (isFailoverActive : Bool) : Bool :=
  match error.map Error.error with
  | none => false
  | some .userReconnect => true
  | some type => type.isHandoverError && isFailoverActive

end WindscribeVpn.Backend
