import Mathlib.Data.List.MinMax
import Mathlib.Data.Prod.Lex

/-!
# The network under the tunnel

`DeviceStateManager.kt` asks the platform which network the device is on, past the tunnel that is
the default network of this app while it is up. `hasUnderlyingConnectivity` and
`getCurrentNetworkDetail` are its two questions, each of which resolves the network for itself.
Every call to the platform may throw, and every answer may be missing.

`getCurrentNetworkDetail_of_offline` connects them: surroundings without connectivity have no
network to name.
-/

set_option autoImplicit false
set_option relaxedAutoImplicit false

namespace WindscribeVpn.State.UnderlyingNetwork

/-- A `Network`, by its handle. -/
abbrev Network := ℕ

/-- What `NetworkCapabilities` says of a network. -/
structure NetworkCapabilities where
  internet : Bool := false
  notVpn : Bool := false
  validated : Bool := false
  wifi : Bool := false
  cellular : Bool := false
  ethernet : Bool := false
  vpn : Bool := false
  deriving DecidableEq, Repr

/-- `NetworkType`. -/
inductive NetworkType
  | none
  | wifi
  | cellular
  | ethernet
  | other
  deriving DecidableEq, Repr

/-- `NetworkDetail`. -/
structure NetworkDetail where
  name : String
  type : NetworkType
  deriving DecidableEq, Repr

/-- What `ConnectivityManager` answers; an answer may be an exception. -/
structure ConnectivityManager where
  activeNetwork : Except Unit (Option Network)
  allNetworks : Except Unit (List Network)
  getNetworkCapabilities : Network → Except Unit (Option NetworkCapabilities)

/-- What the platform would answer at one moment. `wifiName` is the SSID without its quotes and
`operatorName` the operator in capitals, each as far as it may be read and is known. -/
structure Surroundings where
  connectivityManager : Option ConnectivityManager
  wifiName : Option String
  operatorName : Option String

/-! ### The network that is reported on -/

variable (manager : ConnectivityManager)

/-- `hasCapability(NET_CAPABILITY_INTERNET) == true`. -/
def hasInternet (capabilities : Option NetworkCapabilities) : Bool :=
  capabilities.any NetworkCapabilities.internet

/-- `capabilitiesOrNull`. -/
def capabilitiesOrNull (network : Network) : Option NetworkCapabilities :=
  match manager.getNetworkCapabilities network with
  | .ok capabilities => capabilities
  | .error _ => none

/-- What `getActiveNetworkCompat` tries first: the active network, or else the first of all with
internet. -/
def activeNetworkOrFirst : Except Unit (Option Network) := do
  match ← manager.activeNetwork with
  | some network => return some network
  | none =>
    (← manager.allNetworks).findM? fun network ↦ do
      return hasInternet (← manager.getNetworkCapabilities network)

/-- `getActiveNetworkCompat`. -/
def getActiveNetworkCompat : Except Unit (Option Network) :=
  match activeNetworkOrFirst manager with
  | .ok network => .ok network
  | .error _ => do
    return (← manager.allNetworks).find? fun network ↦
      hasInternet (capabilitiesOrNull manager network)

/-- `transportRank`. -/
def transportRank (capabilities : NetworkCapabilities) : ℕ :=
  if capabilities.wifi then 0
  else if capabilities.ethernet then 1
  else if capabilities.cellular then 2
  else 3

/-- `bestNonVpnNetwork`: validated first, then by the transport. -/
def bestNonVpnNetwork : Option Network :=
  match manager.allNetworks with
  | .error _ => none
  | .ok networks =>
    let known := networks.filterMap fun network ↦
      (capabilitiesOrNull manager network).map fun capabilities ↦ (network, capabilities)
    let usable := known.filter fun (_, capabilities) ↦ capabilities.notVpn && capabilities.internet
    let best := usable.argmin fun (_, capabilities) ↦
      toLex (if capabilities.validated then 0 else 1, transportRank capabilities)
    best.map Prod.fst

/-- `getUnderlyingNetworkCompat`. -/
def getUnderlyingNetworkCompat : Except Unit (Option Network) := do
  let active ← getActiveNetworkCompat manager
  match active with
  | some network =>
    if (capabilitiesOrNull manager network).any NetworkCapabilities.vpn then
      return (bestNonVpnNetwork manager).or active
    else return active
  | none => return bestNonVpnNetwork manager

/-- The capabilities of the underlying network, which both questions below start from. -/
def underlyingCapabilities (seen : Surroundings) : Except Unit (Option NetworkCapabilities) :=
  match seen.connectivityManager with
  | none => .ok none
  | some manager => do
    match ← getUnderlyingNetworkCompat manager with
    | none => return none
    | some underlying => manager.getNetworkCapabilities underlying

/-! ### The two questions -/

/-- `hasUnderlyingConnectivity`. -/
def hasUnderlyingConnectivity (seen : Surroundings) : Bool :=
  match underlyingCapabilities seen with
  | .ok (some capabilities) =>
    capabilities.internet &&
      (capabilities.wifi || capabilities.cellular || capabilities.ethernet)
  | .ok none | .error _ => false

/-- `getCurrentNetworkType`. -/
def getCurrentNetworkType (seen : Surroundings) : NetworkType :=
  match underlyingCapabilities seen with
  | .ok (some capabilities) =>
    if !capabilities.internet then .none
    else if capabilities.wifi then .wifi
    else if capabilities.ethernet then .ethernet
    else if capabilities.cellular then .cellular
    else if capabilities.vpn then .other
    else .none
  | .ok none | .error _ => .none

/-- `getNetworkDetailForType`. -/
def getNetworkDetailForType (seen : Surroundings) : NetworkType → Option NetworkDetail
  | .wifi => seen.wifiName.map (⟨·, .wifi⟩)
  | .cellular => seen.operatorName.map (⟨·, .cellular⟩)
  | .ethernet => some ⟨"Ethernet", .ethernet⟩
  | .none | .other => none

/-- `getCurrentNetworkDetail`. -/
def getCurrentNetworkDetail (seen : Surroundings) : Option NetworkDetail :=
  let type := getCurrentNetworkType seen
  if type = .none then none else getNetworkDetailForType seen type

variable {seen : Surroundings}

/-- Without connectivity the type is none that has a name. -/
theorem getCurrentNetworkType_of_offline (hoffline : hasUnderlyingConnectivity seen = false) :
    getCurrentNetworkType seen = .none ∨ getCurrentNetworkType seen = .other := by
  unfold hasUnderlyingConnectivity at hoffline
  unfold getCurrentNetworkType
  split at hoffline
  · rename_i capabilities _
    cases hinternet : capabilities.internet with
    | false => exact Or.inl (by simp)
    | true =>
      simp only [hinternet, Bool.true_and, Bool.or_eq_false_iff] at hoffline
      obtain ⟨⟨hwifi, hcellular⟩, hethernet⟩ := hoffline
      cases hvpn : capabilities.vpn with
      | false => exact Or.inl (by simp [hwifi, hcellular, hethernet])
      | true => exact Or.inr (by simp [hwifi, hcellular, hethernet])
  · exact Or.inl rfl
  · exact Or.inl rfl

/-- Surroundings without connectivity have no network to name. -/
theorem getCurrentNetworkDetail_of_offline (hoffline : hasUnderlyingConnectivity seen = false) :
    getCurrentNetworkDetail seen = none := by
  unfold getCurrentNetworkDetail
  rcases getCurrentNetworkType_of_offline hoffline with htype | htype
  · simp [htype]
  · simp [htype, getNetworkDetailForType]

end WindscribeVpn.State.UnderlyingNetwork
