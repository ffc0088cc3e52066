import WindscribeVpn.AutoConnection.ProtocolWalk
import WindscribeVpn.Foundations.SharedObjects
import WindscribeVpn.State.NetworkInfoManager

/-!
# The choice of a protocol

`AutoConnectionManager.reset` makes a fresh list of protocols in the suggested or the default order,
and moves the manual and then the preferred protocol to the top. The entries are mutable objects,
which the collector of the connection state, the failover and `buildProtocolInformation` write, and
the manual and the preferred protocol are references to such entries. The reference to the preferred
one stays in its field when there is no network row any more, with an entry of an earlier list.

`WellChosen` is what `reset` promises: the six protocols, the only `NextUp` one at the head, which
is the choice of the preferences and the network row, and returned to the next connect unless decoy
traffic asks for WireGuard. `not_wellChosen_lost` is a history that breaks it with the protocol of a
network that is gone, and `not_wellChosen_decoy` one with a call whose result is thrown away.
`wellChosen_iff` says of every history when the promise is kept.
-/

set_option autoImplicit false
set_option relaxedAutoImplicit false

namespace WindscribeVpn.AutoConnection.ProtocolChoice

open Backend Foundations.Runs Foundations.SharedObjects ProtocolWalk State.NetworkInfoManager

/-! ### The supported protocols -/

/-- The protocols of the app in their default order, with their default ports. -/
def defaults : List (String × String) :=
  [("wg", "443"), ("ikev2", "500"), ("udp", "443"), ("tcp", "443"), ("stunnel", "443"),
    ("wstunnel", "443")]

/-- The names of the protocols. -/
def supported : List String := defaults.map Prod.fst

/-- `getAppSupportedProtocolList`. -/
def getAppSupportedProtocolList (suggestedProtocol : Option (String × String)) : List Listed :=
  let supportedProtocolList : List Listed :=
    defaults.map fun entry ↦ ⟨⟨entry.1, entry.2⟩, .disconnected⟩
  match suggestedProtocol with
  | none => supportedProtocolList
  | some (protocol, port) =>
    match supportedProtocolList.find? fun e ↦ e.protocol = protocol with
    | none => supportedProtocolList
    | some e => { e with port } :: supportedProtocolList.eraseP fun e ↦ e.protocol = protocol

/-- The preferences that are read. -/
structure Preferences where
  /-- Whether `connectionMode` is not the automatic one. -/
  manual : Bool
  savedProtocol : String
  iKEv2Port : String
  savedUDPPort : String
  savedTCPPort : String
  savedSTEALTHPort : String
  wireGuardPort : String
  savedWSTunnelPort : String
  suggestedProtocol : Option String
  suggestedPort : Option String
  isDecoyTrafficOn : Bool
  deriving DecidableEq, Repr

/-- `getDefaultProtoInfo`, when `isSuggested`. -/
def Preferences.suggested (p : Preferences) : Option (String × String) :=
  p.suggestedProtocol.bind fun protocol ↦ p.suggestedPort.map fun port ↦ (protocol, port)

/-- The port that `setupManualProtocol` takes for a protocol. -/
def Preferences.savedPort (p : Preferences) (protocol : String) : String :=
  if protocol = "ikev2" then p.iKEv2Port
  else if protocol = "udp" then p.savedUDPPort
  else if protocol = "tcp" then p.savedTCPPort
  else if protocol = "stunnel" then p.savedSTEALTHPort
  else if protocol = "wg" then p.wireGuardPort
  else if protocol = "wstunnel" then p.savedWSTunnelPort
  else "500"

/-! ### The manager -/

/-- The manager with what it reads. `collected` is the network row that its collector has taken and
not handled yet. -/
structure Manager where
  objects : Objects Listed
  listOfProtocols : List ℕ
  manualProtocol : Option ℕ
  preferredProtocol : Option (String × Option ℕ)
  isEnabled : Bool
  networkInfo : Option NetworkInfo
  collected : Option (Option NetworkInfo)
  preferences : Preferences

namespace Manager

/-- The start of the process. -/
def initial (preferences : Preferences) : Manager where
  objects := ⟨fun _ ↦ ⟨⟨"", ""⟩, .disconnected⟩, 0⟩
  listOfProtocols := []
  manualProtocol := none
  preferredProtocol := none
  isEnabled := false
  networkInfo := none
  collected := none
  preferences := preferences

variable (m : Manager)

/-- The list that `reloadProtocols` starts from. -/
def appSupportedProtocolOrder : Manager :=
  if m.listOfProtocols.isEmpty then
    let values := getAppSupportedProtocolList m.preferences.suggested
    { m with
      objects := m.objects.alloc values
      listOfProtocols := m.objects.fresh values }
  else m

/-- The first entry of a protocol. -/
def entry (protocol : String) : Option ℕ :=
  m.objects.first m.listOfProtocols fun e ↦ e.protocol = protocol

/-- Sets the port of a protocol. -/
def setPort (protocol port : String) : Manager :=
  { m with
    objects := m.objects.modifyFirst m.listOfProtocols (fun e ↦ e.protocol = protocol)
      fun e ↦ { e with port } }

/-- `setupManualProtocol`, or null in the automatic mode. -/
def setupManualProtocol : Manager :=
  if m.preferences.manual then
    let protocol := m.preferences.savedProtocol
    { m.setPort protocol (m.preferences.savedPort protocol) with
      manualProtocol := m.entry protocol }
  else { m with manualProtocol := none }

/-- `setupPreferredProtocol`, when there is a network row. -/
def setupPreferredProtocol : Manager :=
  match m.networkInfo with
  | none => m
  | some networkInfo =>
    match networkInfo.isPreferredOn, networkInfo.protocol with
    | true, some protocol =>
      { networkInfo.port.elim m (m.setPort protocol) with
        preferredProtocol := some (networkInfo.networkName, m.entry protocol) }
    | _, _ => { m with preferredProtocol := some (networkInfo.networkName, none) }

/-- `moveProtocolToTop`. -/
def moveProtocolToTop (ref : ℕ) : Manager :=
  { m with
    listOfProtocols := m.objects.promote (fun e ↦ e.protocol) ref m.listOfProtocols }

/-- The moves of `reloadProtocols`: the manual protocol to the top, then the preferred one. -/
def moveToTop : Manager :=
  let m := m.manualProtocol.elim m m.moveProtocolToTop
  (m.preferredProtocol.bind Prod.snd).elim m m.moveProtocolToTop

/-- The marks of `reloadProtocols`: no entry is `NextUp` but the first one. -/
def markFirst : Manager :=
  let objects := m.objects.modifyAll m.listOfProtocols (fun e ↦ e.type = .nextUp)
    fun e ↦ { e with type := .disconnected }
  { m with
    objects := m.listOfProtocols.head?.elim objects fun ref ↦
      objects.modify ref fun e ↦ { e with type := .nextUp } }

/-- `reloadProtocols`. -/
def reloadProtocols : Manager :=
  m.appSupportedProtocolOrder.setupManualProtocol.setupPreferredProtocol.moveToTop.markFirst

/-- `reset`. -/
def reset : Manager := { m with listOfProtocols := [] }.reloadProtocols

/-- The entries of the list. -/
def entries : List Listed := m.objects.values m.listOfProtocols

/-- `buildProtocolInformation` with the list of the manager, which writes the entry and returns
it. -/
def buildProtocolInformation (protocol port : String) : Manager := m.setPort protocol port

/-- `getProtocolInformationToConnect`: the list after it, and the protocol and port it returns. -/
def getProtocolInformationToConnect : Manager × (String × String) :=
  match (m.objects.first m.listOfProtocols fun e ↦ e.type = .nextUp).or m.listOfProtocols.head? with
  | none => (m, ("wg", "443"))
  | some config =>
    let m :=
      if m.preferences.isDecoyTrafficOn then
        m.buildProtocolInformation "wg" m.preferences.wireGuardPort
      else m
    (m, ((m.objects.get config).protocol, (m.objects.get config).port))

/-- The body of the collector of the network row. -/
def collectNetwork (networkInfo : Option NetworkInfo) : Manager :=
  if m.isEnabled then m
  else
    match networkInfo with
    | none => m
    | some info =>
      match info.protocol.bind m.entry with
      | none => m
      | some ref => { m with preferredProtocol := some (info.networkName, some ref) }.reset

/-- What the collector of the connection state writes for the protocol of a state. -/
def recordState (state : VPNState) : Manager :=
  match state.protocolInformation with
  | none => m
  | some info =>
    let disconnected : Listed → Listed := fun e ↦ { e with type := .disconnected }
    if state.status = .disconnected then
      { m with objects := m.objects.modifyFirst m.listOfProtocols (sameEntry info) disconnected }
    else if state.status = .connected ∧
        (m.objects.first m.listOfProtocols (sameEntry info)).isSome = true then
      let objects :=
        m.objects.modifyFirst m.listOfProtocols (fun e ↦ e.type = .connected) disconnected
      { m with
        objects := objects.modifyFirst m.listOfProtocols (sameEntry info)
          fun e ↦ { e with type := .connected } }
    else m

/-- The body of the collector of the connection state. -/
def collectState (state : VPNState) : Manager :=
  (if state.status = .connected then { m with isEnabled := false } else m).recordState state

/-- The failover marks the first entry of a protocol. -/
def mark (protocol : String) (type : ProtocolConnectionStatus) : Manager :=
  { m with
    objects := m.objects.modifyFirst m.listOfProtocols (fun e ↦ e.protocol = protocol)
      fun e ↦ { e with type } }

/-- The failover takes the `NextUp` mark from the first entry that has it, or from all. -/
def clearNextUp (all : Bool) : Manager :=
  let nextUp : Listed → Bool := fun e ↦ e.type = .nextUp
  let disconnected : Listed → Listed := fun e ↦ { e with type := .disconnected }
  { m with
    objects :=
      if all then m.objects.modifyAll m.listOfProtocols nextUp disconnected
      else m.objects.modifyFirst m.listOfProtocols nextUp disconnected }

/-- `listOfProtocols.sortBy { it.type }`, which is stable. -/
def sortByType : Manager :=
  { m with
    listOfProtocols := m.listOfProtocols.insertionSort fun a b ↦
      (m.objects.get a).type.ordinal ≤ (m.objects.get b).type.ordinal }

/-- The first `Disconnected` protocol of the list becomes `NextUp`, or the list is reset. -/
def markDisconnected : Manager :=
  if (m.objects.first m.listOfProtocols fun e ↦ e.type = .disconnected).isSome = true then
    { m with
      objects := m.objects.modifyFirst m.listOfProtocols (fun e ↦ e.type = .disconnected)
        fun e ↦ { e with type := .nextUp } }
  else m.reset

/-- `engageAutomaticMode`. -/
def engageAutomaticMode : Manager := m.sortByType.markDisconnected

/-- The dialog is cancelled: the selected protocol is put at the top. -/
def cancelFailover (selectedProtocol : String) : Manager :=
  let m := m.mark selectedProtocol .nextUp
  { (m.entry selectedProtocol).elim m m.moveProtocolToTop with isEnabled := false }

end Manager

/-! ### Histories -/

/-- What happens to the manager. -/
inductive Action
  /-- The preferences change. -/
  | setPreferences (preferences : Preferences)
  /-- `NetworkInfoManager` publishes a row. -/
  | networkInfo (row : Option NetworkInfo)
  /-- The collector of the network row takes the one that is published. -/
  | takeNetwork
  /-- It handles the one it took. -/
  | collectNetwork
  | collectState (state : VPNState)
  | reset
  /-- The failover begins, or is over. -/
  | setEnabled (isEnabled : Bool)
  | mark (protocol : String) (type : ProtocolConnectionStatus)
  | clearNextUp (all : Bool)
  | engageAutomaticMode
  | cancelFailover (selectedProtocol : String)
  | getProtocolInformationToConnect
  deriving DecidableEq, Repr

/-- One step, or nothing when it cannot be taken now. -/
def step (m : Manager) : Action → Option Manager
  | .setPreferences preferences => some { m with preferences }
  | .networkInfo row => some { m with networkInfo := row }
  | .takeNetwork => some { m with collected := some m.networkInfo }
  | .collectNetwork =>
    m.collected.map fun networkInfo ↦ { m with collected := none }.collectNetwork networkInfo
  | .collectState state => some (m.collectState state)
  | .reset => some m.reset
  | .setEnabled isEnabled => some { m with isEnabled }
  | .mark protocol type => some (m.mark protocol type)
  | .clearNextUp all => some (m.clearNextUp all)
  | .engageAutomaticMode => some m.engageAutomaticMode
  | .cancelFailover selectedProtocol => some (m.cancelFailover selectedProtocol)
  | .getProtocolInformationToConnect => some m.getProtocolInformationToConnect.1

/-! ### The promise -/

/-- The port of a protocol in a fresh list. -/
def Preferences.freshPort (p : Preferences) (protocol : String) : String :=
  match p.suggested with
  | none => (defaults.lookup protocol).getD ""
  | some (suggested, port) =>
    if protocol = suggested then port else (defaults.lookup protocol).getD ""

/-- The port of a protocol without a preferred one. -/
def Preferences.usualPort (p : Preferences) (protocol : String) : String :=
  if p.manual = true ∧ protocol = p.savedProtocol then p.savedPort protocol
  else p.freshPort protocol

/-- The first protocol of the suggested or the default order. -/
def Preferences.first (p : Preferences) : String :=
  match p.suggested with
  | none => "wg"
  | some (suggested, _) => if suggested ∈ supported then suggested else "wg"

/-- The choice without a preferred protocol: the saved protocol in the manual mode, otherwise the
first of the suggested or the default order. -/
def Preferences.usual (p : Preferences) : String × String :=
  if p.manual = true ∧ p.savedProtocol ∈ supported then
    (p.savedProtocol, p.savedPort p.savedProtocol)
  else (p.first, p.freshPort p.first)

/-- The preferred protocol of a network row. -/
def preferred (row : Option NetworkInfo) : Option (String × Option String) :=
  row.bind fun networkInfo ↦
    if networkInfo.isPreferredOn then
      (networkInfo.protocol.filter fun protocol ↦ protocol ∈ supported).map fun protocol ↦
        (protocol, networkInfo.port)
    else none

/-- The choice of the preferences and the network row. A row without a port leaves it. -/
def choice (p : Preferences) (row : Option NetworkInfo) : String × String :=
  match preferred row with
  | none => p.usual
  | some (protocol, port) => (protocol, port.getD (p.usualPort protocol))

/-- What `reset` promises, with the call that asks for the protocol next. -/
structure WellChosen (m : Manager) : Prop where
  supported : (m.reset.entries.map fun e ↦ e.protocol).Perm supported
  nextUp : ∃ head rest, m.reset.entries = head :: rest ∧ head.type = .nextUp ∧
    ∀ e ∈ rest, e.type ≠ .nextUp
  head : m.reset.entries.head?.map (fun e ↦ (e.protocol, e.port)) =
    some (choice m.preferences m.networkInfo)
  connects : m.reset.getProtocolInformationToConnect.2 =
    if m.preferences.isDecoyTrafficOn then ("wg", m.preferences.wireGuardPort)
    else choice m.preferences m.networkInfo

/-- The condition: without a network row no preferred protocol is left from an earlier one, unless
it is the choice anyway, and with decoy traffic the choice is WireGuard. -/
def Current (m : Manager) : Prop :=
  (m.networkInfo = none → ∀ ref ∈ m.preferredProtocol.bind Prod.snd,
    ((m.objects.get ref).protocol, (m.objects.get ref).port) = m.preferences.usual) ∧
    (m.preferences.isDecoyTrafficOn = true → (choice m.preferences m.networkInfo).1 = "wg")

/-! ### The list that is reloaded -/

section Reload

variable {m : Manager} {p : Preferences} {port : String → String}

/-- A suggested protocol that is not supported leaves the default order. -/
theorem getAppSupportedProtocolList_of_notMem {suggested value : String}
    (hsuggested : suggested ∉ supported) :
    getAppSupportedProtocolList (some (suggested, value)) = getAppSupportedProtocolList none := by
  have hnone :
      (getAppSupportedProtocolList none).find? (fun e ↦ e.protocol = suggested) = none := by
    refine List.find?_eq_none.mpr fun e he hsame ↦ hsuggested ?_
    rw [← of_decide_eq_true hsame]
    exact List.mem_map_of_mem (f := fun e : Listed ↦ e.protocol) he
  unfold getAppSupportedProtocolList at hnone ⊢
  simp only at hnone ⊢
  rw [hnone]

/-- A suggested protocol that is supported stands at the head, with its port. -/
theorem getAppSupportedProtocolList_of_mem {suggested : String} (value : String)
    (hsuggested : suggested ∈ supported) :
    ∃ e : Listed, e.protocol = suggested ∧ e.port = value ∧
      getAppSupportedProtocolList (some (suggested, value)) =
        e :: (getAppSupportedProtocolList none).eraseP fun e ↦ e.protocol = suggested := by
  rcases hfind : (getAppSupportedProtocolList none).find? fun e ↦ e.protocol = suggested with _ | e
  · obtain ⟨e, he, hsame⟩ := List.mem_map.mp
      (show suggested ∈ (getAppSupportedProtocolList none).map fun e ↦ e.protocol from hsuggested)
    exact absurd (decide_eq_true hsame) (List.find?_eq_none.mp hfind e he)
  · have hpicked := List.find?_some hfind
    refine ⟨{ e with port := value }, of_decide_eq_true hpicked, rfl, ?_⟩
    unfold getAppSupportedProtocolList at hfind ⊢
    simp only at hfind ⊢
    rw [hfind]

/-- The suggested or the default order has the supported protocols, each with its port. -/
theorem getAppSupportedProtocolList_spec (p : Preferences) :
    ((getAppSupportedProtocolList p.suggested).map fun e ↦ e.protocol).Perm supported ∧
      (∀ e ∈ getAppSupportedProtocolList p.suggested, e.port = p.freshPort e.protocol) ∧
      ∃ e rest, getAppSupportedProtocolList p.suggested = e :: rest ∧ e.protocol = p.first := by
  have hdefault : ∀ e ∈ getAppSupportedProtocolList none,
      e.port = (defaults.lookup e.protocol).getD "" := by decide
  rcases hsuggested : p.suggested with _ | ⟨suggested, value⟩
  · simp only [Preferences.freshPort, Preferences.first, hsuggested]
    exact ⟨List.Perm.refl _, hdefault, _, _, rfl, rfl⟩
  · simp only [Preferences.freshPort, Preferences.first, hsuggested]
    by_cases hmem : suggested ∈ supported
    · obtain ⟨first, rfl, rfl, hlist⟩ := getAppSupportedProtocolList_of_mem value hmem
      have hperm := Objects.map_cons_eraseP_perm (fun e : Listed ↦ e.protocol) first
        (getAppSupportedProtocolList none) hmem
      have hnotMem := (List.nodup_cons.mp (hperm.nodup_iff.mpr (by decide))).1
      rw [hlist]
      refine ⟨hperm, fun e he ↦ ?_, first, _, rfl, (if_pos hmem).symm⟩
      rcases List.mem_cons.mp he with rfl | he
      · exact (if_pos rfl).symm
      · have hname := List.mem_map_of_mem (f := fun e : Listed ↦ e.protocol) he
        rw [if_neg]
        · exact hdefault e (List.mem_of_mem_eraseP he)
        · intro hsame
          rw [hsame] at hname
          exact hnotMem hname
    · rw [getAppSupportedProtocolList_of_notMem hmem]
      refine ⟨List.Perm.refl _, fun e he ↦ ?_, _, _, rfl, (if_neg hmem).symm⟩
      rw [if_neg]
      · exact hdefault e he
      · rintro rfl
        exact hmem (List.mem_map_of_mem (f := fun e : Listed ↦ e.protocol) he)

/-- A list of the supported protocols with given ports. -/
structure Listing (m : Manager) (port : String → String) : Prop where
  keyed : m.objects.Keyed (fun e ↦ e.protocol) supported m.listOfProtocols
  port : ∀ ref ∈ m.listOfProtocols, (m.objects.get ref).port = port (m.objects.get ref).protocol

/-- `setPort` changes no protocol. -/
theorem Manager.protocol_setPort (m : Manager) (protocol value : String) (ref : ℕ) :
    ((m.setPort protocol value).objects.get ref).protocol = (m.objects.get ref).protocol := by
  refine Objects.apply_modifyFirst (fun e : Listed ↦ e.protocol) ?_ _ _ ref
  exact fun _ ↦ rfl

/-- `setPort` changes the port of one protocol. -/
theorem Listing.setPort (hlisting : Listing m port) (protocol value : String) :
    Listing (m.setPort protocol value)
      fun other ↦ if other = protocol then value else port other where
  keyed := hlisting.keyed.congr fun ref _ ↦ m.protocol_setPort protocol value ref
  port := by
    intro ref href
    have hget := hlisting.keyed.get_modifyFirst protocol (fun e ↦ { e with port := value }) href
    rw [Manager.setPort, hget]
    split_ifs
    · rfl
    · exact hlisting.port ref href

/-- The entry of a protocol is the reference of the list with this protocol. -/
theorem Listing.entry (hlisting : Listing m port) {protocol : String}
    (hprotocol : protocol ∈ supported) :
    ∃ ref ∈ m.listOfProtocols, m.entry protocol = some ref ∧
      (m.objects.get ref).protocol = protocol := hlisting.keyed.exists_first hprotocol

theorem Listing.entry_eq_none (hlisting : Listing m port) {protocol : String}
    (hprotocol : protocol ∉ supported) : m.entry protocol = none :=
  hlisting.keyed.first_eq_none hprotocol

/-- A port may be given or not. -/
theorem Listing.setPort_elim (hlisting : Listing m port) (protocol : String)
    (value : Option String) :
    Listing (value.elim m (m.setPort protocol))
      fun other ↦ if other = protocol then value.getD (port protocol) else port other := by
  cases value with
  | none =>
    refine ⟨hlisting.keyed, fun ref href ↦ ?_⟩
    rw [Option.getD_none]
    split_ifs with hsame
    · rw [← hsame]
      exact hlisting.port ref href
    · exact hlisting.port ref href
  | some value => exact hlisting.setPort protocol value

/-- The list that is reloaded, before it is ordered. -/
def Manager.prepared (m : Manager) : Manager :=
  { m with listOfProtocols := [] }.appSupportedProtocolOrder.setupManualProtocol
    |>.setupPreferredProtocol

/-- The entry that is put at the head. -/
def Manager.lead (m : Manager) : Option ℕ :=
  (m.preferredProtocol.bind Prod.snd).or (m.manualProtocol.or m.listOfProtocols.head?)

/-- A fresh list. -/
theorem appSupportedProtocolOrder_spec (hempty : m.listOfProtocols = []) :
    Listing m.appSupportedProtocolOrder m.preferences.freshPort ∧
      (∃ first rest, m.appSupportedProtocolOrder.listOfProtocols = first :: rest ∧
        (m.appSupportedProtocolOrder.objects.get first).protocol = m.preferences.first) ∧
      (∀ ref ∈ m.appSupportedProtocolOrder.listOfProtocols, m.objects.size ≤ ref) ∧
      (∀ ref < m.objects.size,
        m.appSupportedProtocolOrder.objects.get ref = m.objects.get ref) := by
  obtain ⟨hperm, hport, first, rest, hlist, hfirst⟩ :=
    getAppSupportedProtocolList_spec m.preferences
  rw [Manager.appSupportedProtocolOrder, if_pos (by rw [hempty]; rfl)]
  simp only
  generalize getAppSupportedProtocolList m.preferences.suggested = values at *
  have hvalues := m.objects.values_alloc values
  refine ⟨⟨⟨by decide, ?_⟩, fun ref href ↦ hport _ ?_⟩, ?_, fun ref href ↦ ?_, fun ref href ↦ ?_⟩
  · have hnames := congrArg (List.map fun e : Listed ↦ e.protocol) hvalues
    rw [Objects.values, List.map_map] at hnames
    exact hnames ▸ hperm
  · have hmem := List.mem_map_of_mem (f := (m.objects.alloc values).get) href
    rwa [← Objects.values, hvalues] at hmem
  · rw [Objects.values, hlist] at hvalues
    obtain ⟨ref, refs, hrefs, hget, -⟩ := List.map_eq_cons_iff.mp hvalues
    refine ⟨ref, refs, hlist ▸ hrefs, ?_⟩
    rw [hlist, hget, hfirst]
  · exact (Objects.mem_fresh.mp href).1
  · exact Objects.get_alloc_of_lt href

/-- The manual protocol is the saved one of the manual mode. -/
theorem setupManualProtocol_spec (hlisting : Listing m m.preferences.freshPort) :
    Listing m.setupManualProtocol m.preferences.usualPort ∧
      m.setupManualProtocol.manualProtocol =
        if m.preferences.manual then m.entry m.preferences.savedProtocol else none := by
  rw [Manager.setupManualProtocol]
  split_ifs with hmanual
  · refine ⟨⟨?_, ?_⟩, rfl⟩
    · exact (hlisting.setPort _ _).keyed
    · intro ref href
      rw [Preferences.usualPort, if_congr (and_iff_right hmanual) rfl rfl]
      refine ((hlisting.setPort m.preferences.savedProtocol
        (m.preferences.savedPort m.preferences.savedProtocol)).port ref href).trans ?_
      simp only
      split_ifs with hsaved
      · rw [hsaved]
      · rfl
  · refine ⟨⟨hlisting.keyed, fun ref href ↦ ?_⟩, rfl⟩
    rw [Preferences.usualPort, if_neg fun hboth ↦ hmanual hboth.1]
    exact hlisting.port ref href

/-- The preferred protocol is that of a network row that has one. -/
theorem setupPreferredProtocol_of_some (hlisting : Listing m port) {protocol : String}
    {value : Option String} (hpreferred : preferred m.networkInfo = some (protocol, value)) :
    Listing m.setupPreferredProtocol
        (fun other ↦ if other = protocol then value.getD (port protocol) else port other) ∧
      m.setupPreferredProtocol.preferredProtocol.bind Prod.snd = m.entry protocol ∧
      protocol ∈ supported := by
  rw [preferred, Option.bind_eq_some_iff] at hpreferred
  obtain ⟨networkInfo, hrow, hpreferred⟩ := hpreferred
  split_ifs at hpreferred with hon
  obtain ⟨other, hfilter, heq⟩ := Option.map_eq_some_iff.mp hpreferred
  obtain ⟨rfl, rfl⟩ := Prod.mk.inj heq
  rw [Option.filter_eq_some_iff] at hfilter
  have hset := hlisting.setPort_elim other networkInfo.port
  rw [Manager.setupPreferredProtocol, hrow]
  simp only [hon, hfilter.1]
  exact ⟨⟨hset.keyed, hset.port⟩, rfl, of_decide_eq_true hfilter.2⟩

/-- A network row without a preferred protocol leaves the list, and there is no preferred one. -/
theorem setupPreferredProtocol_of_none (hlisting : Listing m port) (hrow : m.networkInfo ≠ none)
    (hpreferred : preferred m.networkInfo = none) :
    Listing m.setupPreferredProtocol port ∧
      m.setupPreferredProtocol.preferredProtocol.bind Prod.snd = none := by
  obtain ⟨networkInfo, hinfo⟩ := Option.ne_none_iff_exists'.mp hrow
  rw [preferred, hinfo, Option.bind_some] at hpreferred
  rw [Manager.setupPreferredProtocol, hinfo]
  simp only
  split
  · rename_i protocol hon hprotocol
    rw [if_pos hon, Option.map_eq_none_iff, hprotocol, Option.filter_eq_none_iff] at hpreferred
    have hnotMem : protocol ∉ supported := fun hmem ↦ hpreferred protocol rfl (decide_eq_true hmem)
    have hset := hlisting.setPort_elim protocol networkInfo.port
    refine ⟨⟨hset.keyed, fun ref href ↦ (hset.port ref href).trans (if_neg fun hsame ↦ ?_)⟩, ?_⟩
    · exact hnotMem (hsame ▸ hset.keyed.mem href)
    · exact hlisting.entry_eq_none hnotMem
  · exact ⟨⟨hlisting.keyed, hlisting.port⟩, rfl⟩

/-- The moves put the leading entry at the head and leave the objects. -/
theorem moveToTop_spec (hkeyed : m.objects.Keyed (fun e ↦ e.protocol) supported m.listOfProtocols)
    (hmanual : ∀ ref ∈ m.manualProtocol, (m.objects.get ref).protocol ∈ supported)
    (hpreferred : ∀ ref ∈ m.preferredProtocol.bind Prod.snd,
      (m.objects.get ref).protocol ∈ supported) :
    m.moveToTop.objects = m.objects ∧
      m.objects.Keyed (fun e ↦ e.protocol) supported m.moveToTop.listOfProtocols ∧
      m.moveToTop.listOfProtocols.head? = m.lead := by
  have hmove : ∀ (m : Manager) (ref : ℕ),
      m.objects.Keyed (fun e ↦ e.protocol) supported m.listOfProtocols →
        (m.objects.get ref).protocol ∈ supported →
          m.objects.Keyed (fun e ↦ e.protocol) supported
            (m.moveProtocolToTop ref).listOfProtocols :=
    fun _ _ hkeyed href ↦ hkeyed.promote href
  rw [Manager.moveToTop, Manager.lead]
  rcases hm : m.manualProtocol with _ | manual
  · rcases hp : m.preferredProtocol.bind Prod.snd with _ | top
    · simp only [Option.elim_none, hp]
      exact ⟨trivial, hkeyed, rfl⟩
    · simp only [Option.elim_none, hp, Option.elim_some]
      exact ⟨rfl, hmove m top hkeyed (hpreferred top hp), rfl⟩
  · have hkeyed' := hmove m manual hkeyed (hmanual manual hm)
    have hp' : (m.moveProtocolToTop manual).preferredProtocol = m.preferredProtocol := rfl
    rcases hp : m.preferredProtocol.bind Prod.snd with _ | top
    · simp only [Option.elim_some, hp', hp, Option.elim_none]
      exact ⟨rfl, hkeyed', rfl⟩
    · simp only [Option.elim_some, hp', hp]
      exact ⟨rfl, hmove (m.moveProtocolToTop manual) top hkeyed' (hpreferred top hp), rfl⟩

/-- The marks change the types only, and no entry but the first one is `NextUp`. -/
theorem markFirst_spec (hkeyed : m.objects.Keyed (fun e ↦ e.protocol) supported m.listOfProtocols)
    {ref : ℕ} {rest : List ℕ} (hlist : m.listOfProtocols = ref :: rest) :
    (∀ other, (m.markFirst.objects.get other).toProtocolInformation =
        (m.objects.get other).toProtocolInformation) ∧
      (m.markFirst.objects.get ref).type = .nextUp ∧
      ∀ other ∈ rest, (m.markFirst.objects.get other).type ≠ .nextUp := by
  have hcleared : ∀ other, ((m.objects.modifyAll m.listOfProtocols (fun e ↦ e.type = .nextUp)
      fun e ↦ { e with type := .disconnected }).get other).toProtocolInformation =
        (m.objects.get other).toProtocolInformation := by
    intro other
    refine Objects.apply_modifyAll (fun e : Listed ↦ e.toProtocolInformation) ?_ _ _ other
    exact fun _ ↦ rfl
  rw [Manager.markFirst, hlist]
  simp only [List.head?_cons, Option.elim_some]
  rw [hlist] at hcleared
  refine ⟨fun other ↦ ?_, ?_, fun other hother ↦ ?_⟩
  · rw [Objects.get_modify]
    split_ifs with hsame
    · rw [hsame]
      exact hcleared ref
    · exact hcleared other
  · rw [Objects.get_modify, if_pos rfl]
  · have hnodup : (ref :: rest).Nodup := hlist ▸ hkeyed.nodup.of_map
    rw [Objects.get_modify, if_neg]
    · rw [Objects.modifyAll]
      simp only [List.mem_cons, hother, or_true, true_and, decide_eq_true_eq]
      split_ifs with htype
      · intro hsame
        cases hsame
      · exact htype
    · rintro rfl
      exact (List.nodup_cons.mp hnodup).1 hother

/-! #### What the steps of a reload leave alone -/

/-- A fresh list changes no preference, no row and no preferred protocol. -/
theorem appSupportedProtocolOrder_frame (m : Manager) :
    m.appSupportedProtocolOrder.preferences = m.preferences ∧
      m.appSupportedProtocolOrder.networkInfo = m.networkInfo ∧
      m.appSupportedProtocolOrder.preferredProtocol = m.preferredProtocol := by
  rw [Manager.appSupportedProtocolOrder]
  split_ifs <;> exact ⟨rfl, rfl, rfl⟩

/-- A manual protocol changes neither the list nor a preference, a row or the preferred protocol. -/
theorem setupManualProtocol_frame (m : Manager) :
    m.setupManualProtocol.listOfProtocols = m.listOfProtocols ∧
      m.setupManualProtocol.preferences = m.preferences ∧
      m.setupManualProtocol.networkInfo = m.networkInfo ∧
      m.setupManualProtocol.preferredProtocol = m.preferredProtocol := by
  rw [Manager.setupManualProtocol]
  split_ifs <;> exact ⟨rfl, rfl, rfl, rfl⟩

/-- The manual protocol leaves the objects outside the list. -/
theorem get_setupManualProtocol_of_notMem {ref : ℕ} (href : ref ∉ m.listOfProtocols) :
    m.setupManualProtocol.objects.get ref = m.objects.get ref := by
  rw [Manager.setupManualProtocol]
  split_ifs
  · exact Objects.get_modifyFirst_of_notMem href
  · rfl

theorem protocol_setupManualProtocol (m : Manager) (ref : ℕ) :
    (m.setupManualProtocol.objects.get ref).protocol = (m.objects.get ref).protocol := by
  rw [Manager.setupManualProtocol]
  split_ifs
  · exact m.protocol_setPort _ _ ref
  · rfl

/-- A preferred protocol changes neither the list nor the manual protocol nor a protocol. -/
theorem setupPreferredProtocol_frame (m : Manager) :
    m.setupPreferredProtocol.listOfProtocols = m.listOfProtocols ∧
      m.setupPreferredProtocol.manualProtocol = m.manualProtocol ∧
      m.setupPreferredProtocol.preferences = m.preferences ∧
      m.setupPreferredProtocol.objects.size = m.objects.size ∧
      ∀ ref, (m.setupPreferredProtocol.objects.get ref).protocol =
        (m.objects.get ref).protocol := by
  rw [Manager.setupPreferredProtocol]
  rcases m.networkInfo with _ | networkInfo
  · exact ⟨rfl, rfl, rfl, rfl, fun _ ↦ rfl⟩
  · simp only
    split
    · rcases networkInfo.port with _ | port
      · exact ⟨rfl, rfl, rfl, rfl, fun _ ↦ rfl⟩
      · exact ⟨rfl, rfl, rfl, Objects.size_modifyFirst _ _ _, m.protocol_setPort _ _⟩
    · exact ⟨rfl, rfl, rfl, rfl, fun _ ↦ rfl⟩

/-- A move changes the list only. -/
theorem elim_moveProtocolToTop_frame (m : Manager) (ref : Option ℕ) :
    (ref.elim m m.moveProtocolToTop).objects = m.objects ∧
      (ref.elim m m.moveProtocolToTop).manualProtocol = m.manualProtocol ∧
      (ref.elim m m.moveProtocolToTop).preferredProtocol = m.preferredProtocol ∧
      (ref.elim m m.moveProtocolToTop).preferences = m.preferences := by
  cases ref <;> exact ⟨rfl, rfl, rfl, rfl⟩

theorem preferences_moveToTop (m : Manager) : m.moveToTop.preferences = m.preferences :=
  (elim_moveProtocolToTop_frame _ _).2.2.2.trans (elim_moveProtocolToTop_frame _ _).2.2.2

end Reload

/-! ### What is chosen -/

/-- The first protocol of an order is supported. -/
theorem Preferences.first_mem (p : Preferences) : p.first ∈ supported := by
  rw [Preferences.first]
  split
  · decide
  · split_ifs with hmem
    · exact hmem
    · decide

/-- The port of the usual choice is that of its protocol. -/
theorem Preferences.usualPort_usual (p : Preferences) : p.usualPort p.usual.1 = p.usual.2 := by
  rw [Preferences.usual, Preferences.usualPort]
  split_ifs with hmanual hsaved hsaved
  · rfl
  · exact absurd ⟨hmanual.1, rfl⟩ hsaved
  · exact absurd ⟨hsaved.1, hsaved.2 ▸ p.first_mem⟩ hmanual
  · rfl

/-- What `reset` puts at the head: without a network row, the preferred protocol that is left. -/
def Manager.headAfterReset (m : Manager) : String × String :=
  match m.networkInfo, m.preferredProtocol.bind Prod.snd with
  | none, some ref => ((m.objects.get ref).protocol, (m.objects.get ref).port)
  | _, _ => choice m.preferences m.networkInfo

/-- Every reference is to an object that was made. -/
structure Bounded (m : Manager) : Prop where
  list : ∀ ref ∈ m.listOfProtocols, ref < m.objects.size
  manual : ∀ ref ∈ m.manualProtocol, ref < m.objects.size
  preferred : ∀ ref ∈ m.preferredProtocol.bind Prod.snd, ref < m.objects.size

/-- The invariant of the histories: the list is empty or has the supported protocols, and the
preferred protocol is one of these. -/
structure Sound (m : Manager) : Prop where
  bounded : Bounded m
  list : m.listOfProtocols = [] ∨
    m.objects.Keyed (fun e ↦ e.protocol) supported m.listOfProtocols
  preferred : ∀ ref ∈ m.preferredProtocol.bind Prod.snd, (m.objects.get ref).protocol ∈ supported

section Choice

variable {m : Manager}

/-- The list before the preferred protocol. -/
def Manager.listed (m : Manager) : Manager :=
  { m with listOfProtocols := [] }.appSupportedProtocolOrder.setupManualProtocol

theorem listed_frame (m : Manager) :
    m.listed.preferences = m.preferences ∧ m.listed.networkInfo = m.networkInfo ∧
      m.listed.preferredProtocol = m.preferredProtocol := by
  obtain ⟨hp, hinfo, hpreferred⟩ := appSupportedProtocolOrder_frame { m with listOfProtocols := [] }
  obtain ⟨-, hp', hinfo', hpreferred'⟩ :=
    setupManualProtocol_frame { m with listOfProtocols := [] }.appSupportedProtocolOrder
  exact ⟨hp'.trans hp, hinfo'.trans hinfo, hpreferred'.trans hpreferred⟩

/-- The list before the preferred protocol, with the entry that is at its head or is put there. -/
theorem listed_spec (m : Manager) :
    Listing m.listed m.preferences.usualPort ∧
      (∀ ref ∈ m.listed.manualProtocol, (m.listed.objects.get ref).protocol ∈ supported) ∧
      (∃ ref ∈ m.listed.listOfProtocols,
        m.listed.manualProtocol.or m.listed.listOfProtocols.head? = some ref ∧
          (m.listed.objects.get ref).protocol = m.preferences.usual.1) ∧
      ∀ ref < m.objects.size, m.listed.objects.get ref = m.objects.get ref := by
  obtain ⟨hfresh, ⟨first, rest, hlist, hfirst⟩, hnew, hold⟩ :=
    appSupportedProtocolOrder_spec (m := { m with listOfProtocols := [] }) rfl
  obtain ⟨hp, -, -⟩ := appSupportedProtocolOrder_frame { m with listOfProtocols := [] }
  obtain ⟨hlisting, hmanual⟩ := setupManualProtocol_spec
    (m := { m with listOfProtocols := [] }.appSupportedProtocolOrder) (hp.symm ▸ hfresh)
  rw [← Manager.listed] at hlisting hmanual
  have hsame : m.listed.listOfProtocols = first :: rest :=
    (setupManualProtocol_frame _).1.trans hlist
  have hentry : ∀ ref, (m.listed.objects.get ref).protocol =
      (({ m with listOfProtocols := [] }.appSupportedProtocolOrder).objects.get ref).protocol :=
    protocol_setupManualProtocol _
  rw [hp] at hlisting hmanual
  have hcases : (m.preferences.manual = true ∧ m.preferences.savedProtocol ∈ supported) ∧
      (∃ ref ∈ m.listed.listOfProtocols, m.listed.manualProtocol = some ref ∧
        (m.listed.objects.get ref).protocol = m.preferences.savedProtocol) ∨
      ¬ (m.preferences.manual = true ∧ m.preferences.savedProtocol ∈ supported) ∧
        m.listed.manualProtocol = none := by
    by_cases hon : m.preferences.manual = true
    · rw [if_pos hon] at hmanual
      by_cases hmem : m.preferences.savedProtocol ∈ supported
      · obtain ⟨ref, href, hsome, hprotocol⟩ := hfresh.entry hmem
        refine Or.inl ⟨⟨hon, hmem⟩, ref, ?_, hmanual.trans hsome, (hentry ref).trans hprotocol⟩
        rw [hsame, ← hlist]
        exact href
      · exact Or.inr ⟨fun hboth ↦ hmem hboth.2, hmanual.trans (hfresh.entry_eq_none hmem)⟩
    · rw [if_neg hon] at hmanual
      exact Or.inr ⟨fun hboth ↦ hon hboth.1, hmanual⟩
  refine ⟨hlisting, ?_, ?_, fun ref href ↦ ?_⟩
  · intro ref href
    rcases hcases with ⟨⟨-, hmem⟩, other, -, hother, hprotocol⟩ | ⟨-, hnone⟩
    · rw [hother, Option.mem_some_iff] at href
      rw [← href, hprotocol]
      exact hmem
    · rw [hnone] at href
      cases href
  · rcases hcases with ⟨hboth, ref, href, hsome, hprotocol⟩ | ⟨hnot, hnone⟩
    · refine ⟨ref, href, by rw [hsome, Option.some_or], ?_⟩
      rw [Preferences.usual, if_pos hboth, hprotocol]
    · refine ⟨first, hsame ▸ List.mem_cons_self, by rw [hnone, Option.none_or, hsame]; rfl, ?_⟩
      rw [Preferences.usual, if_neg hnot, hentry, hfirst]
  · refine (get_setupManualProtocol_of_notMem fun hmem ↦ ?_).trans (hold ref href)
    exact absurd (hnew ref hmem) (not_le.mpr href)

/-- What is reloaded, with the entry that is put at the head. -/
theorem prepared_spec (hsound : Sound m) :
    m.prepared.objects.Keyed (fun e ↦ e.protocol) supported m.prepared.listOfProtocols ∧
      (∀ ref ∈ m.prepared.manualProtocol, (m.prepared.objects.get ref).protocol ∈ supported) ∧
      (∀ ref ∈ m.prepared.preferredProtocol.bind Prod.snd,
        (m.prepared.objects.get ref).protocol ∈ supported) ∧
      ∃ ref, m.prepared.lead = some ref ∧
        ((m.prepared.objects.get ref).protocol, (m.prepared.objects.get ref).port) =
          m.headAfterReset := by
  obtain ⟨hlisting, hmanual, ⟨ref, href, hlead, hprotocol⟩, hold⟩ := listed_spec m
  obtain ⟨-, hinfo, hstale⟩ := listed_frame m
  have hprepared : m.prepared = m.listed.setupPreferredProtocol := rfl
  obtain ⟨hlist, hmanual', -, -, hframe⟩ := setupPreferredProtocol_frame m.listed
  rw [← hprepared] at hlist hmanual' hframe
  have husual : ((m.listed.objects.get ref).protocol, (m.listed.objects.get ref).port) =
      m.preferences.usual := by
    rw [hlisting.port ref href, hprotocol, Preferences.usualPort_usual]
  rcases hrow : m.networkInfo with _ | row
  · have hsame : m.prepared = m.listed := by
      rw [hprepared, Manager.setupPreferredProtocol, hinfo, hrow]
    rw [hsame, hstale, Manager.headAfterReset, hrow]
    refine ⟨hlisting.keyed, hmanual, fun stale hmem ↦ ?_, ?_⟩
    · rw [hold stale (hsound.bounded.preferred stale hmem)]
      exact hsound.preferred stale hmem
    · rw [Manager.lead, hstale]
      rcases hbind : m.preferredProtocol.bind Prod.snd with _ | stale
      · exact ⟨ref, by rw [Option.none_or, hlead], husual⟩
      · refine ⟨stale, Option.some_or, ?_⟩
        rw [hold stale (hsound.bounded.preferred stale hbind)]
  · have hne : m.listed.networkInfo ≠ none := by
      rw [hinfo, hrow]
      exact Option.some_ne_none row
    have hhead : m.headAfterReset = choice m.preferences m.networkInfo := by
      rw [Manager.headAfterReset, hrow]
    have hmanuals : ∀ ref ∈ m.prepared.manualProtocol,
        (m.prepared.objects.get ref).protocol ∈ supported := by
      intro other hother
      rw [hframe]
      exact hmanual other (hmanual' ▸ hother)
    rw [hhead, choice]
    rcases hpreferred : preferred m.networkInfo with _ | ⟨protocol, value⟩
    · obtain ⟨hlisting', hnone⟩ :=
        setupPreferredProtocol_of_none hlisting hne (hinfo.symm ▸ hpreferred)
      rw [← hprepared] at hlisting' hnone
      refine ⟨hlisting'.keyed, hmanuals, fun other hother ↦ ?_, ref, ?_, ?_⟩
      · rw [hnone] at hother
        cases hother
      · rw [Manager.lead, hnone, Option.none_or, hmanual', hlist, hlead]
      · rw [hlisting'.port ref (hlist ▸ href), hframe, hprotocol, Preferences.usualPort_usual]
    · obtain ⟨hlisting', hsome, hmem⟩ :=
        setupPreferredProtocol_of_some hlisting (hinfo.symm ▸ hpreferred)
      rw [← hprepared] at hlisting' hsome
      obtain ⟨top, htop, hentry, hname⟩ := hlisting.entry hmem
      rw [hentry] at hsome
      have hname' : (m.prepared.objects.get top).protocol = protocol := (hframe top).trans hname
      refine ⟨hlisting'.keyed, hmanuals, fun other hother ↦ ?_, top, ?_, ?_⟩
      · rw [hsome, Option.mem_some_iff] at hother
        rw [← hother, hname']
        exact hmem
      · rw [Manager.lead, hsome, Option.some_or]
      · rw [hlisting'.port top (hlist ▸ htop), hname', if_pos rfl]

/-- What `reset` makes of the list. -/
theorem reset_spec (hsound : Sound m) :
    ∃ ref rest, m.reset.listOfProtocols = ref :: rest ∧
      m.reset.objects.Keyed (fun e ↦ e.protocol) supported m.reset.listOfProtocols ∧
      ((m.reset.objects.get ref).protocol, (m.reset.objects.get ref).port) = m.headAfterReset ∧
      (m.reset.objects.get ref).type = .nextUp ∧
      ∀ other ∈ rest, (m.reset.objects.get other).type ≠ .nextUp := by
  obtain ⟨hkeyed, hmanual, hpreferred, ref, hlead, hhead⟩ := prepared_spec hsound
  obtain ⟨hobjects, hkeyed', hfirst⟩ := moveToTop_spec hkeyed hmanual hpreferred
  obtain ⟨rest, hlist⟩ := List.head?_eq_some_iff.mp (hfirst.trans hlead)
  rw [← hobjects] at hkeyed'
  obtain ⟨hsame, htype, hrest⟩ := markFirst_spec hkeyed' hlist
  have hreset : m.reset = m.prepared.moveToTop.markFirst := rfl
  have hlist' : m.reset.listOfProtocols = ref :: rest := hlist
  rw [hreset]
  refine ⟨ref, rest, hlist, hkeyed'.congr fun other _ ↦ ?_, ?_, htype, hrest⟩
  · exact congrArg ProtocolInformation.protocol (hsame other)
  · rw [hobjects] at hsame
    rw [← hhead]
    exact congrArg (fun info ↦ (info.protocol, info.port)) (hsame ref)

theorem preferences_reset (m : Manager) : m.reset.preferences = m.preferences := by
  have hreset : m.reset.preferences = m.prepared.moveToTop.preferences := rfl
  have hprepared : m.prepared.preferences = m.listed.preferences :=
    (setupPreferredProtocol_frame _).2.2.1
  rw [hreset, preferences_moveToTop, hprepared, (listed_frame m).1]

/-- The protocol that is asked for right after `reset` is the head, with the WireGuard port when
decoy traffic is on and the head is WireGuard. -/
theorem connects_reset (hsound : Sound m) :
    m.reset.getProtocolInformationToConnect.2 =
      if m.preferences.isDecoyTrafficOn = true ∧ m.headAfterReset.1 = "wg" then
        ("wg", m.preferences.wireGuardPort)
      else m.headAfterReset := by
  obtain ⟨ref, rest, hlist, hkeyed, hhead, htype, -⟩ := reset_spec hsound
  have hfirst : m.reset.objects.first m.reset.listOfProtocols (fun e ↦ e.type = .nextUp) =
      some ref := by
    rw [hlist]
    exact List.find?_cons_of_pos (decide_eq_true htype)
  rw [Manager.getProtocolInformationToConnect, hfirst, Option.some_or, preferences_reset]
  simp only
  by_cases hdecoy : m.preferences.isDecoyTrafficOn = true
  · have hmem : ref ∈ m.reset.listOfProtocols := hlist ▸ List.mem_cons_self
    have hget := hkeyed.get_modifyFirst "wg"
      (fun e ↦ { e with port := m.preferences.wireGuardPort }) hmem
    rw [if_pos hdecoy, Manager.buildProtocolInformation, Manager.setPort, hget, ← hhead]
    split_ifs with hwg hboth hboth
    · rw [← hwg]
    · exact absurd ⟨hdecoy, hwg⟩ hboth
    · exact absurd hboth.2 hwg
    · rfl
  · rw [if_neg hdecoy, if_neg fun hboth ↦ hdecoy hboth.1]
    exact hhead

/-- After a history `reset` keeps its promise exactly when the choice is current. -/
theorem Sound.wellChosen_iff_current (hsound : Sound m) : WellChosen m ↔ Current m := by
  obtain ⟨ref, rest, hlist, hkeyed, hhead, htype, hrest⟩ := reset_spec hsound
  have hentries : m.reset.entries =
      m.reset.objects.get ref :: rest.map m.reset.objects.get := by
    rw [Manager.entries, Objects.values, hlist, List.map_cons]
  have hchosen : m.headAfterReset = choice m.preferences m.networkInfo ↔
      (m.networkInfo = none → ∀ ref ∈ m.preferredProtocol.bind Prod.snd,
        ((m.objects.get ref).protocol, (m.objects.get ref).port) = m.preferences.usual) := by
    rw [Manager.headAfterReset]
    rcases hrow : m.networkInfo with _ | row
    · rcases hbind : m.preferredProtocol.bind Prod.snd with _ | stale
      · exact iff_of_true rfl fun _ _ hnone ↦ absurd hnone (Option.not_mem_none _)
      · constructor
        · rintro hsame - other hother
          obtain rfl := Option.mem_some_iff.mp hother
          exact hsame
        · exact fun hcurrent ↦ hcurrent rfl stale rfl
    · exact iff_of_true rfl fun hnone ↦ absurd hnone (Option.some_ne_none row)
  have hconnects := connects_reset hsound
  rw [Current, ← hchosen]
  constructor
  · rintro ⟨-, -, hfirst, hconnected⟩
    rw [hentries, List.head?_cons, Option.map_some, hhead, Option.some.injEq] at hfirst
    refine ⟨hfirst, fun hdecoy ↦ ?_⟩
    rw [hconnects, if_pos hdecoy, hfirst] at hconnected
    by_contra hwg
    rw [if_neg fun hboth ↦ hwg hboth.2] at hconnected
    exact hwg (congrArg Prod.fst hconnected)
  · rintro ⟨hsame, hdecoy⟩
    refine ⟨?_, ⟨_, _, hentries, htype, ?_⟩, ?_, ?_⟩
    · rw [Manager.entries, Objects.values, List.map_map]
      exact hkeyed.2
    · intro e he
      obtain ⟨other, hother, rfl⟩ := List.mem_map.mp he
      exact hrest other hother
    · rw [hentries, List.head?_cons, Option.map_some, hhead, hsame]
    · rw [hconnects, hsame]
      by_cases hon : m.preferences.isDecoyTrafficOn = true
      · rw [if_pos ⟨hon, hdecoy hon⟩, if_pos hon]
      · rw [if_neg fun hboth ↦ hon hboth.1, if_neg hon]

end Choice

/-! ### What a history keeps -/

section History

variable {m m' : Manager}

theorem Bounded.appSupportedProtocolOrder (hbounded : Bounded m) :
    Bounded m.appSupportedProtocolOrder := by
  rw [Manager.appSupportedProtocolOrder]
  split_ifs
  · exact {
      list := fun ref href ↦ (Objects.mem_fresh.mp href).2
      manual := fun ref href ↦ Nat.lt_add_right _ (hbounded.manual ref href)
      preferred := fun ref href ↦ Nat.lt_add_right _ (hbounded.preferred ref href) }
  · exact hbounded

/-- The entry of a protocol is one of the list. -/
theorem Bounded.entry (hbounded : Bounded m) {protocol : String} {ref : ℕ}
    (hentry : m.entry protocol = some ref) : ref < m.objects.size :=
  hbounded.list ref (Objects.first_eq_some hentry).1

theorem Bounded.setupManualProtocol (hbounded : Bounded m) : Bounded m.setupManualProtocol := by
  rw [Manager.setupManualProtocol]
  split_ifs
  · have hsize : ∀ picked write, (m.objects.modifyFirst m.listOfProtocols picked write).size =
        m.objects.size := Objects.size_modifyFirst m.listOfProtocols
    exact {
      list := fun ref href ↦ (hbounded.list ref href).trans_eq (hsize _ _).symm
      manual := fun ref href ↦ (hbounded.entry href).trans_eq (hsize _ _).symm
      preferred := fun ref href ↦ (hbounded.preferred ref href).trans_eq (hsize _ _).symm }
  · exact ⟨hbounded.list, nofun, hbounded.preferred⟩

theorem Bounded.setupPreferredProtocol (hbounded : Bounded m) :
    Bounded m.setupPreferredProtocol := by
  obtain ⟨hlist, hmanual, -, hsize, -⟩ := setupPreferredProtocol_frame m
  refine ⟨?_, ?_, ?_⟩
  · rw [hlist, hsize]
    exact hbounded.list
  · rw [hmanual, hsize]
    exact hbounded.manual
  · rw [hsize, Manager.setupPreferredProtocol]
    rcases m.networkInfo with _ | networkInfo
    · exact hbounded.preferred
    · simp only
      split
      · exact fun ref href ↦ hbounded.entry href
      · exact nofun

theorem Bounded.elim_moveProtocolToTop (hbounded : Bounded m) {ref : Option ℕ}
    (href : ∀ other ∈ ref, other < m.objects.size) :
    Bounded (ref.elim m m.moveProtocolToTop) := by
  cases ref with
  | none => exact hbounded
  | some ref =>
    refine ⟨fun other hother ↦ ?_, hbounded.manual, hbounded.preferred⟩
    have hmem : other ∈ m.objects.promote (fun e ↦ e.protocol) ref m.listOfProtocols := hother
    rcases Objects.mem_of_mem_promote hmem with rfl | hold
    · exact href other rfl
    · exact hbounded.list other hold

theorem Bounded.moveToTop (hbounded : Bounded m) : Bounded m.moveToTop := by
  have hmoved := hbounded.elim_moveProtocolToTop hbounded.manual
  exact hmoved.elim_moveProtocolToTop hmoved.preferred

theorem Bounded.markFirst (hbounded : Bounded m) : Bounded m.markFirst := by
  have hsize : m.markFirst.objects.size = m.objects.size := by
    rw [Manager.markFirst]
    rcases m.listOfProtocols.head? with _ | ref <;> rfl
  refine ⟨fun ref href ↦ ?_, fun ref href ↦ ?_, fun ref href ↦ ?_⟩
  · exact (hbounded.list ref href).trans_eq hsize.symm
  · exact (hbounded.manual ref href).trans_eq hsize.symm
  · exact (hbounded.preferred ref href).trans_eq hsize.symm

/-- `reset` refers to objects that were made. -/
theorem Bounded.reset (hbounded : Bounded m) : Bounded m.reset := by
  have hcleared : Bounded { m with listOfProtocols := [] } :=
    ⟨nofun, hbounded.manual, hbounded.preferred⟩
  exact hcleared.appSupportedProtocolOrder.setupManualProtocol.setupPreferredProtocol.moveToTop
    |>.markFirst

/-- `reset` keeps the invariant. -/
theorem Sound.reset (hsound : Sound m) : Sound m.reset := by
  obtain ⟨hkeyed, hmanual, hpreferred, ref, hlead, -⟩ := prepared_spec hsound
  obtain ⟨hobjects, hkeyed', hfirst⟩ := moveToTop_spec hkeyed hmanual hpreferred
  obtain ⟨rest, hlist⟩ := List.head?_eq_some_iff.mp (hfirst.trans hlead)
  obtain ⟨hsame, -⟩ := markFirst_spec (hobjects.symm ▸ hkeyed') hlist
  obtain ⟨-, -, -, hkeyed'', -⟩ := reset_spec hsound
  refine ⟨hsound.bounded.reset, Or.inr hkeyed'', fun other hother ↦ ?_⟩
  have hprotocol := congrArg ProtocolInformation.protocol (hsame other)
  rw [hobjects] at hprotocol
  have hpreferred' : m.reset.preferredProtocol = m.prepared.preferredProtocol :=
    (elim_moveProtocolToTop_frame _ _).2.2.1.trans (elim_moveProtocolToTop_frame _ _).2.2.1
  rw [hpreferred'] at hother
  exact hprotocol.symm ▸ hpreferred other hother

/-- A write that changes no protocol keeps the invariant. -/
theorem Sound.write (hsound : Sound m) {objects : Objects Listed}
    (hprotocol : ∀ ref, (objects.get ref).protocol = (m.objects.get ref).protocol)
    (hsize : objects.size = m.objects.size) : Sound { m with objects } where
  bounded := {
    list := fun ref href ↦ (hsound.bounded.list ref href).trans_eq hsize.symm
    manual := fun ref href ↦ (hsound.bounded.manual ref href).trans_eq hsize.symm
    preferred := fun ref href ↦ (hsound.bounded.preferred ref href).trans_eq hsize.symm }
  list := hsound.list.imp_right fun hkeyed ↦ hkeyed.congr fun ref _ ↦ hprotocol ref
  preferred := by
    intro ref href
    rw [hprotocol]
    exact hsound.preferred ref href

/-- A write of types keeps the invariant. -/
theorem Sound.modifyFirst (hsound : Sound m) (refs : List ℕ) (picked : Listed → Bool)
    (type : ProtocolConnectionStatus) :
    Sound { m with objects := m.objects.modifyFirst refs picked fun e ↦ { e with type } } := by
  refine hsound.write (fun ref ↦ ?_) (Objects.size_modifyFirst _ _ _)
  refine Objects.apply_modifyFirst (fun e : Listed ↦ e.protocol) ?_ refs picked ref
  exact fun _ ↦ rfl

/-- A choice of other fields keeps the invariant. -/
theorem Sound.of_eq (hsound : Sound m) (hobjects : m'.objects = m.objects)
    (hlist : m'.listOfProtocols = m.listOfProtocols)
    (hmanual : m'.manualProtocol = m.manualProtocol)
    (hpreferred : m'.preferredProtocol = m.preferredProtocol) : Sound m' := by
  obtain ⟨⟨hlists, hmanuals, hpreferreds⟩, hkeyed, hsupported⟩ := hsound
  rw [← hobjects, ← hlist] at hkeyed hlists
  rw [← hobjects, ← hmanual] at hmanuals
  rw [← hobjects, ← hpreferred] at hpreferreds hsupported
  exact ⟨⟨hlists, hmanuals, hpreferreds⟩, hkeyed, hsupported⟩

theorem Sound.collectNetwork (hsound : Sound m) (networkInfo : Option NetworkInfo) :
    Sound (m.collectNetwork networkInfo) := by
  unfold Manager.collectNetwork
  split_ifs
  · exact hsound
  · rcases networkInfo with _ | info
    · exact hsound
    · rcases hentry : info.protocol.bind m.entry with _ | ref
      · simp only [hentry]
        exact hsound
      · simp only [hentry]
        obtain ⟨protocol, -, hfirst⟩ := Option.bind_eq_some_iff.mp hentry
        obtain ⟨hmem, -⟩ := Objects.first_eq_some hfirst
        refine Sound.reset ⟨⟨hsound.bounded.list, hsound.bounded.manual, ?_⟩, hsound.list, ?_⟩
        · rintro other hother
          obtain rfl := Option.mem_some_iff.mp hother
          exact hsound.bounded.list ref hmem
        · rintro other hother
          obtain rfl := Option.mem_some_iff.mp hother
          rcases hsound.list with hnil | hkeyed
          · rw [hnil] at hmem
            cases hmem
          · exact hkeyed.mem hmem

theorem Sound.recordState (hsound : Sound m) (state : VPNState) : Sound (m.recordState state) := by
  rw [Manager.recordState]
  rcases state.protocolInformation with _ | info
  · exact hsound
  · simp only
    split_ifs
    · exact hsound.modifyFirst _ _ .disconnected
    · exact (hsound.modifyFirst _ _ .disconnected).modifyFirst _ _ .connected
    · exact hsound

theorem Sound.collectState (hsound : Sound m) (state : VPNState) :
    Sound (m.collectState state) := by
  rw [Manager.collectState]
  split_ifs
  · have hover : Sound { m with isEnabled := false } := hsound.of_eq rfl rfl rfl rfl
    exact hover.recordState state
  · exact hsound.recordState state

theorem Sound.mark (hsound : Sound m) (protocol : String) (type : ProtocolConnectionStatus) :
    Sound (m.mark protocol type) := hsound.modifyFirst _ _ type

theorem Sound.clearNextUp (hsound : Sound m) (all : Bool) : Sound (m.clearNextUp all) := by
  rw [Manager.clearNextUp]
  cases all with
  | false => exact hsound.modifyFirst _ _ .disconnected
  | true =>
    refine hsound.write (fun ref ↦ ?_) rfl
    rw [if_pos rfl]
    refine Objects.apply_modifyAll (fun e : Listed ↦ e.protocol) ?_ _ _ ref
    exact fun _ ↦ rfl

theorem Sound.sortByType (hsound : Sound m) : Sound m.sortByType := by
  have hperm : m.sortByType.listOfProtocols.Perm m.listOfProtocols :=
    List.perm_insertionSort _ m.listOfProtocols
  refine ⟨⟨fun ref href ↦ hsound.bounded.list ref (hperm.mem_iff.mp href),
    hsound.bounded.manual, hsound.bounded.preferred⟩, ?_, hsound.preferred⟩
  rcases hsound.list with hnil | hkeyed
  · exact Or.inl (List.perm_nil.mp (hnil ▸ hperm))
  · exact Or.inr (hkeyed.perm hperm)

theorem Sound.markDisconnected (hsound : Sound m) : Sound m.markDisconnected := by
  rw [Manager.markDisconnected]
  split_ifs
  · exact hsound.modifyFirst _ _ .nextUp
  · exact hsound.reset

theorem Sound.engageAutomaticMode (hsound : Sound m) : Sound m.engageAutomaticMode :=
  hsound.sortByType.markDisconnected

theorem Sound.cancelFailover (hsound : Sound m) (selectedProtocol : String) :
    Sound (m.cancelFailover selectedProtocol) := by
  have hmarked := hsound.mark selectedProtocol .nextUp
  rw [Manager.cancelFailover]
  refine Sound.of_eq (m := (((m.mark selectedProtocol .nextUp).entry selectedProtocol).elim
    (m.mark selectedProtocol .nextUp) (m.mark selectedProtocol .nextUp).moveProtocolToTop)) ?_
    rfl rfl rfl rfl
  rcases hentry : (m.mark selectedProtocol .nextUp).entry selectedProtocol with _ | ref
  · exact hmarked
  · obtain ⟨hmem, -⟩ := Objects.first_eq_some hentry
    refine ⟨?_, ?_, hmarked.preferred⟩
    · have hlist : ∀ other ∈ some ref, other < (m.mark selectedProtocol .nextUp).objects.size :=
        fun other hother ↦ hmarked.bounded.list other (Option.mem_some_iff.mp hother ▸ hmem)
      exact hmarked.bounded.elim_moveProtocolToTop hlist
    · rcases hmarked.list with hnil | hkeyed
      · rw [hnil] at hmem
        cases hmem
      · exact Or.inr (hkeyed.promote (hkeyed.mem hmem))

theorem Sound.getProtocolInformationToConnect (hsound : Sound m) :
    Sound m.getProtocolInformationToConnect.1 := by
  rw [Manager.getProtocolInformationToConnect]
  split
  · exact hsound
  · simp only
    split_ifs
    · exact hsound.write (m.protocol_setPort _ _) (Objects.size_modifyFirst _ _ _)
    · exact hsound

theorem sound_initial (preferences : Preferences) : Sound (Manager.initial preferences) :=
  ⟨⟨nofun, nofun, nofun⟩, Or.inl rfl, nofun⟩

/-- Every step keeps the invariant. -/
theorem Sound.step (hsound : Sound m) {a : Action} (hstep : step m a = some m') : Sound m' := by
  cases a with
  | setPreferences preferences =>
    obtain rfl := Option.some.inj hstep
    exact hsound.of_eq rfl rfl rfl rfl
  | networkInfo row =>
    obtain rfl := Option.some.inj hstep
    exact hsound.of_eq rfl rfl rfl rfl
  | takeNetwork =>
    obtain rfl := Option.some.inj hstep
    exact hsound.of_eq rfl rfl rfl rfl
  | collectNetwork =>
    obtain ⟨networkInfo, -, rfl⟩ := Option.map_eq_some_iff.mp hstep
    have htaken : Sound { m with collected := none } := hsound.of_eq rfl rfl rfl rfl
    exact htaken.collectNetwork networkInfo
  | collectState state =>
    obtain rfl := Option.some.inj hstep
    exact hsound.collectState state
  | reset =>
    obtain rfl := Option.some.inj hstep
    exact hsound.reset
  | setEnabled isEnabled =>
    obtain rfl := Option.some.inj hstep
    exact hsound.of_eq rfl rfl rfl rfl
  | mark protocol type =>
    obtain rfl := Option.some.inj hstep
    exact hsound.mark protocol type
  | clearNextUp all =>
    obtain rfl := Option.some.inj hstep
    exact hsound.clearNextUp all
  | engageAutomaticMode =>
    obtain rfl := Option.some.inj hstep
    exact hsound.engageAutomaticMode
  | cancelFailover selectedProtocol =>
    obtain rfl := Option.some.inj hstep
    exact hsound.cancelFailover selectedProtocol
  | getProtocolInformationToConnect =>
    obtain rfl := Option.some.inj hstep
    exact hsound.getProtocolInformationToConnect

/-- After every history `reset` keeps its promise exactly when the choice is current. -/
theorem wellChosen_iff {preferences : Preferences}
    (hreach : Reaches step Always (Manager.initial preferences) m) :
    WellChosen m ↔ Current m := by
  have hsound : Sound m := by
    refine hreach.invariant Sound ?_ (sound_initial preferences)
    exact fun _ _ _ hx _ hstep ↦ hx.step hstep
  exact hsound.wellChosen_iff_current

end History

/-! ### Histories that break the promise -/

/-- The preferences of a fresh installation. -/
def samplePreferences (isDecoyTrafficOn : Bool) : Preferences where
  manual := false
  savedProtocol := "wg"
  iKEv2Port := "500"
  savedUDPPort := "443"
  savedTCPPort := "443"
  savedSTEALTHPort := "443"
  wireGuardPort := "443"
  savedWSTunnelPort := "443"
  suggestedProtocol := none
  suggestedPort := none
  isDecoyTrafficOn := isDecoyTrafficOn

/-- A network with a preferred protocol. -/
def sampleNetwork : NetworkInfo where
  networkName := "home"
  isAutoSecureOn := true
  isPreferredOn := true
  protocol := some "tcp"
  port := some "1194"

/-- On a network with a preferred protocol `reset` puts it at the head. -/
theorem wellChosen_iff_known :
    ∃ m : Manager, m.networkInfo = some sampleNetwork ∧ WellChosen m := by
  obtain ⟨m, hreach, hcheck⟩ := exists_reaches_of_run step Always
    (Manager.initial (samplePreferences false)) [.networkInfo (some sampleNetwork)]
    (fun m ↦ m.networkInfo = some sampleNetwork ∧ m.preferences.isDecoyTrafficOn = false)
    (by decide)
  obtain ⟨hrow, hdecoy⟩ := of_decide_eq_true hcheck
  refine ⟨m, hrow, (wellChosen_iff hreach).mpr ⟨fun hnone ↦ ?_, fun hon ↦ ?_⟩⟩
  · rw [hrow] at hnone
    cases hnone
  · rw [hdecoy] at hon
    cases hon

/-- The network with a preferred protocol is left, and there is no row of another. The entry of TCP
stays in its field, and `reset` puts it at the head again. -/
theorem not_wellChosen_lost :
    ¬ ∀ (preferences : Preferences) (m : Manager),
      Reaches step Always (Manager.initial preferences) m → WellChosen m := by
  intro hpromise
  obtain ⟨m, hreach, hcheck⟩ := exists_reaches_of_run step Always
    (Manager.initial (samplePreferences false))
    [.networkInfo (some sampleNetwork), .reset, .networkInfo none]
    (fun m ↦ m.reset.entries.head?.map (fun e ↦ (e.protocol, e.port)) = some ("tcp", "1194") ∧
      choice m.preferences m.networkInfo = ("wg", "443")) (by decide)
  obtain ⟨hhead, hchoice⟩ := of_decide_eq_true hcheck
  have hpromised := (hpromise _ m hreach).head
  rw [hhead, hchoice] at hpromised
  exact absurd hpromised (by decide)

/-- Decoy traffic is on, on a network with another preferred protocol. The entry of WireGuard gets
its port, and the next connect takes TCP. -/
theorem not_wellChosen_decoy :
    ¬ ∀ (preferences : Preferences) (m : Manager),
      Reaches step Always (Manager.initial preferences) m → m.networkInfo ≠ none →
        WellChosen m := by
  intro hpromise
  obtain ⟨m, hreach, hcheck⟩ := exists_reaches_of_run step Always
    (Manager.initial (samplePreferences true)) [.networkInfo (some sampleNetwork)]
    (fun m ↦ m.networkInfo ≠ none ∧ m.preferences.isDecoyTrafficOn = true ∧
      m.reset.getProtocolInformationToConnect.2 = ("tcp", "1194")) (by decide)
  obtain ⟨hrow, hdecoy, hconnects⟩ := of_decide_eq_true hcheck
  have hpromised := (hpromise _ m hreach hrow).connects
  rw [hconnects, if_pos hdecoy] at hpromised
  exact absurd (congrArg Prod.fst hpromised) (show "tcp" ≠ "wg" by decide)

end WindscribeVpn.AutoConnection.ProtocolChoice
