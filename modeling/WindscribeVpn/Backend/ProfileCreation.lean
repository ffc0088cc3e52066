import WindscribeVpn.Backend.VPNProfileCreator

/-!
# Profile creation, all or nothing

`AllOrNothing` is what a build promises: it throws and leaves the saved location and the saved
profile alone, or it returns and has saved both, the profile leading to the server that was asked
for. A server config that is missing or cannot be decoded is to end in the throw.

The builders save the location first and the profile after it, so a profile that cannot be written
leaves the location of a build that threw. `createOpenVpnProfile` swallows whatever goes wrong with
the server config and saves a profile over a config file that does not name the server
(`not_allOrNothing_missingConfig`). A custom config is looked at once more after both are saved, and
that look may throw. `allOrNothing_iff` collects the inputs on which none of this happens.
-/

set_option autoImplicit false
set_option relaxedAutoImplicit false

namespace WindscribeVpn.Backend.ProfileCreation

open Foundations.Programs
open VpnBackendHolder (Protocol)
open LanBypass (Peer)
open VPNProfileCreator

variable (w : Device)

/-! ### The promise -/

/-- The OpenVPN profile is started from a config file that names this server. -/
def NamesServer (d : Storage) (ip port protocol : String) : Prop :=
  (∃ profile, d.profile = some (.openVpn profile)) ∧
    ∃ lines, d.openVpnConfig = .lines lines ∧ .remote ip port protocol ∈ lines

/-- The config file names the local end of a proxy that leads to this server. -/
def NamesProxy (d : Storage) (ip port : String) (isWSTunnel : Bool) : Prop :=
  ∃ localPort,
    NamesServer d proxyTunnelAddress (toString localPort) proxyTunnelProtocol ∧
      d.proxyTunnel = some { ip, port, localPort, isWSTunnel }

/-- What is saved leads to the address and port of the server that was requested, by the protocol
that was requested. An IKEv2 profile has no port of its own; the requested one is in the
preferences. -/
def Carries : Request → Storage → Prop
  | .server _ vpnParameters config, d =>
    match config.protocol with
    | .ikev2 =>
      (∃ profile, d.profile = some (.ikev2 profile) ∧ profile.gateway = vpnParameters.ikev2Ip) ∧
        d.selectedProtocol = config.protocol ∧ d.selectedPort = config.port
    | .udp => NamesServer d vpnParameters.udpIp config.port "udp"
    | .tcp => NamesServer d vpnParameters.tcpIp config.port "tcp"
    | .stealth => NamesProxy d vpnParameters.stealthIp config.port false
    | .wsTunnel => NamesProxy d vpnParameters.ikev2Ip config.port true
    | .wireGuard =>
      ∃ saved, d.profile = some (.wireGuard saved) ∧
        saved.peers.map Peer.endpoint = [some (vpnParameters.stealthIp ++ ":" ++ config.port)]
    | .other => False
  | .custom configFile, d =>
    if isWireGuard (configFile.content.getD "") then
      ∃ parsed saved, parsedWireGuard w configFile = .ok parsed ∧
        d.profile = some (.wireGuard saved) ∧
        saved.peers.map Peer.endpoint = parsed.peers.map Peer.endpoint
    else
      ∃ parsed saved written, parsedOpenVpn w configFile = .ok parsed ∧
        d.profile = some (.openVpn saved) ∧ d.openVpnConfig = .ofProfile written ∧
        saved.mConnections = parsed.mConnections ∧ written.mConnections = parsed.mConnections

/-- The location that belongs to a request. -/
def locationOf : Request → LastSelectedLocation
  | .server location _ _ => location
  | .custom configFile => customLocation configFile

/-- The location and the profile are those of this request. -/
structure Saved (request : Request) (d : Storage) : Prop where
  location : d.location = some (locationOf request)
  cachedProfile : d.cachedProfile = d.profile
  carries : Carries w request d

/-- The location and the profile are as they were. -/
structure Untouched (d d' : Storage) : Prop where
  location : d'.location = d.location
  profile : d'.profile = d.profile
  cachedProfile : d'.cachedProfile = d.cachedProfile

/-- The request is for one of the variants of OpenVPN, which need the server config. -/
def needsServerConfig : Request → Bool
  | .server _ _ config => config.protocol ≠ .ikev2 && config.protocol ≠ .wireGuard
  | .custom _ => false

/-- The server config is missing or cannot be decoded. -/
def ServerConfigLost : Prop :=
  ∀ text ∈ w.preferences.openVpnServerConfig, w.base64.decode text = none

/-- Profile creation is all or nothing, whatever was saved before. -/
def AllOrNothing (request : Request) : Prop :=
  ∀ d, wp (create w request)
    (fun _ d' ↦ Saved w request d' ∧ (needsServerConfig request → ¬ ServerConfigLost w))
    (fun _ d' ↦ Untouched d d') d

/-! ### When it is kept -/

/-- A result that is no error. -/
def Succeeds {α : Type} (result : Except Failure α) : Prop := ∃ a, result = .ok a

/-- The server config is there, can be decoded and has the line after which the server is named, and
the config file can be written. -/
def ServerConfigUsable (protocol : Protocol) : Prop :=
  w.writes .openVpnConfig ∧
    ∃ text decoded, w.preferences.openVpnServerConfig = some text ∧
      w.base64.decode text = some decoded ∧
      ∃ line ∈ w.sanitize (if tweaks w protocol then withTweaks decoded else decoded),
        contains line "dev tun"

/-- The DNS of an interface is valid. -/
def DnsAccepted (own : DnsServers) : Prop :=
  ∃ details servers, customDNS w = .ok details ∧ dnsServersFor details own = .ok servers ∧
    w.accepts (.dnsServers servers)

/-- The parameters of a server make an interface. -/
structure InterfaceAccepted (params : WgRemoteParams) : Prop where
  privateKey : w.accepts (.privateKey params.privateKey)
  addresses : w.accepts (.addresses params.address)
  dns : DnsAccepted w (.advertised params.dns)
  mtu : ∀ value ∈ interfaceMtus w, w.accepts (.mtu value)
  amnezia : ∀ entry ∈ interfaceAmnezia w, w.accepts (.amnezia entry.1 entry.2)

/-- A custom WireGuard config makes an interface and its peers. -/
structure ConfigAccepted (config : Config) : Prop where
  copied : ∀ setting ∈ copiedSettings w config, w.accepts setting
  dns : DnsAccepted w config.interface.dnsServers
  peers : Succeeds (modifiedPeers w config)

/-- Every line with the word `proto`, up to the one that names the remote, has a second part. -/
def ProtocolReadable (content : String) : Prop :=
  ∀ line ∈ (content.splitOn "\n").takeWhile fun line ↦ !namesRemote line,
    contains line "proto" → 1 < (line.splitOn " ").length

/-- The inputs on which a build keeps the promise. For each builder it is an implication: if nothing
that the builder checks before it saves goes wrong, then nothing after the first save may. -/
def Sound : Request → Prop
  | .server _ vpnParameters config =>
    match config.protocol with
    | .ikev2 =>
      Succeeds (natKeepAlive w) → Succeeds (customDNS w) → Succeeds (getIkev2Credentials w) →
        w.writes .location → w.writes .profile
    | .wireGuard =>
      ∀ forceInit params, wgParamsFor w vpnParameters forceInit = .ok params →
        InterfaceAccepted w params →
        (∀ setting ∈ peerSettings w params vpnParameters.stealthIp config.port,
          w.accepts setting) →
        w.writes .location → w.writes .profile
    | .udp | .tcp | .stealth | .wsTunnel | .other =>
      Succeeds (customDNS w) → Succeeds (addOpenVpnCredentials w) → w.writes .location →
        w.writes .profile ∧ config.protocol ≠ .other ∧ ServerConfigUsable w config.protocol
  | .custom configFile =>
    if isWireGuard (configFile.content.getD "") then
      ∀ config, parsedWireGuard w configFile = .ok config → ConfigAccepted w config →
        w.writes .location →
        w.writes .profile ∧ ∃ peer rest, config.peers = peer :: rest ∧ peer.endpoint.isSome
    else
      Succeeds (parsedOpenVpn w configFile) → Succeeds (customDNS w) → w.writes .location →
        w.writes .openVpnConfig ∧ w.writes .profile ∧
          ProtocolReadable (configFile.content.getD "")

/-! ### Steps -/

section Steps

variable {w} {E : Failure → Storage → Prop} {d : Storage}

@[simp] theorem wp_writeFile {Q : Unit → Storage → Prop} {file : StoredFile}
    {write : Storage → Storage} :
    wp (writeFile w file write) Q E d ↔
      (w.writes file → Q () (write d)) ∧ (¬ w.writes file → E (.io file) d) := by
  by_cases hwrites : w.writes file <;> simp [writeFile, hwrites]

@[simp] theorem wp_setCustomDNS {Q : DNSDetails → Storage → Prop} :
    wp (setCustomDNS w) Q E d ↔
      (∀ details, customDNS w = .ok details → Q details { d with dnsDetails := some details }) ∧
        ∀ e, customDNS w = .error e → E e d := by
  simp [setCustomDNS]

@[simp] theorem wp_setSelectedServer {Q : Unit → Storage → Prop} {vpnParameters : VPNParameters} :
    wp (setSelectedServer vpnParameters) Q E d ↔
      Q () { d with
        selectedIp := some vpnParameters.hostName, selectedNodeId := vpnParameters.nodeId } :=
  Iff.rfl

@[simp] theorem wp_setLastConnectedUsingSplit {Q : Unit → Storage → Prop} {value : Bool} :
    wp (setLastConnectedUsingSplit value) Q E d ↔
      Q () { d with lastConnectedUsingSplit := value } :=
  Iff.rfl

@[simp] theorem wp_saveSelectedLocation {Q : Unit → Storage → Prop}
    {location : LastSelectedLocation} :
    wp (saveSelectedLocation w location) Q E d ↔
      (w.writes .location → Q () { d with location := some location }) ∧
        (¬ w.writes .location → E (.io .location) d) :=
  wp_writeFile

@[simp] theorem wp_saveProfile {Q : Unit → Storage → Prop} {profile : Profile} :
    wp (saveProfile w profile) Q E d ↔
      (w.writes .profile → Q () { d with
        profile := some profile, cachedProfile := some profile }) ∧
        (¬ w.writes .profile → E (.io .profile) d) :=
  wp_writeFile

@[simp] theorem untouched_iff {d' : Storage} :
    Untouched d d' ↔ d'.location = d.location ∧ d'.profile = d.profile ∧
      d'.cachedProfile = d.cachedProfile :=
  ⟨fun h ↦ ⟨h.location, h.profile, h.cachedProfile⟩, fun h ↦ ⟨h.1, h.2.1, h.2.2⟩⟩

@[simp] theorem saved_iff {request : Request} :
    Saved w request d ↔ d.location = some (locationOf request) ∧
      d.cachedProfile = d.profile ∧ Carries w request d :=
  ⟨fun h ↦ ⟨h.location, h.cachedProfile, h.carries⟩, fun h ↦ ⟨h.1, h.2.1, h.2.2⟩⟩

/-- Setters are called to the end when each accepts its value. -/
@[simp] theorem callSetters_eq_ok {settings : List WgSetting} {u : Unit} :
    callSetters w settings = .ok u ↔ ∀ setting ∈ settings, w.accepts setting := by
  simp only [callSetters]
  cases hfind : settings.find? fun setting ↦ !w.accepts setting with
  | none => simpa using hfind
  | some setting =>
    have hmem := List.mem_of_find?_eq_some hfind
    have hrefused := List.find?_some hfind
    simp only [reduceCtorEq, false_iff, not_forall]
    exact ⟨setting, hmem, by simpa using hrefused⟩

end Steps

/-- A device on which nothing was saved yet. -/
def blank : Storage where
  location := none
  profile := none
  cachedProfile := none
  openVpnConfig := .lines []
  proxyTunnel := none
  dnsDetails := none
  selectedProtocol := .other
  selectedPort := ""
  selectedIp := none
  selectedNodeId := 0
  lastConnectedUsingSplit := false
  wgForceInit := false

section Server

variable {location : LastSelectedLocation} {vpnParameters : VPNParameters}
  {config : VPNProfileCreator.ProtocolInformation}

theorem allOrNothing_ikev2 (hprotocol : config.protocol = .ikev2) :
    AllOrNothing w (.server location vpnParameters config) ↔
      Sound w (.server location vpnParameters config) := by
  simp only [AllOrNothing, Sound, create, hprotocol, createIkEV2Profile, wp_bind, wp_attempt,
    wp_modify, wp_setSelectedServer, wp_setCustomDNS, wp_setLastConnectedUsingSplit,
    wp_saveSelectedLocation, wp_saveProfile, wp_pure]
  constructor
  · rintro hall ⟨keepAlive, hkeepAlive⟩ ⟨details, hdetails⟩ ⟨credentials, hcredentials⟩ hlocation
    by_contra hprofile
    have hbuilt := (((hall blank).1 keepAlive hkeepAlive).1 details hdetails).1 credentials
      hcredentials
    cases ((hbuilt.1 hlocation).2 hprofile).location
  · intro hsound d
    refine ⟨fun keepAlive hkeepAlive ↦ ⟨fun details hdetails ↦ ⟨fun credentials hcredentials ↦
      ⟨fun hlocation ↦ ⟨fun hprofile ↦ ?_, fun hprofile ↦ ?_⟩, ?_⟩, ?_⟩, ?_⟩, ?_⟩
    · simp [Carries, hprotocol, needsServerConfig, locationOf]
    · exact absurd (hsound ⟨_, hkeepAlive⟩ ⟨_, hdetails⟩ ⟨_, hcredentials⟩ hlocation) hprofile
    · exact fun _ ↦ ⟨rfl, rfl, rfl⟩
    all_goals exact fun _ _ ↦ ⟨rfl, rfl, rfl⟩

theorem createWireGuardPeer_eq_ok {params : WgRemoteParams} {endpoint port : String}
    {peer : Peer} :
    createWireGuardPeer w params endpoint port = .ok peer ↔
      (∀ setting ∈ peerSettings w params endpoint port, w.accepts setting) ∧
        peer =
          { publicKey := params.serverPublicKey
            allowedIps := allowedIPsFor w params
            endpoint := some (endpoint ++ ":" ++ port)
            persistentKeepalive := some 25
            preSharedKey := some params.preSharedKey } := by
  simp only [createWireGuardPeer, bind, Except.bind, ← callSetters_eq_ok (u := ())]
  cases callSetters w (peerSettings w params endpoint port) with
  | error e => simp
  | ok u => simp [pure, Except.pure, eq_comm]

/-- The setters of the Amnezia parameters accept their values. -/
theorem amnezia_accepted_iff :
    (∀ setting ∈ (interfaceAmnezia w).map fun entry ↦ WgSetting.amnezia entry.1 entry.2,
      w.accepts setting) ↔ ∀ entry ∈ interfaceAmnezia w, w.accepts (.amnezia entry.1 entry.2) :=
  List.forall_mem_map

/-- The interface is built only when its parameters are accepted, and nothing is saved on the
way. -/
theorem wp_createWireGuardInterface {params : WgRemoteParams} {Q : Interface → Storage → Prop}
    {E : Failure → Storage → Prop} {d : Storage}
    (hreturns : InterfaceAccepted w params → ∀ anInterface d', Untouched d d' → Q anInterface d')
    (hthrows : ∀ e d', Untouched d d' → E e d') :
    wp (createWireGuardInterface w params) Q E d := by
  simp only [createWireGuardInterface, wp_bind, wp_attempt, wp_setCustomDNS, wp_pure,
    wp_setLastConnectedUsingSplit, callSetters_eq_ok]
  refine ⟨fun _ hfirst ↦ ⟨fun details hdetails ↦ ⟨fun servers hservers ↦ ⟨fun _ hdns ↦
    ⟨fun _ hamnezia ↦ ?_, ?_⟩, ?_⟩, ?_⟩, ?_⟩, ?_⟩
  · refine hreturns ?_ _ _ ⟨rfl, rfl, rfl⟩
    have hmtu := List.forall_mem_cons.mp hdns
    exact
      { privateKey := hfirst _ List.mem_cons_self
        addresses := hfirst _ (List.mem_cons_of_mem _ List.mem_cons_self)
        dns := ⟨details, servers, hdetails, hservers, hmtu.1⟩
        mtu := List.forall_mem_map.mp hmtu.2
        amnezia := (amnezia_accepted_iff w).mp hamnezia }
  all_goals exact fun e _ ↦ hthrows e _ ⟨rfl, rfl, rfl⟩

/-- The interface is built when its parameters are accepted. -/
theorem exists_of_wp_createWireGuardInterface {params : WgRemoteParams}
    {Q : Interface → Storage → Prop} {E : Failure → Storage → Prop} {d : Storage}
    (haccepted : InterfaceAccepted w params)
    (hwp : wp (createWireGuardInterface w params) Q E d) :
    ∃ anInterface d', Untouched d d' ∧ Q anInterface d' := by
  simp only [createWireGuardInterface, wp_bind, wp_attempt, wp_setCustomDNS, wp_pure,
    wp_setLastConnectedUsingSplit, callSetters_eq_ok] at hwp
  obtain ⟨details, servers, hdetails, hservers, haccepts⟩ := haccepted.dns
  have hfirst : ∀ setting ∈ [WgSetting.privateKey params.privateKey, .addresses params.address],
      w.accepts setting := by
    simp [haccepted.privateKey, haccepted.addresses]
  have hdns : ∀ setting ∈ WgSetting.dnsServers servers :: (interfaceMtus w).map .mtu,
      w.accepts setting :=
    List.forall_mem_cons.mpr ⟨haccepts, List.forall_mem_map.mpr haccepted.mtu⟩
  have hbuilt := (((hwp.1 () hfirst).1 details hdetails).1 servers hservers).1 () hdns
  refine ⟨_, _, ?_, hbuilt.1 () ((amnezia_accepted_iff w).mpr haccepted.amnezia)⟩
  exact ⟨rfl, rfl, rfl⟩

theorem allOrNothing_wireGuard (hprotocol : config.protocol = .wireGuard) :
    AllOrNothing w (.server location vpnParameters config) ↔
      Sound w (.server location vpnParameters config) := by
  simp only [AllOrNothing, Sound, create, hprotocol, createVpnProfileFromWireGuardProfile, wp_bind,
    wp_get, wp_modify, wp_attempt]
  constructor
  · intro hall forceInit params hparams hinterface hpeer hlocation
    by_contra hprofile
    have hblank := (hall { blank with wgForceInit := forceInit }).1 params hparams
    obtain ⟨anInterface, d', huntouched, hbuilt⟩ :=
      exists_of_wp_createWireGuardInterface w hinterface hblank
    have hsaved := hbuilt.1 _ ((createWireGuardPeer_eq_ok w).mpr ⟨hpeer, rfl⟩)
    simp [hlocation, hprofile, blank] at hsaved
  · intro hsound d
    refine ⟨fun params hparams ↦ ?_, fun _ _ ↦ ⟨rfl, rfl, rfl⟩⟩
    have hthrows : ∀ d', Untouched { d with wgForceInit := false } d' → Untouched d d' :=
      fun d' huntouched ↦ ⟨huntouched.location, huntouched.profile, huntouched.cachedProfile⟩
    refine wp_createWireGuardInterface w (fun hinterface anInterface d' huntouched ↦ ?_)
      fun _ d' huntouched ↦ hthrows d' huntouched
    refine ⟨fun peer hpeer ↦ ?_, fun _ _ ↦ hthrows d' huntouched⟩
    obtain ⟨hsettings, rfl⟩ := (createWireGuardPeer_eq_ok w).mp hpeer
    have hwrites := hsound _ params hparams hinterface hsettings
    simp only [wp_setSelectedServer, wp_saveSelectedLocation, wp_saveProfile, wp_pure]
    refine ⟨fun hlocation ↦ ⟨fun hprofile ↦ ?_, fun hprofile ↦ ?_⟩, fun _ ↦ ?_⟩
    · refine ⟨⟨rfl, rfl, ?_⟩, ?_⟩
      · simp [Carries, hprotocol]
      · simp [needsServerConfig, hprotocol]
    · exact absurd (hwrites hlocation) hprofile
    · exact ⟨huntouched.location, huntouched.profile, huntouched.cachedProfile⟩

/-! ### The swallowed failures of the OpenVPN builder -/

/-- The config file after the `try` of `createOpenVpnProfile`. -/
def configAfter (vpnParameters : VPNParameters) (config : VPNProfileCreator.ProtocolInformation)
    (before : ConfigFileContent) : ConfigFileContent :=
  match remoteOf w vpnParameters config, w.preferences.openVpnServerConfig with
  | some remote, some text =>
    match w.base64.decode text with
    | some decoded =>
      if w.writes .openVpnConfig then
        getConfigFile w remote vpnParameters.ovpnX509
          (if tweaks w config.protocol then withTweaks decoded else decoded)
      else before
    | none => if w.writes .openVpnConfig && !tweaks w config.protocol then .lines [] else before
  | _, _ => before

/-- The `try` never throws: whatever fails in it, the build goes on. -/
@[simp] theorem wp_writeServerConfig {Q : Unit → Storage → Prop} {E : Failure → Storage → Prop}
    {d : Storage} :
    wp (tryCatch (writeServerConfig w vpnParameters config) fun _ ↦ pure ()) Q E d ↔
      Q () { d with openVpnConfig := configAfter w vpnParameters config d.openVpnConfig } := by
  simp only [writeServerConfig, configAfter, wp_tryCatch, wp_pure]
  cases remoteOf w vpnParameters config with
  | none => simp
  | some remote =>
    cases w.preferences.openVpnServerConfig with
    | none => simp
    | some text =>
      cases hdecode : w.base64.decode text <;> by_cases htweaks : tweaks w config.protocol <;>
        by_cases hwrites : w.writes .openVpnConfig <;>
        simp [serverConfigFor, writeConfigFile, decode, hdecode, htweaks, hwrites,
          w.base64.decode_encode, Except.map]

/-- The server is named after a `dev tun` line, and nowhere else. -/
theorem remote_mem_configLines {remote : Remote} {line ip port protocol : String} :
    .remote ip port protocol ∈ configLines remote line ↔
      contains line "dev tun" ∧ ip = remote.ip ∧ port = remote.port ∧
        protocol = remote.protocol := by
  simp only [configLines]
  split_ifs with hdev <;> simp [hdev]

/-- A usable server config leaves a config file that names the server. -/
theorem remote_mem_configAfter {remote : Remote}
    (hremote : remoteOf w vpnParameters config = some remote)
    (husable : ServerConfigUsable w config.protocol) (before : ConfigFileContent) :
    ∃ lines, configAfter w vpnParameters config before = .lines lines ∧
      .remote remote.ip remote.port remote.protocol ∈ lines := by
  obtain ⟨hwrites, text, decoded, htext, hdecode, line, hline, hdev⟩ := husable
  simp only [configAfter, hremote, htext, hdecode, hwrites, if_true, getConfigFile]
  refine ⟨_, rfl, List.mem_cons_of_mem _ (List.mem_flatMap.mpr ⟨line, hline, ?_⟩)⟩
  exact remote_mem_configLines.mpr ⟨hdev, rfl, rfl, rfl⟩

/-- On a device without a config file, a file that names a server comes from a usable config. -/
theorem usable_of_remote_mem {lines : List ConfigLine} {ip port protocol : String}
    (hafter : configAfter w vpnParameters config (.lines []) = .lines lines)
    (hmem : .remote ip port protocol ∈ lines) : ServerConfigUsable w config.protocol := by
  have hne : lines ≠ [] := List.ne_nil_of_mem hmem
  simp only [configAfter] at hafter
  split at hafter
  case h_2 => simp_all
  case h_1 remote text hremote htext =>
    cases hdecode : w.base64.decode text with
    | none => simp_all
    | some decoded =>
      by_cases hwrites : w.writes .openVpnConfig
      · simp only [hdecode, hwrites, if_true, getConfigFile, ConfigFileContent.lines.injEq]
          at hafter
        subst hafter
        obtain ⟨line, hline, hnamed⟩ : ∃ line ∈ w.sanitize
            (if tweaks w config.protocol then withTweaks decoded else decoded),
            .remote ip port protocol ∈ configLines remote line := by
          simpa using hmem
        exact ⟨hwrites, text, decoded, htext, hdecode, line, hline,
          (remote_mem_configLines.mp hnamed).1⟩
      · simp_all

/-- The proxy that runs after `startProxyFor`. -/
def proxyAfter (vpnParameters : VPNParameters) (config : VPNProfileCreator.ProtocolInformation)
    (d : Storage) : Storage :=
  match config.protocol with
  | .stealth =>
    { d with
      selectedPort := config.port
      proxyTunnel := some
        { ip := vpnParameters.stealthIp, port := config.port
          localPort := findAvailablePort w, isWSTunnel := false } }
  | .wsTunnel =>
    { d with
      selectedPort := config.port
      proxyTunnel := some
        { ip := vpnParameters.ikev2Ip, port := config.port
          localPort := findAvailablePort w, isWSTunnel := true } }
  | .udp | .tcp | .ikev2 | .wireGuard | .other => d

@[simp] theorem wp_startProxyFor {Q : Unit → Storage → Prop} {E : Failure → Storage → Prop}
    {d : Storage} :
    wp (startProxyFor w vpnParameters config) Q E d ↔
      Q () (proxyAfter w vpnParameters config d) := by
  simp only [startProxyFor, proxyAfter]
  cases config.protocol <;> simp [restartProxyTunnel]

section ProxyAfter

variable (d : Storage)

@[simp] theorem proxyAfter_location :
    (proxyAfter w vpnParameters config d).location = d.location := by
  cases hprotocol : config.protocol <;> simp [proxyAfter, hprotocol]

@[simp] theorem proxyAfter_profile :
    (proxyAfter w vpnParameters config d).profile = d.profile := by
  cases hprotocol : config.protocol <;> simp [proxyAfter, hprotocol]

@[simp] theorem proxyAfter_cachedProfile :
    (proxyAfter w vpnParameters config d).cachedProfile = d.cachedProfile := by
  cases hprotocol : config.protocol <;> simp [proxyAfter, hprotocol]

@[simp] theorem proxyAfter_openVpnConfig :
    (proxyAfter w vpnParameters config d).openVpnConfig = d.openVpnConfig := by
  cases hprotocol : config.protocol <;> simp [proxyAfter, hprotocol]

end ProxyAfter

/-- What the OpenVPN builder leaves leads to the server if the server config was usable. -/
theorem carries_of_usable {d d' : Storage} {before : ConfigFileContent}
    (hprofile : ∃ profile, d'.profile = some (.openVpn profile))
    (hconfig : d'.openVpnConfig = configAfter w vpnParameters config before)
    (hproxy : d'.proxyTunnel = (proxyAfter w vpnParameters config d).proxyTunnel)
    (hikev2 : config.protocol ≠ .ikev2) (hwireGuard : config.protocol ≠ .wireGuard)
    (hother : config.protocol ≠ .other) (husable : ServerConfigUsable w config.protocol) :
    Carries w (.server location vpnParameters config) d' := by
  have hnames : ∀ remote, remoteOf w vpnParameters config = some remote →
      NamesServer d' remote.ip remote.port remote.protocol := by
    intro remote hremote
    rw [NamesServer, hconfig]
    exact ⟨hprofile, remote_mem_configAfter w hremote husable before⟩
  cases hprotocol : config.protocol with
  | udp | tcp =>
    simp only [Carries, hprotocol]
    exact hnames _ (by rw [remoteOf, hprotocol])
  | stealth | wsTunnel =>
    simp only [Carries, hprotocol]
    refine ⟨findAvailablePort w, hnames _ (by rw [remoteOf, hprotocol]), ?_⟩
    simp only [hproxy, proxyAfter, hprotocol]
  | ikev2 => exact absurd hprotocol hikev2
  | wireGuard => exact absurd hprotocol hwireGuard
  | other => exact absurd hprotocol hother

/-- On a device without a config file, what the OpenVPN builder leaves leads to the server only if
the server config was usable. -/
theorem usable_of_carries {d' : Storage}
    (hconfig : d'.openVpnConfig = configAfter w vpnParameters config (.lines []))
    (hikev2 : config.protocol ≠ .ikev2) (hwireGuard : config.protocol ≠ .wireGuard)
    (hcarries : Carries w (.server location vpnParameters config) d') :
    config.protocol ≠ .other ∧ ServerConfigUsable w config.protocol := by
  have husable : ∀ ip port protocol, NamesServer d' ip port protocol →
      ServerConfigUsable w config.protocol := by
    rintro ip port protocol ⟨-, lines, hlines, hmem⟩
    exact usable_of_remote_mem w (hconfig.symm.trans hlines) hmem
  cases hprotocol : config.protocol with
  | udp | tcp =>
    simp only [Carries, hprotocol] at hcarries
    exact ⟨nofun, hprotocol ▸ husable _ _ _ hcarries⟩
  | stealth | wsTunnel =>
    simp only [Carries, hprotocol] at hcarries
    obtain ⟨localPort, hnames, -⟩ := hcarries
    exact ⟨nofun, hprotocol ▸ husable _ _ _ hnames⟩
  | ikev2 => exact absurd hprotocol hikev2
  | wireGuard => exact absurd hprotocol hwireGuard
  | other => simp [Carries, hprotocol] at hcarries

/-- A usable server config is not lost. -/
theorem not_lost_of_usable {protocol : Protocol} (husable : ServerConfigUsable w protocol) :
    ¬ ServerConfigLost w := by
  obtain ⟨-, text, decoded, htext, hdecode, -⟩ := husable
  intro hlost
  have hnone := hlost text htext
  simp [hdecode] at hnone

theorem allOrNothing_openVpn (hikev2 : config.protocol ≠ .ikev2)
    (hwireGuard : config.protocol ≠ .wireGuard) :
    AllOrNothing w (.server location vpnParameters config) ↔
      Sound w (.server location vpnParameters config) := by
  have hcreate : create w (.server location vpnParameters config) =
      createOpenVpnProfile w location vpnParameters config := by
    cases hprotocol : config.protocol <;> simp_all [create]
  have hsound : Sound w (.server location vpnParameters config) ↔
      (Succeeds (customDNS w) → Succeeds (addOpenVpnCredentials w) → w.writes .location →
        w.writes .profile ∧ config.protocol ≠ .other ∧
          ServerConfigUsable w config.protocol) := by
    cases hprotocol : config.protocol <;> simp_all [Sound]
  rw [AllOrNothing, hcreate, hsound]
  simp only [createOpenVpnProfile, wp_bind, wp_attempt, wp_setLastConnectedUsingSplit,
    wp_setCustomDNS, wp_writeServerConfig, wp_startProxyFor, wp_setSelectedServer,
    wp_saveSelectedLocation, wp_saveProfile, wp_pure]
  constructor
  · rintro hall ⟨details, hdetails⟩ ⟨credentials, hcredentials⟩ hlocation
    have hsaved := (((hall blank).1 details hdetails).1 credentials hcredentials).1 hlocation
    have hprofile : w.writes .profile := by
      by_contra hrefused
      cases (hsaved.2 hrefused).location
    have hcarries := (hsaved.1 hprofile).1.carries
    refine ⟨hprofile, usable_of_carries w ?_ hikev2 hwireGuard hcarries⟩
    exact proxyAfter_openVpnConfig w _
  · intro hkept d
    refine ⟨fun details hdetails ↦ ⟨fun credentials hcredentials ↦ ⟨fun hlocation ↦ ?_, ?_⟩, ?_⟩,
      ?_⟩
    · obtain ⟨hprofile, hother, husable⟩ := hkept ⟨_, hdetails⟩ ⟨_, hcredentials⟩ hlocation
      refine ⟨fun _ ↦ ⟨⟨rfl, rfl, ?_⟩, fun _ ↦ not_lost_of_usable w husable⟩,
        fun hrefused ↦ absurd hprofile hrefused⟩
      exact carries_of_usable w ⟨_, rfl⟩ (proxyAfter_openVpnConfig w _) rfl hikev2 hwireGuard hother
        husable
    · exact fun _ ↦ ⟨proxyAfter_location w _, proxyAfter_profile w _, proxyAfter_cachedProfile w _⟩
    all_goals exact fun _ _ ↦ ⟨rfl, rfl, rfl⟩

end Server

/-! ### Custom configs -/

section Custom

variable {configFile : ConfigFile}

/-- LAN bypass leaves the endpoints of the peers alone. -/
theorem endpoints_of_modifiedPeers {config : Config} {peers : List Peer}
    (hpeers : modifiedPeers w config = .ok peers) :
    peers.map Peer.endpoint = config.peers.map Peer.endpoint := by
  simp only [modifiedPeers, LanBypass.createModifiedPeersForLanBypass] at hpeers
  split_ifs at hpeers with hlan
  · split at hpeers
    case h_1 modified hmodified =>
      obtain rfl : modified = peers := by simpa using hpeers
      rw [LanBypass.mapM_modifiedPeer hmodified, List.map_map]
      rfl
    case h_2 => simp at hpeers
  · obtain rfl : config.peers = peers := by simpa using hpeers
    rfl

/-- The look at a WireGuard config after the saves needs the endpoint of its first peer. -/
theorem succeeds_wireguardInformation {config : Config}
    (hparsed : parsedWireGuard w configFile = .ok config) :
    Succeeds (getProtocolInformationFromWireguardConfig w (configFile.content.getD "")) ↔
      ∃ peer rest, config.peers = peer :: rest ∧ peer.endpoint.isSome := by
  have hparse : w.parseWireGuard (configFile.content.getD "") = some config := by
    cases hcontent : configFile.content with
    | none => simp [parsedWireGuard, hcontent] at hparsed
    | some content =>
      cases hconfig : w.parseWireGuard content <;> simp_all [parsedWireGuard]
  simp only [getProtocolInformationFromWireguardConfig, hparse]
  cases config.peers with
  | nil => simp [Succeeds]
  | cons peer rest =>
    cases hendpoint : peer.endpoint <;> simp [Succeeds, hendpoint]

/-- The loop over the lines of an OpenVPN config throws at a line with the word `proto` that has
only one part, unless it returned before. -/
theorem succeeds_readConfigLines (lines : List String)
    (information : VPNProfileCreator.ProtocolInformation) :
    Succeeds (readConfigLines lines information) ↔
      ∀ line ∈ lines.takeWhile fun line ↦ !namesRemote line,
        contains line "proto" → 1 < (line.splitOn " ").length := by
  induction lines generalizing information with
  | nil => simp [readConfigLines, Succeeds]
  | cons line lines ih =>
    by_cases hremote : namesRemote line
    · simp [readConfigLines, readConfigLine, hremote, Succeeds]
    · by_cases hproto : contains line "proto"
      · rcases hsplits : line.splitOn " " with _ | ⟨first, _ | ⟨protocol, rest⟩⟩
        · simp [readConfigLines, readConfigLine, hremote, hproto, hsplits, Succeeds]
        · simp [readConfigLines, readConfigLine, hremote, hproto, hsplits, Succeeds]
        · by_cases htcp : contains protocol "tcp" <;>
            simp [readConfigLines, readConfigLine, hremote, hproto, hsplits, htcp, ih]
      · simp [readConfigLines, readConfigLine, hremote, hproto, ih]

@[simp] theorem withSettings_mConnections {profile : OpenVpnProfile} {details : DNSDetails} :
    (withSettings w profile details).mConnections = profile.mConnections := rfl

@[simp] theorem withApps_mConnections {profile : OpenVpnProfile} :
    (withApps w profile).mConnections = profile.mConnections := by
  simp only [withApps]
  split <;> rfl

theorem allOrNothing_customWireGuard (htype : isWireGuard (configFile.content.getD "")) :
    AllOrNothing w (.custom configFile) ↔ Sound w (.custom configFile) := by
  simp only [AllOrNothing, Sound, create, createVpnProfileFromConfig, htype, if_true,
    createVpnProfileFromWireGuardConfig, wp_bind, wp_attempt, wp_setCustomDNS, wp_pure,
    wp_setLastConnectedUsingSplit, callSetters_eq_ok, wp_saveSelectedLocation, wp_saveProfile]
  constructor
  · intro hall config hparsed haccepted hlocation
    obtain ⟨details, servers, hdetails, hservers, hdns⟩ := haccepted.dns
    obtain ⟨peers, hpeers⟩ := haccepted.peers
    have hset : ∀ setting ∈ [WgSetting.dnsServers servers], w.accepts setting :=
      List.forall_mem_singleton.mpr hdns
    have hbuilt := ((((hall blank).1 config hparsed).1 () haccepted.copied).1 details hdetails).1
      servers hservers
    have hsaved := ((hbuilt.1 () hset).1 peers hpeers).1 hlocation
    have hprofile : w.writes .profile := by
      by_contra hrefused
      cases (hsaved.2 hrefused).location
    refine ⟨hprofile, ?_⟩
    rw [← succeeds_wireguardInformation w hparsed]
    cases hinformation :
        getProtocolInformationFromWireguardConfig w (configFile.content.getD "") with
    | ok information => exact ⟨information, rfl⟩
    | error e => cases ((hsaved.1 hprofile).2 e hinformation).location
  · intro hsound d
    refine ⟨fun config hparsed ↦ ⟨fun _ hcopied ↦ ⟨fun details hdetails ↦ ⟨fun servers hservers ↦
      ⟨fun _ hdns ↦ ⟨fun peers hpeers ↦ ⟨fun hlocation ↦ ?_, ?_⟩, ?_⟩, ?_⟩, ?_⟩, ?_⟩, ?_⟩, ?_⟩
    · obtain ⟨hprofile, hendpoint⟩ := hsound config hparsed
        ⟨hcopied, ⟨details, servers, hdetails, hservers, hdns _ List.mem_cons_self⟩,
          ⟨peers, hpeers⟩⟩ hlocation
      obtain ⟨information, hinformation⟩ := (succeeds_wireguardInformation w hparsed).mpr hendpoint
      simp [hprofile, hinformation, hparsed, endpoints_of_modifiedPeers w hpeers, Carries, htype,
        locationOf, needsServerConfig]
    · exact fun _ ↦ ⟨rfl, rfl, rfl⟩
    all_goals exact fun _ _ ↦ ⟨rfl, rfl, rfl⟩

theorem allOrNothing_customOpenVpn (htype : isWireGuard (configFile.content.getD "") = false) :
    AllOrNothing w (.custom configFile) ↔ Sound w (.custom configFile) := by
  simp only [AllOrNothing, Sound, create, createVpnProfileFromConfig, htype, Bool.false_eq_true,
    if_false, createVpnProfileFromOpenVpnConfig, wp_bind, wp_attempt, wp_setCustomDNS, wp_pure,
    wp_setLastConnectedUsingSplit, wp_saveSelectedLocation, wp_writeFile, wp_saveProfile]
  have hreadable : ProtocolReadable (configFile.content.getD "") ↔
      Succeeds (getProtocolInformationFromOpenVPNConfig (configFile.content.getD "")) :=
    (succeeds_readConfigLines _ _).symm
  constructor
  · rintro hall ⟨parsed, hparsed⟩ ⟨details, hdetails⟩ hlocation
    have hsaved := (((hall blank).1 parsed hparsed).1 details hdetails).1 hlocation
    have hopened : w.writes .openVpnConfig := by
      by_contra hrefused
      cases (hsaved.2 hrefused).location
    have hprofile : w.writes .profile := by
      by_contra hrefused
      cases ((hsaved.1 hopened).2 hrefused).location
    refine ⟨hopened, hprofile, ?_⟩
    rw [hreadable]
    cases hinformation : getProtocolInformationFromOpenVPNConfig (configFile.content.getD "") with
    | ok information => exact ⟨information, rfl⟩
    | error e => cases (((hsaved.1 hopened).1 hprofile).2 e hinformation).location
  · intro hsound d
    refine ⟨fun parsed hparsed ↦ ⟨fun details hdetails ↦ ⟨fun hlocation ↦ ?_, ?_⟩, ?_⟩, ?_⟩
    · obtain ⟨hopened, hprofile, hread⟩ := hsound ⟨_, hparsed⟩ ⟨_, hdetails⟩ hlocation
      obtain ⟨information, hinformation⟩ := hreadable.mp hread
      simp [hopened, hprofile, hinformation, hparsed, Carries, htype, locationOf,
        needsServerConfig]
    · exact fun _ ↦ ⟨rfl, rfl, rfl⟩
    all_goals exact fun _ _ ↦ ⟨rfl, rfl, rfl⟩

end Custom

/-! ### The whole creator -/

/-- Profile creation is all or nothing on exactly the sound inputs. -/
theorem allOrNothing_iff (w : Device) (request : Request) :
    AllOrNothing w request ↔ Sound w request := by
  cases request with
  | server location vpnParameters config =>
    by_cases hikev2 : config.protocol = .ikev2
    · exact allOrNothing_ikev2 w hikev2
    · by_cases hwireGuard : config.protocol = .wireGuard
      · exact allOrNothing_wireGuard w hwireGuard
      · exact allOrNothing_openVpn w hikev2 hwireGuard
  | custom configFile =>
    cases htype : isWireGuard (configFile.content.getD "") with
    | true => exact allOrNothing_customWireGuard w htype
    | false => exact allOrNothing_customOpenVpn w htype

/-- A device that is logged in to a static IP and has lost the server config. -/
def withoutServerConfig : Device where
  preferences :=
    { isKeepAliveModeAuto := true, keepAlive := "20", isPackageSizeModeAuto := true
      packetSize := -1, lanByPass := false, splitTunnelToggle := false
      splitRoutingMode := .exclusive, installedApps := [], dnsModeCustom := false
      dnsAddress := none, isConnectingToStaticIp := true
      staticIpCredentials := some ⟨some "user", some "password"⟩, ikev2Credentials := none
      openVpnCredentials := none, openVpnServerConfig := none
      isProtocolTweaksEnabled := false, isDecoyTrafficOn := false, ipv4Only := true }
  base64 := ⟨id, some, fun _ ↦ rfl⟩
  lookup := fun _ ↦ .unknownHost
  bootstrapIp := fun _ ↦ none
  portFree := fun _ ↦ true
  writes := fun _ ↦ true
  getWgParams := fun _ _ _ _ ↦ .error (0, "")
  accepts := fun _ ↦ true
  selectedUnblockWgParam := none
  parseOpenVpn := fun _ ↦ none
  parseWireGuard := fun _ ↦ none
  sanitize := fun config ↦ config.splitOn "\n"

/-- A request for a server over TCP. -/
def tcpRequest : Request :=
  .server { cityId := 1, nodeName := "node", nickName := "nick" }
    { ikev2Ip := "10.0.0.1", udpIp := "10.0.0.2", tcpIp := "10.0.0.3", stealthIp := "10.0.0.4"
      hostName := "host", publicKey := "", ovpnX509 := "host", supportsV6 := false, nodeId := 1 }
    { protocol := .tcp, port := "443" }

/-- Without a server config the OpenVPN builder saves a profile and returns. -/
theorem not_allOrNothing_missingConfig :
    ¬ ∀ (w : Device) (request : Request), AllOrNothing w request := by
  intro hall
  have hreturned := hall withoutServerConfig tcpRequest blank
  have hlost : ServerConfigLost withoutServerConfig := by
    intro text htext
    simp [withoutServerConfig] at htext
  simp only [wp, create, tcpRequest] at hreturned
  exact hreturned.2 rfl hlost

end WindscribeVpn.Backend.ProfileCreation
