import WindscribeVpn.Foundations.Programs
import WindscribeVpn.Backend.VpnBackendHolder
import WindscribeVpn.Backend.LanBypass

/-!
# `VPNProfileCreator`

The builders that turn a server or a custom config into the profile an engine starts from. Each one
reads preferences, writes some of them, and ends by saving the selected location and the profile,
each to a file of its own. A builder is a program on `Storage`, which holds what the builders write.
What was written before a throw stays written.

`Device` is everything a build reads: the preferences, the network that resolves a custom DNS
address, whether the files can be written, and the libraries that parse. `ConfigParser`, `Config`
and the setters of its builders are given by what they accept. A file is written whole or not at
all. The networks of allowed addresses and DNS servers are kept as networks, as in `LanBypass`.
-/

set_option autoImplicit false
set_option relaxedAutoImplicit false

namespace WindscribeVpn.Backend.VPNProfileCreator

open Foundations.Programs
open VpnBackendHolder (Protocol)
open LanBypass (InetNetwork Peer)

/-! ### Requests -/

/-- `LastSelectedLocation`. The defaults are those of a custom config. -/
structure LastSelectedLocation where
  cityId : ℤ
  nodeName : String := "Custom Config"
  nickName : String
  countryCode : Option String := some "NA"
  lat : Option String := some "52.23"
  lang : Option String := some "32.22"
  deriving DecidableEq, Repr

/-- `VPNParameters`, the server to connect to. -/
structure VPNParameters where
  ikev2Ip : String
  udpIp : String
  tcpIp : String
  stealthIp : String
  hostName : String
  publicKey : String
  ovpnX509 : String
  supportsV6 : Bool
  nodeId : ℤ
  deriving DecidableEq, Repr

/-- `ProtocolInformation`. -/
structure ProtocolInformation where
  protocol : Protocol
  port : String
  deriving DecidableEq, Repr

/-- `ConfigFile`, a custom config. -/
structure ConfigFile where
  primaryKey : ℤ
  name : Option String
  content : Option String
  username : Option String
  password : Option String
  deriving DecidableEq, Repr

/-! ### What a build reads -/

/-- `ServerCredentialsResponse`. -/
structure ServerCredentialsResponse where
  userNameEncoded : Option String
  passwordEncoded : Option String
  deriving DecidableEq, Repr

/-- The values of `splitRoutingMode`. -/
inductive SplitRoutingMode
  | exclusive
  | inclusive
  | other
  deriving DecidableEq, Repr

/-- The preferences that the builders read. -/
structure Preferences where
  isKeepAliveModeAuto : Bool
  keepAlive : String
  isPackageSizeModeAuto : Bool
  packetSize : ℤ
  lanByPass : Bool
  splitTunnelToggle : Bool
  splitRoutingMode : SplitRoutingMode
  installedApps : List String
  /-- `dnsMode == DNS_MODE_CUSTOM`. -/
  dnsModeCustom : Bool
  dnsAddress : Option String
  isConnectingToStaticIp : Bool
  staticIpCredentials : Option ServerCredentialsResponse
  ikev2Credentials : Option ServerCredentialsResponse
  openVpnCredentials : Option ServerCredentialsResponse
  openVpnServerConfig : Option String
  isProtocolTweaksEnabled : Bool
  isDecoyTrafficOn : Bool
  /-- `ipv6Mode == IPV6_MODE_IPV4_ONLY`. -/
  ipv4Only : Bool
  deriving DecidableEq, Repr

/-- Base64, which reads back what it wrote. -/
structure Base64 where
  encode : String → String
  decode : String → Option String
  decode_encode : ∀ text, decode (encode text) = some text

/-- What becomes of the host of a DNS endpoint. -/
inductive Lookup
  | malformedURL
  | unknownHost
  /-- `InetAddress.getAllByName`, by its first IPv4 address. -/
  | resolved (ipv4 : Option String)
  deriving DecidableEq, Repr

/-- `DnsType`. -/
inductive DnsType
  | tunnel
  | plain
  | proxy
  deriving DecidableEq, Repr

/-- `DNSDetails`. -/
structure DNSDetails where
  address : Option String := none
  ip : Option String := none
  type : DnsType
  deriving DecidableEq, Repr

/-- The obfuscation parameters of an AmneziaWG interface. -/
inductive AmneziaParam
  | jc | jMin | jMax
  | s1 | s2 | s3 | s4
  | h1 | h2 | h3 | h4
  | i1 | i2 | i3 | i4 | i5
  deriving DecidableEq, Repr

/-- The DNS servers of a WireGuard interface. -/
inductive DnsServers
  /-- The plain address of a custom DNS. -/
  | custom (ip : String)
  | advertised (servers : List InetNetwork)
  deriving DecidableEq, Repr

/-- What a setter of the WireGuard builders is called with, where it may refuse. -/
inductive WgSetting
  | privateKey (key : String)
  | addresses (text : String)
  | dnsServers (servers : DnsServers)
  | mtu (value : ℤ)
  | amnezia (param : AmneziaParam) (value : String)
  | listenPort (port : ℕ)
  | publicKey (key : String)
  | allowedIPs (networks : List InetNetwork)
  | endpoint (text : String)
  | preSharedKey (key : String)
  deriving DecidableEq, Repr

/-- `Interface`. -/
structure Interface where
  privateKey : String
  addresses : String
  dnsServers : DnsServers
  mtu : Option ℤ
  includedApplications : List String
  excludedApplications : List String
  amnezia : List (AmneziaParam × String)
  listenPort : Option ℕ
  deriving DecidableEq, Repr

/-- `Config` of WireGuard. -/
structure Config where
  interface : Interface
  peers : List Peer
  deriving DecidableEq, Repr

/-- `WgRemoteParams`. -/
structure WgRemoteParams where
  allowedIPs : List InetNetwork
  preSharedKey : String
  privateKey : String
  serverPublicKey : String
  address : String
  dns : List InetNetwork
  deriving DecidableEq, Repr

/-- `UnBlockWgParam`, the obfuscation preset that is selected. A number is left alone when it is
zero and a text when it is empty. -/
structure UnBlockWgParam where
  number : AmneziaParam → ℤ
  text : AmneziaParam → String

/-- `Connection` of an OpenVPN profile. -/
structure Connection where
  mServerName : String
  mServerPort : String
  mUseUdp : Bool
  deriving DecidableEq, Repr

/-- The profile of OpenVPN, `de.blinkt.openvpn.VpnProfile`, by what the builders set. -/
structure OpenVpnProfile where
  mServerName : String := "openvpn.example.com"
  mServerPort : String := "1194"
  mConnections : List Connection := []
  mUsername : Option String := none
  mPassword : Option String := none
  mAllowLocalLAN : Bool := false
  mAllowedAppsVpnAreDisallowed : Bool := true
  mAllowedAppsVpn : List String := []
  mOverrideDNS : Bool := false
  mDNS1 : Option String := none
  dnsDetails : Option DNSDetails := none
  mTunMtu : Option ℤ := none
  deriving DecidableEq, Repr

/-- `selectedAppsHandling` of an IKEv2 profile. -/
inductive SelectedAppsHandling
  | disable
  | exclude
  | only
  deriving DecidableEq, Repr

/-- The profile of IKEv2, `org.strongswan.android.data.VpnProfile`. Its port is never set, so the
engine dials the one of IKE. -/
structure IkeProfile where
  name : String
  gateway : String
  remoteId : String
  natKeepAlive : ℤ
  mtu : ℤ
  dnsServers : Option String
  dnsDetails : Option DNSDetails
  selectedAppsHandling : SelectedAppsHandling
  includedSubnets : List InetNetwork
  selectedApps : List String
  username : String
  password : String
  deriving DecidableEq, Repr

/-- What `saveProfile` is handed. -/
inductive Profile
  | ikev2 (profile : IkeProfile)
  | openVpn (profile : OpenVpnProfile)
  | wireGuard (config : Config)
  deriving DecidableEq, Repr

/-- The files a build writes. -/
inductive StoredFile
  | location
  | profile
  | openVpnConfig
  deriving DecidableEq, Repr

/-- What a build may throw. -/
inductive Failure
  /-- `InvalidVPNConfigException`, by the error it carries. -/
  | invalidVPNConfig (code : ℕ) (message : String)
  | numberFormat (text : String)
  | badBase64
  | nullPointer
  | badConfig (setting : Option WgSetting)
  | unparseable
  | io (file : StoredFile)
  | indexOutOfBounds
  | noSuchElement
  deriving DecidableEq, Repr

/-- Everything a build reads that it does not write. -/
structure Device where
  preferences : Preferences
  base64 : Base64
  /-- The lookup of an endpoint. -/
  lookup : String → Lookup
  /-- `CommonPreferences.getBootstrapIp`. -/
  bootstrapIp : String → Option String
  /-- A port that a server socket can be opened on. -/
  portFree : ℕ → Bool
  /-- A file that can be written. -/
  writes : StoredFile → Bool
  /-- `wgConfigRepository.getWgParams`, by the host, the key, a forced init and IPv6; the error is
  the code and the message of a `CallResult.Error`. -/
  getWgParams : String → String → Bool → Bool → Except (ℕ × String) WgRemoteParams
  /-- A setter of the WireGuard builders that does not refuse its value. -/
  accepts : WgSetting → Bool
  /-- `unblockWgParamsRepository.getSelectedUnblockWgParam`. -/
  selectedUnblockWgParam : Option UnBlockWgParam
  /-- `ConfigParser.parseConfig` and `convertProfile`. -/
  parseOpenVpn : String → Option OpenVpnProfile
  /-- `Config.parse`. -/
  parseWireGuard : String → Option Config
  /-- `ServerConfigSanitizer.sanitize`, by the lines it keeps. -/
  sanitize : String → List String

/-! ### What a build writes -/

/-- A line of the OpenVPN config file: a text, or what `getConfigFile` writes of the request. -/
inductive ConfigLine
  | text (line : String)
  | verifyX509Name (name : String)
  | remote (serverIp port protocol : String)
  | netGatewayRoute (ip : String)
  deriving DecidableEq, Repr

/-- The config file of the OpenVPN engine. -/
inductive ConfigFileContent
  | lines (lines : List ConfigLine)
  /-- `getConfigFile` of a profile that was parsed from a custom config. -/
  | ofProfile (profile : OpenVpnProfile)
  deriving DecidableEq, Repr

/-- What `startProxyTunnel` is called with. -/
structure ProxyTunnel where
  ip : String
  port : String
  localPort : ℕ
  isWSTunnel : Bool
  deriving DecidableEq, Repr

/-- The files, preferences and managers that the builders write. -/
structure Storage where
  location : Option LastSelectedLocation
  profile : Option Profile
  /-- The copy of the profile that the process keeps. -/
  cachedProfile : Option Profile
  openVpnConfig : ConfigFileContent
  /-- The proxy that runs. -/
  proxyTunnel : Option ProxyTunnel
  /-- `proxyDNSManager.dnsDetails`. -/
  dnsDetails : Option DNSDetails
  selectedProtocol : Protocol
  selectedPort : String
  selectedIp : Option String
  selectedNodeId : ℤ
  lastConnectedUsingSplit : Bool
  wgForceInit : Bool
  deriving DecidableEq, Repr

/-- A build, which may throw. -/
abbrev Creating := EStateM Failure Storage

/-- What a builder returns for the log. -/
inductive Summary
  | location (location : LastSelectedLocation)
  | openVpn (serverName serverPort : String)
  | wireGuard (config : Config)
  deriving DecidableEq, Repr

variable (w : Device)

/-- Writes a file, or throws and leaves it. -/
def writeFile (file : StoredFile) (write : Storage → Storage) : Creating Unit :=
  if w.writes file then modify write else throw (.io file)

/-- `saveSelectedLocation`. -/
def saveSelectedLocation (selectedLocation : LastSelectedLocation) : Creating Unit :=
  writeFile w .location fun d ↦ { d with location := some selectedLocation }

/-- `saveProfile`. -/
def saveProfile (profile : Profile) : Creating Unit :=
  writeFile w .profile fun d ↦
    { d with profile := some profile, cachedProfile := some profile }

/-! ### Steps that several builders share -/

/-- Whether a line contains a word. -/
def contains (line word : String) : Bool := (line.splitOn word).length > 1

/-- `Integer.valueOf`: a sign or none, then digits, within 32 bits. -/
def integerValueOf (text : String) : Except Failure ℤ :=
  let digits := text.toList.drop (if text.startsWith "-" || text.startsWith "+" then 1 else 0)
  let magnitude : ℤ := digits.foldl (fun n c ↦ n * 10 + (c.toNat - '0'.toNat : ℕ)) 0
  let value := if text.startsWith "-" then -magnitude else magnitude
  if digits ≠ [] ∧ digits.all Char.isDigit ∧ -2147483648 ≤ value ∧ value ≤ 2147483647 then .ok value
  else .error (.numberFormat text)

/-- The pattern of an IPv4 address: four groups of one to three digits. -/
def ipPattern (address : String) : Bool :=
  let groups := address.splitOn "."
  groups.length = 4 &&
    groups.all fun group ↦ (1 ≤ group.length && group.length ≤ 3) && group.all Char.isDigit

/-- `getDNSDetails`; the error is the message of the failure. -/
def getDNSDetails (customDNSEnabled : Bool) (address : Option String) :
    Except String DNSDetails :=
  match address with
  | none => .ok { type := .tunnel }
  | some address =>
    if !customDNSEnabled then .ok { type := .tunnel }
    else if ipPattern address then
      .ok { address := some address, ip := some address, type := .plain }
    else if address.startsWith "sdns://" then .ok { address := some address, type := .proxy }
    else
      let endpoint :=
        if address.startsWith "https://" then address
        else ("https://" ++ address).replace "h3://" ""
      match w.lookup endpoint, w.bootstrapIp address with
      | .malformedURL, _ => .error "Malformed DNS URL/IP"
      | .resolved (some ip), _ => .ok { address := some address, ip := some ip, type := .proxy }
      | _, some ip => .ok { address := some address, ip := some ip, type := .proxy }
      | .resolved none, none => .error ("Unable to resolve " ++ address ++ ")")
      | .unknownHost, none => .error "Unable to resolve DNS Address"

/-- `ERROR_VALID_CONFIG_NOT_FOUND`. -/
def errorValidConfigNotFound : ℕ := 30003

/-- `ERROR_INVALID_DNS_ADDRESS`. -/
def errorInvalidDnsAddress : ℕ := 30004

/-- The DNS that the preferences ask for, or the exception of `setCustomDNS`. -/
def customDNS : Except Failure DNSDetails :=
  match getDNSDetails w w.preferences.dnsModeCustom w.preferences.dnsAddress with
  | .ok details => .ok details
  | .error message => .error (.invalidVPNConfig errorInvalidDnsAddress message)

/-- `setCustomDNS`. -/
def setCustomDNS : Creating DNSDetails := do
  let details ← attempt (customDNS w)
  modify fun d ↦ { d with dnsDetails := some details }
  pure details

/-- `getServerCredentials`. -/
def getServerCredentials (ikEV2 : Bool) : Except Failure ServerCredentialsResponse :=
  let credentials :=
    if w.preferences.isConnectingToStaticIp then w.preferences.staticIpCredentials
    else if ikEV2 then w.preferences.ikev2Credentials
    else w.preferences.openVpnCredentials
  match credentials with
  | some credentials => .ok credentials
  | none => .error (.invalidVPNConfig errorValidConfigNotFound "valid server credential not found.")

/-- `Base64.decode`, which throws on `null` and on a text that is no Base64. -/
def decode : Option String → Except Failure String
  | none => .error .nullPointer
  | some text =>
    match w.base64.decode text with
    | some decoded => .ok decoded
    | none => .error .badBase64

/-- The user name and the password of a server: those of a static IP are not encoded. -/
def credentialsOf (ikEV2 : Bool) : Except Failure (String × String) := do
  let credentials ← getServerCredentials w ikEV2
  if w.preferences.isConnectingToStaticIp then
    pure (credentials.userNameEncoded.getD "", credentials.passwordEncoded.getD "")
  else
    let username ← decode w credentials.userNameEncoded
    let password ← decode w credentials.passwordEncoded
    pure (username, password)

/-- `getIkev2Credentials`. -/
def getIkev2Credentials : Except Failure (String × String) := credentialsOf w true

/-- `addOpenVpnCredentials`. -/
def addOpenVpnCredentials : Except Failure (String × String) := credentialsOf w false

/-- The split modes that `lastConnectedUsingSplit` is set for by OpenVPN and IKEv2. -/
def usingSplit : Bool :=
  w.preferences.splitTunnelToggle && w.preferences.splitRoutingMode ≠ .other

/-- Records whether the connection uses the split tunnel. -/
def setLastConnectedUsingSplit (value : Bool) : Creating Unit :=
  modify fun d ↦ { d with lastConnectedUsingSplit := value }

/-- Records the server that is selected. -/
def setSelectedServer (vpnParameters : VPNParameters) : Creating Unit :=
  modify fun d ↦
    { d with selectedIp := some vpnParameters.hostName, selectedNodeId := vpnParameters.nodeId }

/-- A packet size that the user has set. -/
def ownPacketSize : Option ℤ :=
  if !w.preferences.isPackageSizeModeAuto ∧ w.preferences.packetSize ≠ -1 then
    some w.preferences.packetSize
  else none

/-- `modifyAllowedIps`. -/
def modifyAllowedIps (allowedIps dnsRoutes : List InetNetwork) : List InetNetwork :=
  dnsRoutes.foldl LanBypass.addNew
    (allowedIps.foldl (LanBypass.modifyStep LanBypass.publicIpV4Array) ([], false)).1

/-! ### IKEv2 -/

/-- The keep-alive interval of an IKEv2 profile. -/
def natKeepAlive : Except Failure ℤ :=
  if w.preferences.isKeepAliveModeAuto then .ok 20 else integerValueOf w.preferences.keepAlive

/-- `selectedAppsHandling` as `setSplitMode` sets it. -/
def selectedAppsHandling : SelectedAppsHandling :=
  if !w.preferences.splitTunnelToggle then .disable
  else
    match w.preferences.splitRoutingMode with
    | .exclusive => .exclude
    | .inclusive => .only
    | .other => .disable

/-- `createIkEV2Profile`. -/
def createIkEV2Profile (location : LastSelectedLocation) (vpnParameters : VPNParameters)
    (config : ProtocolInformation) : Creating Summary := do
  let natKeepAlive ← attempt (natKeepAlive w)
  modify fun d ↦ { d with selectedProtocol := config.protocol, selectedPort := config.port }
  setSelectedServer vpnParameters
  let dnsDetails ← setCustomDNS w
  setLastConnectedUsingSplit (usingSplit w)
  let credentials ← attempt (getIkev2Credentials w)
  saveSelectedLocation w location
  saveProfile w (.ikev2
    { name := vpnParameters.hostName
      gateway := vpnParameters.ikev2Ip
      remoteId := vpnParameters.hostName
      natKeepAlive := natKeepAlive
      mtu := (ownPacketSize w).getD 1300
      dnsServers := if dnsDetails.type = .plain then dnsDetails.ip else none
      dnsDetails := if dnsDetails.type = .plain then none else some dnsDetails
      selectedAppsHandling := selectedAppsHandling w
      includedSubnets :=
        if w.preferences.lanByPass then modifyAllowedIps [LanBypass.ipv4Wildcard] [] else []
      selectedApps := w.preferences.installedApps
      username := credentials.1
      password := credentials.2 })
  pure (.location location)

/-! ### OpenVPN -/

/-- `PROXY_TUNNEL_ADDRESS`. -/
def proxyTunnelAddress : String := "127.0.0.1"

/-- `PROXY_TUNNEL_PROTOCOL`. -/
def proxyTunnelProtocol : String := "tcp"

/-- `PROXY_TUNNEL_PORT`. -/
def proxyTunnelPort : ℕ := 65480

/-- `findAvailablePort`. -/
def findAvailablePort : ℕ :=
  ((List.range' 1100 (65535 - 1100)).find? w.portFree).getD proxyTunnelPort

/-- What the branches for the protocols hand to `writeConfigFile`. -/
structure Remote where
  ip : String
  protocol : String
  port : String
  proxyIp : Option String
  deriving DecidableEq, Repr

/-- The server that the config file names: the requested one, or the local end of the proxy that
leads to it. -/
def remoteOf (vpnParameters : VPNParameters) (config : ProtocolInformation) : Option Remote :=
  match config.protocol with
  | .stealth =>
    some
      { ip := proxyTunnelAddress, protocol := proxyTunnelProtocol
        port := toString (findAvailablePort w), proxyIp := some vpnParameters.stealthIp }
  | .wsTunnel =>
    some
      { ip := proxyTunnelAddress, protocol := proxyTunnelProtocol
        port := toString (findAvailablePort w), proxyIp := some vpnParameters.ikev2Ip }
  | .tcp =>
    some { ip := vpnParameters.tcpIp, protocol := "tcp", port := config.port, proxyIp := none }
  | .udp =>
    some { ip := vpnParameters.udpIp, protocol := "udp", port := config.port, proxyIp := none }
  | .ikev2 | .wireGuard | .other => none

/-- The options against censorship are appended to the config for TCP and UDP. -/
def tweaks (protocol : Protocol) : Bool :=
  w.preferences.isProtocolTweaksEnabled && (protocol = .tcp || protocol = .udp)

/-- A server config with the options against censorship. -/
def withTweaks (decoded : String) : String := decoded ++ "\nudp-stuffing" ++ "\ntcp-split-reset"

/-- The server config that is handed to `writeConfigFile`. -/
def serverConfigFor (protocol : Protocol) (serverConfig : String) : Except Failure String :=
  if tweaks w protocol then
    (decode w (some serverConfig)).map fun decoded ↦ w.base64.encode (withTweaks decoded)
  else .ok serverConfig

/-- What `getConfigFile` makes of one line of the server config. -/
def configLines (remote : Remote) (line : String) : List ConfigLine :=
  if contains line "dev tun" then
    [.text line, .remote remote.ip remote.port remote.protocol] ++
      remote.proxyIp.toList.map .netGatewayRoute
  else if contains line "persist-tun" || contains line "nobind" || contains line "remote-cert-tls"
  then []
  else if contains line "key-direction" then
    [.text line, .text "route-ipv6 ::/0", .text "route 0.0.0.0 0.0.0.0 vpn_gateway",
      .text "nobind", .text "remote-cert-tls server", .text "persist-tun", .text "preresolve",
      .text "management-query-proxy"]
  else [.text line]

/-- `getConfigFile`, less the lines about the management socket and the device that it starts
with. -/
def getConfigFile (remote : Remote) (x509Name : String) (serverConfig : String) :
    ConfigFileContent :=
  .lines (.verifyX509Name x509Name :: (w.sanitize serverConfig).flatMap (configLines remote))

/-- `writeConfigFile`: the file is opened, and with that emptied, before the config is decoded. -/
def writeConfigFile (serverConfig : String) (remote : Remote) (x509Name : String) :
    Creating Unit := do
  writeFile w .openVpnConfig fun d ↦ { d with openVpnConfig := .lines [] }
  let serverConfigDecoded ← attempt (decode w (some serverConfig))
  modify fun d ↦ { d with openVpnConfig := getConfigFile w remote x509Name serverConfigDecoded }

/-- The body of the `try` in `createOpenVpnProfile`. -/
def writeServerConfig (vpnParameters : VPNParameters) (config : ProtocolInformation) :
    Creating Unit :=
  match remoteOf w vpnParameters config, w.preferences.openVpnServerConfig with
  | some remote, some serverConfig => do
    let serverConfig ← attempt (serverConfigFor w config.protocol serverConfig)
    writeConfigFile w serverConfig remote vpnParameters.ovpnX509
  | _, _ =>
    throw (.invalidVPNConfig errorValidConfigNotFound "OpenVPN Server config not found.")

/-- `stopProxyTunnel` if one runs, then `startProxyTunnel`. -/
def restartProxyTunnel (tunnel : ProxyTunnel) : Creating Unit := do
  modify fun d ↦ { d with proxyTunnel := none }
  modify fun d ↦ { d with selectedPort := tunnel.port }
  modify fun d ↦ { d with proxyTunnel := some tunnel }

/-- The proxy that stealth and WSTunnel connect through. -/
def startProxyFor (vpnParameters : VPNParameters) (config : ProtocolInformation) :
    Creating Unit :=
  match config.protocol with
  | .stealth =>
    restartProxyTunnel
      { ip := vpnParameters.stealthIp, port := config.port
        localPort := findAvailablePort w, isWSTunnel := false }
  | .wsTunnel =>
    restartProxyTunnel
      { ip := vpnParameters.ikev2Ip, port := config.port
        localPort := findAvailablePort w, isWSTunnel := true }
  | .udp | .tcp | .ikev2 | .wireGuard | .other => pure ()

/-- The settings of the application in an OpenVPN profile. -/
def withSettings (profile : OpenVpnProfile) (dnsDetails : DNSDetails) : OpenVpnProfile :=
  { profile with
    mAllowLocalLAN := w.preferences.lanByPass
    mAllowedAppsVpnAreDisallowed :=
      !(w.preferences.splitTunnelToggle && w.preferences.splitRoutingMode = .inclusive)
    mAllowedAppsVpn := if usingSplit w then profile.mAllowedAppsVpn else []
    mOverrideDNS := if dnsDetails.type = .plain then true else profile.mOverrideDNS
    mDNS1 := if dnsDetails.type = .plain then dnsDetails.ip else profile.mDNS1
    dnsDetails := if dnsDetails.type = .plain then profile.dnsDetails else some dnsDetails
    mTunMtu := (ownPacketSize w).or profile.mTunMtu }

/-- The applications of the split tunnel, which a profile gets last. -/
def withApps (profile : OpenVpnProfile) : OpenVpnProfile :=
  if w.preferences.splitTunnelToggle then
    { profile with mAllowedAppsVpn := w.preferences.installedApps }
  else profile

/-- `createOpenVpnProfile`. The `catch` only logs. -/
def createOpenVpnProfile (lastSelectedLocation : LastSelectedLocation)
    (vpnParameters : VPNParameters) (protocolInformation : ProtocolInformation) :
    Creating Summary := do
  setLastConnectedUsingSplit (usingSplit w)
  let dnsDetails ← setCustomDNS w
  tryCatch (writeServerConfig w vpnParameters protocolInformation) fun _ ↦ pure ()
  let credentials ← attempt (addOpenVpnCredentials w)
  startProxyFor w vpnParameters protocolInformation
  setSelectedServer vpnParameters
  saveSelectedLocation w lastSelectedLocation
  saveProfile w (.openVpn (withApps w
    { withSettings w {} dnsDetails with
      mUsername := some credentials.1, mPassword := some credentials.2 }))
  pure (.location lastSelectedLocation)

/-! ### WireGuard -/

/-- Calls setters one after the other. -/
def callSetters (settings : List WgSetting) : Except Failure Unit :=
  match settings.find? fun setting ↦ !w.accepts setting with
  | some setting => .error (.badConfig (some setting))
  | none => .ok ()

/-- The DNS servers of an interface: the plain custom one, or its own. -/
def dnsServersFor (dnsDetails : DNSDetails) (own : DnsServers) : Except Failure DnsServers :=
  if dnsDetails.type = .plain then
    match dnsDetails.ip with
    | some ip => .ok (.custom ip)
    | none => .error .nullPointer
  else .ok own

/-- The applications that the split tunnel includes, and those it excludes. -/
def splitApplications : List String × List String :=
  if !w.preferences.splitTunnelToggle then ([], [])
  else if w.preferences.splitRoutingMode = .inclusive then (w.preferences.installedApps, [])
  else ([], w.preferences.installedApps)

/-- The parameters that `applyUnblockWgParams` sets. -/
def applyUnblockWgParams : List (AmneziaParam × String) :=
  match w.selectedUnblockWgParam with
  | none => []
  | some preset =>
    ([.jc, .jMin, .jMax, .s1, .s2, .s3, .s4].filter fun param ↦ preset.number param ≠ 0).map
        (fun param ↦ (param, toString (preset.number param))) ++
      ([.h1, .h2, .h3, .h4, .i1, .i2, .i3, .i4, .i5].filter
        fun param ↦ preset.text param ≠ "").map fun param ↦ (param, preset.text param)

/-- The packet size of an interface: IPv6 hates small ones, so decoy traffic sets one only when it
is off. -/
def interfaceMtus : List ℤ :=
  (ownPacketSize w).toList ++
    if w.preferences.isDecoyTrafficOn ∧ w.preferences.ipv4Only then [100] else []

/-- The obfuscation of an interface. -/
def interfaceAmnezia : List (AmneziaParam × String) :=
  if w.preferences.isProtocolTweaksEnabled then applyUnblockWgParams w else []

/-- `createWireGuardInterface`. -/
def createWireGuardInterface (wgRemoteParams : WgRemoteParams) : Creating Interface := do
  attempt (callSetters w [.privateKey wgRemoteParams.privateKey, .addresses wgRemoteParams.address])
  let dnsDetails ← setCustomDNS w
  let dnsServers ← attempt (dnsServersFor dnsDetails (.advertised wgRemoteParams.dns))
  attempt (callSetters w (.dnsServers dnsServers :: (interfaceMtus w).map .mtu))
  setLastConnectedUsingSplit w.preferences.splitTunnelToggle
  attempt (callSetters w ((interfaceAmnezia w).map fun entry ↦ .amnezia entry.1 entry.2))
  pure
    { privateKey := wgRemoteParams.privateKey
      addresses := wgRemoteParams.address
      dnsServers := dnsServers
      mtu := (interfaceMtus w).getLast?
      includedApplications := (splitApplications w).1
      excludedApplications := (splitApplications w).2
      amnezia := interfaceAmnezia w
      listenPort := none }

/-- The networks that a peer of a server is allowed. -/
def allowedIPsFor (wgRemoteParams : WgRemoteParams) : List InetNetwork :=
  if w.preferences.lanByPass then modifyAllowedIps wgRemoteParams.allowedIPs wgRemoteParams.dns
  else wgRemoteParams.allowedIPs

/-- The setters that `createWireGuardPeer` calls. -/
def peerSettings (wgRemoteParams : WgRemoteParams) (endpoint port : String) : List WgSetting :=
  [.publicKey wgRemoteParams.serverPublicKey, .allowedIPs (allowedIPsFor w wgRemoteParams),
    .endpoint (endpoint ++ ":" ++ port), .preSharedKey wgRemoteParams.preSharedKey]

/-- `createWireGuardPeer`. -/
def createWireGuardPeer (wgRemoteParams : WgRemoteParams) (endpoint port : String) :
    Except Failure Peer := do
  callSetters w (peerSettings w wgRemoteParams endpoint port)
  pure
    { publicKey := wgRemoteParams.serverPublicKey
      allowedIps := allowedIPsFor w wgRemoteParams
      endpoint := some (endpoint ++ ":" ++ port)
      persistentKeepalive := some 25
      preSharedKey := some wgRemoteParams.preSharedKey }

/-- `getWgParams` for a server, with an error as the exception it is thrown as. -/
def wgParamsFor (vpnParameters : VPNParameters) (forceInit : Bool) :
    Except Failure WgRemoteParams :=
  match w.getWgParams vpnParameters.hostName vpnParameters.publicKey forceInit
    vpnParameters.supportsV6 with
  | .ok wgRemoteParams => .ok wgRemoteParams
  | .error (code, message) => .error (.invalidVPNConfig code message)

/-- `createVpnProfileFromWireGuardProfile`. -/
def createVpnProfileFromWireGuardProfile (lastSelectedLocation : LastSelectedLocation)
    (vpnParameters : VPNParameters) (config : ProtocolInformation) : Creating Summary := do
  let forceInit := (← get).wgForceInit
  modify fun d ↦ { d with wgForceInit := false }
  let wgRemoteParams ← attempt (wgParamsFor w vpnParameters forceInit)
  let anInterface ← createWireGuardInterface w wgRemoteParams
  let peer ← attempt (createWireGuardPeer w wgRemoteParams vpnParameters.stealthIp config.port)
  setSelectedServer vpnParameters
  saveSelectedLocation w lastSelectedLocation
  saveProfile w (.wireGuard { interface := anInterface, peers := [peer] })
  pure (.location lastSelectedLocation)

/-! ### Custom configs -/

/-- The location of a custom config. -/
def customLocation (configFile : ConfigFile) : LastSelectedLocation :=
  { cityId := configFile.primaryKey, nickName := configFile.name.getD "" }

/-- `parseConfig` and `convertProfile` over a reader of the content. -/
def parsedOpenVpn (configFile : ConfigFile) : Except Failure OpenVpnProfile :=
  match configFile.content with
  | none => .error .nullPointer
  | some content =>
    match w.parseOpenVpn content with
    | some profile => .ok profile
    | none => .error .unparseable

/-- `createVpnProfileFromOpenVpnConfig`. -/
def createVpnProfileFromOpenVpnConfig (configFile : ConfigFile) : Creating Summary := do
  let parsed ← attempt (parsedOpenVpn w configFile)
  setLastConnectedUsingSplit (usingSplit w)
  let dnsDetails ← setCustomDNS w
  let profile := withSettings w
    { parsed with mUsername := configFile.username, mPassword := configFile.password } dnsDetails
  saveSelectedLocation w (customLocation configFile)
  writeFile w .openVpnConfig fun d ↦ { d with openVpnConfig := .ofProfile profile }
  saveProfile w (.openVpn (withApps w profile))
  pure (.openVpn profile.mServerName profile.mServerPort)

/-- `Config.parse` over a reader of the content. -/
def parsedWireGuard (configFile : ConfigFile) : Except Failure Config :=
  match configFile.content with
  | none => .error .nullPointer
  | some content =>
    match w.parseWireGuard content with
    | some config => .ok config
    | none => .error .unparseable

/-- The setters that the interface of a custom config is copied with. -/
def copiedSettings (config : Config) : List WgSetting :=
  .privateKey config.interface.privateKey ::
    (config.interface.amnezia.map fun entry ↦ .amnezia entry.1 entry.2) ++
    (config.interface.listenPort.toList.map .listenPort) ++
    if w.preferences.isPackageSizeModeAuto then [] else [.mtu w.preferences.packetSize]

/-- The peers of a custom config, or the exception of `createModifiedPeersForLanBypass`. -/
def modifiedPeers (config : Config) : Except Failure (List Peer) :=
  match LanBypass.createModifiedPeersForLanBypass w.preferences.lanByPass config.peers with
  | some peers => .ok peers
  | none => .error (.badConfig none)

/-- `createVpnProfileFromWireGuardConfig`. -/
def createVpnProfileFromWireGuardConfig (configFile : ConfigFile) : Creating Summary := do
  setLastConnectedUsingSplit w.preferences.splitTunnelToggle
  let config ← attempt (parsedWireGuard w configFile)
  attempt (callSetters w (copiedSettings w config))
  let dnsDetails ← setCustomDNS w
  let dnsServers ← attempt (dnsServersFor dnsDetails config.interface.dnsServers)
  attempt (callSetters w [.dnsServers dnsServers])
  let peers ← attempt (modifiedPeers w config)
  let configWithSettings : Config :=
    { interface :=
        { config.interface with
          dnsServers := dnsServers
          mtu :=
            if w.preferences.isPackageSizeModeAuto then none else some w.preferences.packetSize
          includedApplications := (splitApplications w).1
          excludedApplications := (splitApplications w).2 }
      peers := peers }
  saveSelectedLocation w (customLocation configFile)
  saveProfile w (.wireGuard configWithSettings)
  pure (.wireGuard configWithSettings)

/-- A line of a custom config that names the remote and its port. -/
def namesRemote (line : String) : Bool := contains line "remote" && (line.splitOn " ").length > 2

/-- One turn of the loop of `getProtocolInformationFromOpenVPNConfig`: what is known after it, and
whether the loop returns. A line with the word `proto` and no blank has no second part to look
at. -/
def readConfigLine (line : String) (protocolInformation : ProtocolInformation) :
    Except Failure (ProtocolInformation × Bool) :=
  let splits := line.splitOn " "
  if namesRemote line then
    .ok ({ protocolInformation with port := splits.getD 2 "" }, true)
  else if contains line "proto" then
    match splits with
    | _ :: protocol :: _ =>
      if contains protocol "tcp" then .ok ({ protocolInformation with protocol := .tcp }, false)
      else .ok (protocolInformation, false)
    | _ => .error .indexOutOfBounds
  else .ok (protocolInformation, false)

/-- The loop of `getProtocolInformationFromOpenVPNConfig`. -/
def readConfigLines : List String → ProtocolInformation → Except Failure ProtocolInformation
  | [], protocolInformation => .ok protocolInformation
  | line :: lines, protocolInformation =>
    match readConfigLine line protocolInformation with
    | .error e => .error e
    | .ok (protocolInformation, true) => .ok protocolInformation
    | .ok (protocolInformation, false) => readConfigLines lines protocolInformation

/-- `getProtocolInformationFromOpenVPNConfig`. -/
def getProtocolInformationFromOpenVPNConfig (content : String) :
    Except Failure ProtocolInformation :=
  readConfigLines (content.splitOn "\n") { protocol := .udp, port := "443" }

/-- `getProtocolInformationFromWireguardConfig`, which looks at the endpoint of the first peer. -/
def getProtocolInformationFromWireguardConfig (content : String) :
    Except Failure ProtocolInformation :=
  match w.parseWireGuard content with
  | none => .ok { protocol := .wireGuard, port := "" }
  | some config =>
    match config.peers with
    | [] => .error .indexOutOfBounds
    | peer :: _ =>
      match peer.endpoint with
      | none => .error .noSuchElement
      | some endpoint =>
        .ok { protocol := .wireGuard, port := ((endpoint.splitOn ":").getLast?).getD "" }

/-- `getConfigType(content) == WIRE_GUARD`. -/
def isWireGuard (content : String) : Bool :=
  contains content "[Peer]" && contains content "[Interface]"

/-- `createVpnProfileFromConfig`. The pair it returns is made from left to right. -/
def createVpnProfileFromConfig (configFile : ConfigFile) :
    Creating (Summary × ProtocolInformation) :=
  let content := configFile.content.getD ""
  if isWireGuard content then do
    let summary ← createVpnProfileFromWireGuardConfig w configFile
    let protocolInformation ← attempt (getProtocolInformationFromWireguardConfig w content)
    pure (summary, protocolInformation)
  else do
    let summary ← createVpnProfileFromOpenVpnConfig w configFile
    let protocolInformation ← attempt (getProtocolInformationFromOpenVPNConfig content)
    pure (summary, protocolInformation)

/-! ### The creator -/

/-- What the controller asks the creator for: a profile for a server, or for a custom config. -/
inductive Request
  | server (location : LastSelectedLocation) (vpnParameters : VPNParameters)
      (config : ProtocolInformation)
  | custom (configFile : ConfigFile)
  deriving DecidableEq, Repr

/-- The builder for a request, as `WindVpnController` chooses it. -/
def create : Request → Creating Summary
  | .server location vpnParameters config =>
    match config.protocol with
    | .ikev2 => createIkEV2Profile w location vpnParameters config
    | .wireGuard => createVpnProfileFromWireGuardProfile w location vpnParameters config
    | .udp | .tcp | .stealth | .wsTunnel | .other =>
      createOpenVpnProfile w location vpnParameters config
  | .custom configFile => do
    let profile ← createVpnProfileFromConfig w configFile
    pure profile.1

end WindscribeVpn.Backend.VPNProfileCreator
