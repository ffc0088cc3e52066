import WindscribeVpn.Backend.WgBuilders
import WindscribeVpn.Backend.WgSecrets
import WindscribeVpn.Backend.ProfileCreation

/-!
# Importing a custom WireGuard config

`createVpnProfileFromWireGuardConfig` parses the text of a custom config, builds it anew with the
settings of the user, and saves it as a text. Here the config has all its attributes, where
`VPNProfileCreator` has the ones that decide whether a profile is saved.

`Faithful` is the promise for a config: the import succeeds and what the saved text says is what the
original said, but for what the settings override. It is broken in five ways. The MTU is dropped
unless the user has set a packet size, and a packet size that was never set is refused; search
domains are dropped; the applications are dropped without split tunnelling; and with LAN bypass a
peer without allowed networks is refused. `faithful_iff` says that there are no others, and
`not_faithful_mtu` is a config whose MTU is lost.

That the text of the rebuilt config is read back as this config is assumed (`WgLibrary.Inverse`).
-/

set_option autoImplicit false
set_option relaxedAutoImplicit false

namespace WindscribeVpn.Backend.CustomWireGuard

open Foundations.Texts Foundations.LinkedSets Foundations.Programs
open WgKey WgQuick WgBuilders WgSecrets
open VPNProfileCreator (Failure Device DNSDetails LastSelectedLocation ConfigFile customDNS
  customLocation)
open AllowedIps (quadPlatform)

/-! ### The import -/

/-- What the import writes. -/
structure Storage where
  location : Option LastSelectedLocation
  /-- The text of the profile. -/
  profile : Option Text
  /-- `proxyDNSManager.dnsDetails`. -/
  dnsDetails : Option DNSDetails
  lastConnectedUsingSplit : Bool

/-- A step of the import, which may throw. -/
abbrev Importing := EStateM Failure Storage

variable (w : Device) (lib : WgLibrary)

/-- The builder with the applications of the split tunnel. -/
def splitBuilder : InterfaceAttributes :=
  let installedApps := w.preferences.installedApps.map String.toList
  if w.preferences.splitTunnelToggle then
    if w.preferences.splitRoutingMode = .inclusive then includeApplications fresh installedApps
    else excludeApplications fresh installedApps
  else fresh

/-- `Config.parse` over a reader of the content. -/
def parsedConfig (configFile : ConfigFile) : Except Failure Config :=
  match configFile.content with
  | none => .error .nullPointer
  | some content =>
    match lib.parse content.toList with
    | some config => .ok config
    | none => .error .unparseable

/-- The packet size of the user. -/
def setPacketSize (b : InterfaceAttributes) : Except Failure InterfaceAttributes :=
  if w.preferences.isPackageSizeModeAuto then .ok b else setMtu b w.preferences.packetSize

/-- The plain custom DNS, or the servers of the config. -/
def setDnsServers (dnsDetails : DNSDetails) (config : Config) (b : InterfaceAttributes) :
    Except Failure InterfaceAttributes :=
  if dnsDetails.type = .plain then
    match dnsDetails.ip with
    | some ip => parseDnsServers lib.platform b ip.toList
    | none => .error .nullPointer
  else .ok (addDnsServers b config.interface.dnsServers.elements)

/-- The endpoint of a peer, by way of its text. -/
def reparsedEndpoint (endpoint : Option InetEndpoint) : Except Failure (Option InetEndpoint) :=
  match endpoint with
  | none => .ok none
  | some endpoint =>
    match lib.parseEndpoint (endpoint.host ++ ':' :: decimal endpoint.port) with
    | some endpoint => .ok (some endpoint)
    | none => .error (.badConfig none)

/-- The seconds of a keepalive, zero when there is none. -/
def keepaliveSeconds (persistentKeepalive : Option Port) : ℕ :=
  (persistentKeepalive.map Subtype.val).getD 0

/-- A pre-shared key, by way of its text; what `parsePreSharedKey` throws is caught. -/
def reparsedKey (preSharedKey : Option Key) : Option Key :=
  preSharedKey.bind fun key ↦ Key.fromBase64 key.toBase64

/-- One peer of `createModifiedPeersForLanBypass`. The text of no networks is refused by
`parseAllowedIPs`. -/
def modifiedPeer (peer : Peer) : Except Failure Peer := do
  let publicKey ← parseKey peer.publicKey.toBase64
  let endpoint ← reparsedEndpoint lib peer.endpoint
  let persistentKeepalive ← port (keepaliveSeconds peer.persistentKeepalive)
  let allowedIps ←
    if peer.allowedIps.elements = [] then .error (.badConfig none)
    else .ok (LinkedHashSet.empty.addAll (LanBypass.modifiedAllowedIps peer.allowedIps.elements))
  let preSharedKey := reparsedKey peer.preSharedKey
  pure { allowedIps, endpoint, persistentKeepalive, preSharedKey, publicKey }

/-- `createModifiedPeersForLanBypass`. -/
def createModifiedPeersForLanBypass (originalPeers : List Peer) : Except Failure (List Peer) :=
  if w.preferences.lanByPass then originalPeers.mapM (modifiedPeer lib) else .ok originalPeers

/-- `setCustomDNS`. -/
def setCustomDNS : Importing DNSDetails := do
  let details ← attempt (customDNS w)
  modify fun d ↦ { d with dnsDetails := some details }
  pure details

/-- `saveSelectedLocation`. -/
def saveSelectedLocation (selectedLocation : LastSelectedLocation) : Importing Unit :=
  if w.writes .location then modify fun d ↦ { d with location := some selectedLocation }
  else throw (.io .location)

/-- `saveProfile` of a WireGuard profile. -/
def saveProfile (content : Text) : Importing Unit :=
  if w.writes .profile then modify fun d ↦ { d with profile := some content }
  else throw (.io .profile)

/-- `createVpnProfileFromWireGuardConfig`. -/
def createVpnProfileFromWireGuardConfig (configFile : ConfigFile) : Importing Text := do
  modify fun d ↦ { d with lastConnectedUsingSplit := w.preferences.splitTunnelToggle }
  let config ← attempt (parsedConfig lib configFile)
  let privateKey ← attempt (parseKey config.interface.privateKey.toBase64)
  let b := addAddresses (splitBuilder w) config.interface.addresses.elements
  let b ← attempt (copyAmneziaWgParams config.interface.toInterfaceAttributes b)
  let b ← attempt (setPacketSize w b)
  let dnsDetails ← setCustomDNS w
  let b ← attempt (setDnsServers lib dnsDetails config b)
  let peers ← attempt (createModifiedPeersForLanBypass w lib config.peers)
  let interface ← attempt (build b privateKey)
  let configWithSettings : Config := { interface, peers }
  saveSelectedLocation w (customLocation configFile)
  saveProfile w (configWithSettings.toWgQuickString lib.platform)
  pure ("Custom Config: ".toList ++
    withoutWgSecrets (configWithSettings.toWgQuickString lib.platform))

/-! ### The promise -/

/-- The printer and the parser are inverse to each other on a config that has DNS servers whenever
it has search domains. -/
def Inverse (config : Config) : Prop :=
  (config.interface.dnsServers.elements = [] → config.interface.dnsSearchDomains.elements = []) →
    lib.parse (config.toWgQuickString lib.platform) = some config

/-- What a peer keeps: all but its allowed networks, and these too without LAN bypass. -/
structure KeptPeer (peer saved : Peer) : Prop where
  attributes : saved = { peer with allowedIps := saved.allowedIps }
  allowedIps : w.preferences.lanByPass = false → saved.allowedIps = peer.allowedIps

/-- What a config keeps: all that the settings do not override. -/
structure Kept (config saved : Config) : Prop where
  /-- The key, the addresses, the listen port and the parameters of AmneziaWG. -/
  attributes : saved.interface =
    { config.interface with
      mtu := saved.interface.mtu
      dnsServers := saved.interface.dnsServers
      dnsSearchDomains := saved.interface.dnsSearchDomains
      includedApplications := saved.interface.includedApplications
      excludedApplications := saved.interface.excludedApplications }
  mtu : w.preferences.isPackageSizeModeAuto = true ∨ w.preferences.packetSize = -1 →
    saved.interface.mtu = config.interface.mtu
  dns : ∀ dnsDetails, customDNS w = .ok dnsDetails → dnsDetails.type ≠ .plain →
    saved.interface.dnsServers = config.interface.dnsServers ∧
      saved.interface.dnsSearchDomains = config.interface.dnsSearchDomains
  applications : w.preferences.splitTunnelToggle = false →
    saved.interface.includedApplications = config.interface.includedApplications ∧
      saved.interface.excludedApplications = config.interface.excludedApplications
  peers : List.Forall₂ (KeptPeer w) config.peers saved.peers

/-- The import succeeds, and the text that is saved keeps what the config says. -/
def Faithful (configFile : ConfigFile) (config : Config) : Prop :=
  ∀ d, wp (createVpnProfileFromWireGuardConfig w lib configFile)
    (fun _ d' ↦ ∃ content, d'.profile = some content ∧
      ∃ saved, lib.parse content = some saved ∧ Kept w config saved)
    (fun _ _ ↦ False) d

/-- `parseDnsServers` does not refuse a text. -/
def Readable (dnsServers : Text) : Prop :=
  ∀ dnsServer ∈ AllowedIps.split dnsServers,
    (AllowedIps.parseAddress lib.platform dnsServer).isSome = true ∨ isHostname dnsServer = true

/-- The settings and the config with which nothing is lost. -/
structure Preserving (config : Config) : Prop where
  /-- A packet size that is to be used was set. -/
  packetSize : w.preferences.isPackageSizeModeAuto = false → 0 ≤ w.preferences.packetSize
  /-- Without one there is no MTU to lose. -/
  mtu : w.preferences.isPackageSizeModeAuto = true → config.interface.mtu = none
  /-- The custom DNS can be used; unless it takes the place of the servers, there are no search
  domains to lose. -/
  dns : ∃ dnsDetails, customDNS w = .ok dnsDetails ∧
    if dnsDetails.type = .plain then
      ∃ ip, dnsDetails.ip = some ip ∧ Readable lib ip.toList
    else config.interface.dnsSearchDomains.elements = []
  /-- Without split tunnelling there are no applications to lose. -/
  applications : w.preferences.splitTunnelToggle = false →
    config.interface.includedApplications.elements = [] ∧
      config.interface.excludedApplications.elements = []
  /-- With LAN bypass every peer is allowed a network. -/
  peers : w.preferences.lanByPass = true → ∀ peer ∈ config.peers, peer.allowedIps.elements ≠ []
  files : w.writes .location = true ∧ w.writes .profile = true

/-! ### The config that is saved -/

/-- The config that the import builds. -/
def rebuilt (config : Config) : Except Failure Config := do
  let b ← setPacketSize w (copied config.interface.toInterfaceAttributes
    (addAddresses (splitBuilder w) config.interface.addresses.elements))
  let dnsDetails ← customDNS w
  let b ← setDnsServers lib dnsDetails config b
  let peers ← createModifiedPeersForLanBypass w lib config.peers
  .ok { interface := { b with privateKey := config.interface.privateKey }, peers }

/-- A config as its text says it: search domains are not written without servers. -/
def written (config : Config) : Config :=
  if config.interface.dnsServers.elements = [] then
    { config with interface := { config.interface with dnsSearchDomains := .empty } }
  else config

variable {w lib} {b b' : InterfaceAttributes} {config saved : Config} {configFile : ConfigFile}

theorem toWgQuickString_written (platform : AllowedIps.Platform) (config : Config) :
    (written config).toWgQuickString platform = config.toWgQuickString platform := by
  unfold written
  split_ifs with hservers
  · exact toWgQuickString_withoutSearchDomains platform hservers
  · rfl

theorem parse_written (hinverse : Inverse lib (written config)) :
    lib.parse (config.toWgQuickString lib.platform) = some (written config) := by
  have hparse := hinverse ?_
  · rwa [toWgQuickString_written] at hparse
  · unfold written
    split_ifs with hservers
    · exact fun _ ↦ rfl
    · exact fun hnone ↦ absurd hnone hservers

/-! ### What the steps leave alone -/

theorem setPacketSize_eq_ok (hset : setPacketSize w b = .ok b') :
    b' = { b with mtu := b'.mtu } := by
  unfold setPacketSize at hset
  split_ifs at hset
  · cases hset
    rfl
  · cases hpositive : positive w.preferences.packetSize with
    | error e =>
      rw [setMtu, hpositive] at hset
      cases hset
    | ok value =>
      rw [setMtu, hpositive] at hset
      cases hset
      rfl

theorem parseDnsServer_eq_ok {platform : AllowedIps.Platform} {dnsServer : Text}
    (hparse : parseDnsServer platform b dnsServer = .ok b') :
    b' = { b with dnsServers := b'.dnsServers, dnsSearchDomains := b'.dnsSearchDomains } := by
  unfold parseDnsServer at hparse
  split at hparse
  · cases hparse
    rfl
  · split_ifs at hparse
    cases hparse
    rfl

/-- Parsing servers leaves the other attributes alone. -/
theorem foldlM_parseDnsServer_eq_ok {platform : AllowedIps.Platform} {dnsServers : List Text}
    (hparse : dnsServers.foldlM (parseDnsServer platform) b = .ok b') :
    b' = { b with dnsServers := b'.dnsServers, dnsSearchDomains := b'.dnsSearchDomains } := by
  induction dnsServers generalizing b with
  | nil =>
    cases hparse
    rfl
  | cons dnsServer rest ih =>
    rw [List.foldlM_cons] at hparse
    cases hfirst : parseDnsServer platform b dnsServer with
    | error e =>
      rw [hfirst] at hparse
      cases hparse
    | ok next =>
      rw [hfirst] at hparse
      rw [ih hparse, parseDnsServer_eq_ok hfirst]

theorem succeeds_parseDnsServer (platform : AllowedIps.Platform) (dnsServer : Text) :
    (∃ b', parseDnsServer platform b dnsServer = .ok b') ↔
      (AllowedIps.parseAddress platform dnsServer).isSome = true ∨
        isHostname dnsServer = true := by
  unfold parseDnsServer
  cases AllowedIps.parseAddress platform dnsServer with
  | some address => simp
  | none =>
    by_cases hname : isHostname dnsServer = true
    · simp [hname]
    · simp [hname]

theorem succeeds_foldlM_parseDnsServer (platform : AllowedIps.Platform) (dnsServers : List Text) :
    (∃ b', dnsServers.foldlM (parseDnsServer platform) b = .ok b') ↔
      ∀ dnsServer ∈ dnsServers, (AllowedIps.parseAddress platform dnsServer).isSome = true ∨
        isHostname dnsServer = true := by
  induction dnsServers generalizing b with
  | nil => exact iff_of_true ⟨b, rfl⟩ (fun _ hmem ↦ absurd hmem List.not_mem_nil)
  | cons dnsServer rest ih =>
    rw [List.foldlM_cons, List.forall_mem_cons, ← succeeds_parseDnsServer (b := b)]
    cases hfirst : parseDnsServer platform b dnsServer with
    | error e =>
      refine iff_of_false ?_ ?_
      · rintro ⟨b', hparse⟩
        cases hparse
      · rintro ⟨⟨b', hparse⟩, -⟩
        cases hparse
    | ok next =>
      exact (ih (b := next)).trans (and_iff_right ⟨next, rfl⟩).symm

theorem setDnsServers_eq_ok {dnsDetails : DNSDetails}
    (hset : setDnsServers lib dnsDetails config b = .ok b') :
    b' = { b with dnsServers := b'.dnsServers, dnsSearchDomains := b'.dnsSearchDomains } := by
  unfold setDnsServers at hset
  split_ifs at hset
  · split at hset
    · exact foldlM_parseDnsServer_eq_ok hset
    · cases hset
  · cases hset
    rfl

/-! ### The peers -/

variable (lib) in
/-- The endpoint of a peer is read back from its host and its port. -/
def EndpointReread (peer : Peer) : Prop :=
  ∀ endpoint, peer.endpoint = some endpoint →
    lib.parseEndpoint (endpoint.host ++ ':' :: decimal endpoint.port) = some endpoint

/-- A peer as it is rebuilt for LAN bypass. -/
def bypassing (peer : Peer) : Peer :=
  { peer with
    allowedIps :=
      LinkedHashSet.empty.addAll (LanBypass.modifiedAllowedIps peer.allowedIps.elements) }

/-- A peer whose endpoint is read back is rebuilt, unless it is allowed nothing. -/
theorem modifiedPeer_eq {peer : Peer} (hendpoint : EndpointReread lib peer) :
    modifiedPeer lib peer =
      if peer.allowedIps.elements = [] then .error (.badConfig none)
      else .ok (bypassing peer) := by
  have hreparsed : reparsedEndpoint lib peer.endpoint = .ok peer.endpoint := by
    cases hpeer : peer.endpoint with
    | none => rfl
    | some endpoint =>
      simp only [reparsedEndpoint, hendpoint endpoint hpeer]
  have hkeepalive : port (keepaliveSeconds peer.persistentKeepalive) =
      .ok peer.persistentKeepalive := by
    cases peer.persistentKeepalive with
    | none => rfl
    | some seconds => exact port_val seconds
  have hpreSharedKey : reparsedKey peer.preSharedKey = peer.preSharedKey := by
    cases peer.preSharedKey with
    | none => rfl
    | some key => exact fromBase64_toBase64 key
  unfold modifiedPeer
  rw [parseKey_toBase64, hreparsed, hkeepalive, hpreSharedKey]
  split_ifs
  · rfl
  · rfl

/-- The peers are rebuilt one by one, unless one of them is allowed nothing. -/
theorem mapM_modifiedPeer_eq_ok {peers saved : List Peer}
    (hendpoints : ∀ peer ∈ peers, EndpointReread lib peer) :
    peers.mapM (modifiedPeer lib) = .ok saved ↔
      (∀ peer ∈ peers, peer.allowedIps.elements ≠ []) ∧ saved = peers.map bypassing := by
  induction peers generalizing saved with
  | nil =>
    rw [List.mapM_nil]
    constructor
    · rintro ⟨⟩
      exact ⟨fun _ hmem ↦ absurd hmem List.not_mem_nil, rfl⟩
    · rintro ⟨-, rfl⟩
      rfl
  | cons peer rest ih =>
    rw [List.forall_mem_cons] at hendpoints
    rw [List.mapM_cons, modifiedPeer_eq hendpoints.1, List.forall_mem_cons, List.map_cons]
    split_ifs with hnone
    · exact iff_of_false (fun hok ↦ by cases hok) (fun hall ↦ hall.1.1 hnone)
    · have hrest : rest.mapM (modifiedPeer lib) = .ok (rest.map bypassing) ↔ _ :=
        ih hendpoints.2
      cases hmap : rest.mapM (modifiedPeer lib) with
      | error e =>
        refine iff_of_false (fun hok ↦ by cases hok) (fun hall ↦ ?_)
        rw [hrest.mpr ⟨hall.1.2, rfl⟩] at hmap
        cases hmap
      | ok others =>
        obtain ⟨hothers, rfl⟩ := (ih hendpoints.2).mp hmap
        constructor
        · rintro ⟨⟩
          exact ⟨⟨hnone, hothers⟩, rfl⟩
        · rintro ⟨-, rfl⟩
          rfl

theorem createModifiedPeers_eq_ok {saved : List Peer}
    (hendpoints : ∀ peer ∈ config.peers, EndpointReread lib peer) :
    createModifiedPeersForLanBypass w lib config.peers = .ok saved ↔
      (w.preferences.lanByPass = true → ∀ peer ∈ config.peers, peer.allowedIps.elements ≠ []) ∧
        saved = if w.preferences.lanByPass then config.peers.map bypassing else config.peers := by
  unfold createModifiedPeersForLanBypass
  split_ifs with hlan
  · rw [mapM_modifiedPeer_eq_ok hendpoints]
    exact and_congr_left fun _ ↦ ⟨fun hall _ ↦ hall, fun hall ↦ hall hlan⟩
  · rw [Except.ok.injEq, eq_comm, and_iff_right fun h ↦ absurd h hlan]

theorem keptPeers (config : Config) : List.Forall₂ (KeptPeer w) config.peers
    (if w.preferences.lanByPass then config.peers.map bypassing else config.peers) := by
  split_ifs with hlan
  · rw [List.forall₂_map_right_iff]
    exact List.forall₂_same.mpr fun peer _ ↦ ⟨rfl, fun hoff ↦ by rw [hlan] at hoff; cases hoff⟩
  · exact List.forall₂_same.mpr fun peer _ ↦ ⟨rfl, fun _ ↦ rfl⟩

/-! ### The import as a whole -/

theorem splitBuilder_spec (w : Device) :
    (splitBuilder w).includedApplications.elements = [] ∨
      (splitBuilder w).excludedApplications.elements = [] := by
  unfold splitBuilder
  dsimp only
  split_ifs
  · exact Or.inr rfl
  · exact Or.inl rfl
  · exact Or.inl rfl

theorem build_eq {privateKey : Key}
    (hone : b.includedApplications.elements = [] ∨ b.excludedApplications.elements = []) :
    build b privateKey = .ok { b with privateKey } := by
  rw [build, if_neg]
  rintro ⟨hincluded, hexcluded⟩
  exact hone.elim hincluded hexcluded

/-- What is saved, step by step. -/
theorem rebuilt_eq_ok :
    rebuilt w lib config = .ok saved ↔ ∃ sized dnsDetails served peers,
      setPacketSize w (copied config.interface.toInterfaceAttributes
        (addAddresses (splitBuilder w) config.interface.addresses.elements)) = .ok sized ∧
      customDNS w = .ok dnsDetails ∧ setDnsServers lib dnsDetails config sized = .ok served ∧
      createModifiedPeersForLanBypass w lib config.peers = .ok peers ∧
      saved =
        { interface := { served with privateKey := config.interface.privateKey }, peers } := by
  simp only [rebuilt, bind_eq_ok, Except.ok.injEq, eq_comm (b := saved)]
  constructor
  · rintro ⟨sized, hsized, dnsDetails, hdns, served, hserved, peers, hpeers, hsaved⟩
    exact ⟨sized, dnsDetails, served, peers, hsized, hdns, hserved, hpeers, hsaved⟩
  · rintro ⟨sized, dnsDetails, served, peers, hsized, hdns, hserved, hpeers, hsaved⟩
    exact ⟨sized, hsized, dnsDetails, hdns, served, hserved, peers, hpeers, hsaved⟩

/-- Applications are included or excluded, not both. -/
theorem build_served {sized served : InterfaceAttributes} {dnsDetails : DNSDetails}
    {privateKey : Key}
    (hsized : setPacketSize w (copied config.interface.toInterfaceAttributes
      (addAddresses (splitBuilder w) config.interface.addresses.elements)) = .ok sized)
    (hserved : setDnsServers lib dnsDetails config sized = .ok served) :
    build served privateKey = .ok { served with privateKey } := by
  refine build_eq ?_
  rw [setDnsServers_eq_ok hserved, setPacketSize_eq_ok hsized]
  exact splitBuilder_spec w

/-- Both files are written, or the import throws. -/
theorem wp_save {location : LastSelectedLocation} {content : Text} (P : Text → Prop)
    (d : Storage) :
    wp (saveSelectedLocation w location)
        (fun _ d' ↦ wp (saveProfile w content)
          (fun _ d'' ↦ ∃ content, d''.profile = some content ∧ P content) (fun _ _ ↦ False) d')
        (fun _ _ ↦ False) d ↔
      (w.writes .location = true ∧ w.writes .profile = true) ∧ P content := by
  unfold saveSelectedLocation saveProfile
  by_cases hlocation : w.writes .location = true
  · by_cases hprofile : w.writes .profile = true
    · rw [if_pos hlocation, if_pos hprofile, wp_modify, wp_modify,
        and_iff_right ⟨hlocation, hprofile⟩]
      constructor
      · rintro ⟨_, ⟨⟩, hcontent⟩
        exact hcontent
      · exact fun hcontent ↦ ⟨content, rfl, hcontent⟩
    · rw [if_pos hlocation, if_neg hprofile, wp_modify, wp_throw]
      exact iff_of_false id fun hall ↦ hprofile hall.1.2
  · rw [if_neg hlocation, wp_throw]
    exact iff_of_false id fun hall ↦ hlocation hall.1.1

/-- The import succeeds when the config can be rebuilt and the files can be written, and saves the
text of the rebuilt config. -/
theorem wp_create (P : Text → Prop) (hparsed : parsedConfig lib configFile = .ok config)
    (d : Storage) :
    wp (createVpnProfileFromWireGuardConfig w lib configFile)
        (fun _ d' ↦ ∃ content, d'.profile = some content ∧ P content) (fun _ _ ↦ False) d ↔
      ∃ saved, rebuilt w lib config = .ok saved ∧
        (w.writes .location = true ∧ w.writes .profile = true) ∧
        P (saved.toWgQuickString lib.platform) := by
  simp only [createVpnProfileFromWireGuardConfig, wp_bind, wp_modify, wp_attempt_total, hparsed,
    parseKey_toBase64, copyAmneziaWgParams_eq, setCustomDNS, Except.ok.injEq, exists_eq_left',
    wp_pure, wp_save]
  constructor
  · rintro ⟨sized, hsized, dnsDetails, hdns, served, hserved, peers, hpeers, interface, hbuild,
      hsaved⟩
    rw [build_served hsized hserved] at hbuild
    cases hbuild
    exact ⟨_, rebuilt_eq_ok.mpr ⟨sized, dnsDetails, served, peers, hsized, hdns, hserved, hpeers,
      rfl⟩, hsaved⟩
  · rintro ⟨saved, hrebuilt, hsaved⟩
    obtain ⟨sized, dnsDetails, served, peers, hsized, hdns, hserved, hpeers, rfl⟩ :=
      rebuilt_eq_ok.mp hrebuilt
    exact ⟨sized, hsized, dnsDetails, hdns, served, hserved, peers, hpeers, _,
      build_served hsized hserved, hsaved⟩

/-! ### What the rebuilt config says -/

/-- The split tunnel sets applications only. -/
theorem splitBuilder_eq (w : Device) :
    splitBuilder w = { fresh with
      includedApplications := (splitBuilder w).includedApplications
      excludedApplications := (splitBuilder w).excludedApplications } := by
  unfold splitBuilder
  dsimp only
  split_ifs
  · rfl
  · rfl
  · rfl

theorem succeeds_setPacketSize :
    (∃ b', setPacketSize w b = .ok b') ↔
      (w.preferences.isPackageSizeModeAuto = false → 0 ≤ w.preferences.packetSize) := by
  unfold setPacketSize
  cases hauto : w.preferences.isPackageSizeModeAuto with
  | true => exact iff_of_true ⟨b, rfl⟩ fun hmanual ↦ by cases hmanual
  | false =>
    rw [if_neg (by decide), setMtu, positive]
    by_cases hnegative : w.preferences.packetSize < 0
    · rw [if_pos hnegative]
      refine iff_of_false ?_ fun hall ↦ ?_
      · rintro ⟨b', hset⟩
        cases hset
      · exact absurd (hall rfl) (not_le.mpr hnegative)
    · rw [if_neg hnegative]
      exact iff_of_true ⟨_, rfl⟩ fun _ ↦ not_lt.mp hnegative

theorem succeeds_setDnsServers {dnsDetails : DNSDetails} :
    (∃ b', setDnsServers lib dnsDetails config b = .ok b') ↔
      (dnsDetails.type = .plain → ∃ ip, dnsDetails.ip = some ip ∧ Readable lib ip.toList) := by
  unfold setDnsServers
  split_ifs with hplain
  · cases hip : dnsDetails.ip with
    | none =>
      refine iff_of_false ?_ fun hall ↦ ?_
      · rintro ⟨b', hset⟩
        cases hset
      · obtain ⟨ip, hnone, -⟩ := hall hplain
        cases hnone
    | some ip =>
      refine (succeeds_foldlM_parseDnsServer lib.platform _).trans ⟨fun hread _ ↦ ⟨ip, rfl, hread⟩,
        fun hall ↦ ?_⟩
      obtain ⟨_, ⟨⟩, hread⟩ := hall hplain
      exact hread
  · exact iff_of_true ⟨_, rfl⟩ fun h ↦ absurd h hplain

/-- The key, the addresses, the listen port and the parameters of AmneziaWG are never lost. -/
theorem attributes_rebuilt (hrebuilt : rebuilt w lib config = .ok saved) :
    saved.interface =
      { config.interface with
        mtu := saved.interface.mtu
        dnsServers := saved.interface.dnsServers
        dnsSearchDomains := saved.interface.dnsSearchDomains
        includedApplications := saved.interface.includedApplications
        excludedApplications := saved.interface.excludedApplications } := by
  obtain ⟨sized, dnsDetails, served, peers, hsized, -, hserved, -, rfl⟩ :=
    rebuilt_eq_ok.mp hrebuilt
  rw [setDnsServers_eq_ok hserved, setPacketSize_eq_ok hsized, splitBuilder_eq]
  simp only [copied, fresh, addAddresses, LinkedHashSet.addAll_empty, Option.or_none]

/-- Without a packet size of the user no MTU is written. -/
theorem mtu_rebuilt (hrebuilt : rebuilt w lib config = .ok saved)
    (hauto : w.preferences.isPackageSizeModeAuto = true) : saved.interface.mtu = none := by
  obtain ⟨sized, dnsDetails, served, peers, hsized, -, hserved, -, rfl⟩ :=
    rebuilt_eq_ok.mp hrebuilt
  rw [setPacketSize, if_pos hauto] at hsized
  cases hsized
  rw [setDnsServers_eq_ok hserved, splitBuilder_eq]
  rfl

/-- Servers that are not replaced are copied, search domains are not. -/
theorem dns_rebuilt (hrebuilt : rebuilt w lib config = .ok saved) {dnsDetails : DNSDetails}
    (hdetails : customDNS w = .ok dnsDetails) (hplain : dnsDetails.type ≠ .plain) :
    saved.interface.dnsServers = config.interface.dnsServers ∧
      saved.interface.dnsSearchDomains = .empty := by
  obtain ⟨sized, dnsDetails, served, peers, hsized, hdns, hserved, -, rfl⟩ :=
    rebuilt_eq_ok.mp hrebuilt
  rw [hdns] at hdetails
  cases hdetails
  rw [setDnsServers, if_neg hplain] at hserved
  cases hserved
  rw [setPacketSize_eq_ok hsized, splitBuilder_eq]
  exact ⟨LinkedHashSet.addAll_empty _, rfl⟩

/-- Without split tunnelling no applications are written. -/
theorem applications_rebuilt (hrebuilt : rebuilt w lib config = .ok saved)
    (hoff : w.preferences.splitTunnelToggle = false) :
    saved.interface.includedApplications = .empty ∧
      saved.interface.excludedApplications = .empty := by
  obtain ⟨sized, dnsDetails, served, peers, hsized, -, hserved, -, rfl⟩ :=
    rebuilt_eq_ok.mp hrebuilt
  have hfresh : splitBuilder w = fresh := by
    rw [splitBuilder, if_neg (Bool.eq_false_iff.mp hoff)]
  rw [setDnsServers_eq_ok hserved, setPacketSize_eq_ok hsized, hfresh]
  exact ⟨rfl, rfl⟩

theorem written_eq (config : Config) :
    written config = { config with interface := { config.interface with
      dnsSearchDomains := (written config).interface.dnsSearchDomains } } := by
  unfold written
  split_ifs
  · rfl
  · rfl

/-- Search domains that are empty stay empty. -/
theorem searchDomains_written (hempty : config.interface.dnsSearchDomains = .empty) :
    (written config).interface.dnsSearchDomains = .empty := by
  unfold written
  split_ifs
  · rfl
  · exact hempty

theorem peers_rebuilt (hrebuilt : rebuilt w lib config = .ok saved)
    (hendpoints : ∀ peer ∈ config.peers, EndpointReread lib peer) :
    (w.preferences.lanByPass = true → ∀ peer ∈ config.peers, peer.allowedIps.elements ≠ []) ∧
      List.Forall₂ (KeptPeer w) config.peers saved.peers := by
  obtain ⟨sized, dnsDetails, served, peers, -, -, -, hpeers, rfl⟩ := rebuilt_eq_ok.mp hrebuilt
  obtain ⟨hallowed, rfl⟩ := (createModifiedPeers_eq_ok hendpoints).mp hpeers
  exact ⟨hallowed, keptPeers config⟩

/-- Where nothing is lost, the config can be rebuilt. -/
theorem succeeds_rebuilt (hpreserving : Preserving w lib config)
    (hendpoints : ∀ peer ∈ config.peers, EndpointReread lib peer) :
    ∃ saved, rebuilt w lib config = .ok saved := by
  obtain ⟨sized, hsized⟩ := succeeds_setPacketSize
    (b := copied config.interface.toInterfaceAttributes
      (addAddresses (splitBuilder w) config.interface.addresses.elements))
    |>.mpr hpreserving.packetSize
  obtain ⟨dnsDetails, hdns, hservers⟩ := hpreserving.dns
  have hreadable : dnsDetails.type = .plain →
      ∃ ip, dnsDetails.ip = some ip ∧ Readable lib ip.toList := by
    intro hplain
    rwa [if_pos hplain] at hservers
  obtain ⟨served, hserved⟩ : ∃ served, setDnsServers lib dnsDetails config sized = .ok served :=
    succeeds_setDnsServers.mpr hreadable
  have hpeers := (createModifiedPeers_eq_ok hendpoints).mpr ⟨hpreserving.peers, rfl⟩
  exact ⟨_, rebuilt_eq_ok.mpr ⟨sized, dnsDetails, served, _, hsized, hdns, hserved, hpeers, rfl⟩⟩

/-- Where nothing is lost, what is written keeps what the config says. -/
theorem kept_written (hrebuilt : rebuilt w lib config = .ok saved)
    (hendpoints : ∀ peer ∈ config.peers, EndpointReread lib peer)
    (hpreserving : Preserving w lib config) : Kept w config (written saved) where
  attributes := by
    rw [written_eq, attributes_rebuilt hrebuilt]
  mtu := by
    intro hunset
    have hauto : w.preferences.isPackageSizeModeAuto = true := by
      by_contra hmanual
      have hset := hpreserving.packetSize (Bool.eq_false_iff.mpr hmanual)
      have hnever := hunset.resolve_left hmanual
      omega
    rw [written_eq, mtu_rebuilt hrebuilt hauto, hpreserving.mtu hauto]
  dns := by
    intro dnsDetails hdetails hplain
    obtain ⟨servers, hdomains⟩ := dns_rebuilt hrebuilt hdetails hplain
    obtain ⟨_, hdns, hlost⟩ := hpreserving.dns
    rw [hdns] at hdetails
    cases hdetails
    rw [if_neg hplain] at hlost
    rw [searchDomains_written hdomains, LinkedHashSet.eq_empty hlost, written_eq, servers]
    exact ⟨rfl, rfl⟩
  applications := by
    intro hoff
    obtain ⟨hincluded, hexcluded⟩ := hpreserving.applications hoff
    rw [written_eq, (applications_rebuilt hrebuilt hoff).1, (applications_rebuilt hrebuilt hoff).2,
      LinkedHashSet.eq_empty hincluded, LinkedHashSet.eq_empty hexcluded]
    exact ⟨rfl, rfl⟩
  peers := by
    rw [written_eq]
    exact (peers_rebuilt hrebuilt hendpoints).2

/-- What a config that is kept did not have to lose. -/
theorem preserving_of_kept (hrebuilt : rebuilt w lib config = .ok saved)
    (hendpoints : ∀ peer ∈ config.peers, EndpointReread lib peer)
    (hkept : Kept w config (written saved))
    (hfiles : w.writes .location = true ∧ w.writes .profile = true) :
    Preserving w lib config where
  packetSize := by
    obtain ⟨sized, _, _, _, hsized, -⟩ := rebuilt_eq_ok.mp hrebuilt
    exact succeeds_setPacketSize.mp ⟨sized, hsized⟩
  mtu := by
    intro hauto
    have hmtu := mtu_rebuilt hrebuilt hauto
    rw [← hkept.mtu (Or.inl hauto), written_eq]
    exact hmtu
  dns := by
    obtain ⟨sized, dnsDetails, served, _, -, hdns, hserved, -⟩ := rebuilt_eq_ok.mp hrebuilt
    refine ⟨dnsDetails, hdns, ?_⟩
    split_ifs with hplain
    · exact succeeds_setDnsServers.mp ⟨served, hserved⟩ hplain
    · rw [← (hkept.dns dnsDetails hdns hplain).2,
        searchDomains_written (dns_rebuilt hrebuilt hdns hplain).2]
      rfl
  applications := by
    intro hoff
    rw [← (hkept.applications hoff).1, ← (hkept.applications hoff).2, written_eq,
      (applications_rebuilt hrebuilt hoff).1, (applications_rebuilt hrebuilt hoff).2]
    exact ⟨rfl, rfl⟩
  peers := (peers_rebuilt hrebuilt hendpoints).1
  files := hfiles

/-! ### When the import is faithful -/

theorem parsedConfig_eq {content : String} (hcontent : configFile.content = some content)
    (hparse : lib.parse content.toList = some config) :
    parsedConfig lib configFile = .ok config := by
  simp only [parsedConfig, hcontent, hparse]

/-- A config that is imported faithfully has nothing to lose. -/
theorem preserving_of_faithful {content : String} (hcontent : configFile.content = some content)
    (hparse : lib.parse content.toList = some config)
    (hinverse : ∀ saved, rebuilt w lib config = .ok saved → Inverse lib (written saved))
    (hfaithful : Faithful w lib configFile config) : Preserving w lib config := by
  have hparsed := parsedConfig_eq hcontent hparse
  have hrun := (wp_create _ hparsed ⟨none, none, none, false⟩).mp (hfaithful _)
  obtain ⟨saved, hrebuilt, hfiles, read, hread, hkept⟩ := hrun
  rw [parse_written (hinverse saved hrebuilt)] at hread
  cases hread
  exact preserving_of_kept hrebuilt (lib.endpoint_of_parse _ _ hparse) hkept hfiles

/-- A config is imported faithfully exactly when there is nothing to lose. -/
theorem faithful_iff (w : Device) (lib : WgLibrary) (configFile : ConfigFile) (content : String)
    (config : Config) (hcontent : configFile.content = some content)
    (hparse : lib.parse content.toList = some config)
    (hinverse : ∀ saved, rebuilt w lib config = .ok saved → Inverse lib (written saved)) :
    Faithful w lib configFile config ↔ Preserving w lib config := by
  constructor
  · exact preserving_of_faithful hcontent hparse hinverse
  · intro hpreserving d
    have hendpoints := lib.endpoint_of_parse _ _ hparse
    obtain ⟨saved, hrebuilt⟩ := succeeds_rebuilt hpreserving hendpoints
    refine (wp_create _ (parsedConfig_eq hcontent hparse) d).mpr
      ⟨saved, hrebuilt, hpreserving.files, written saved, ?_, ?_⟩
    · exact parse_written (hinverse saved hrebuilt)
    · exact kept_written hrebuilt hendpoints hpreserving

/-! ### A config with an MTU -/

/-- A server at home. -/
def homeEndpoint : InetEndpoint := ⟨"198.51.100.1".toList, true, 51820⟩

/-- The peer of a config without an MTU. -/
def homePeer : Peer where
  allowedIps := ⟨[LanBypass.network 0 0 0 0 0], List.nodup_singleton _⟩
  endpoint := some homeEndpoint
  persistentKeepalive := some ⟨25, by decide⟩
  preSharedKey := none
  publicKey := ⟨List.replicate 32 1, rfl⟩

/-- A config without an MTU. -/
def home : Config where
  interface :=
    { fresh with
      addresses := ⟨[LanBypass.network 10 0 0 2 32], List.nodup_singleton _⟩
      dnsServers := ⟨[.v4 (LanBypass.ipv4 10 0 0 1)], List.nodup_singleton _⟩
      privateKey := ⟨List.replicate 32 2, rfl⟩ }
  peers := [homePeer]

/-- The same config with an MTU. -/
def homeWithMtu : Config := { home with interface := { home.interface with mtu := some 1420 } }

/-- A text of the config with the MTU, which begins with a comment. -/
def homeText : Text := "# Home\n".toList ++ homeWithMtu.toWgQuickString quadPlatform

/-- A parser that knows the text of the config without the MTU, and the one with the comment. -/
def parseHome (text : Text) : Option Config :=
  if text = home.toWgQuickString quadPlatform then some home
  else if text = homeText then some homeWithMtu else none

theorem parseHome_home : parseHome (home.toWgQuickString quadPlatform) = some home := by
  rw [parseHome, if_pos rfl]

theorem parseHome_homeText : parseHome homeText = some homeWithMtu := by
  have hcomment : homeText ≠ home.toWgQuickString quadPlatform := by
    intro heq
    have hheads := congrArg List.head? heq
    cases hheads
  rw [parseHome, if_neg hcomment, if_pos rfl]

/-- A library with this parser. -/
def homeLibrary : WgLibrary where
  platform := quadPlatform
  parse := parseHome
  parseEndpoint := fun text ↦
    if text = homeEndpoint.host ++ ':' :: decimal homeEndpoint.port then some homeEndpoint else none
  endpoint_of_parse := by
    intro text config hparse peer hpeer endpoint hendpoint
    have hpeers : config.peers = [homePeer] := by
      unfold parseHome at hparse
      split_ifs at hparse
      · cases hparse
        rfl
      · cases hparse
        rfl
    rw [hpeers, List.mem_singleton] at hpeer
    subst hpeer
    cases hendpoint
    exact if_pos rfl

theorem parse_homeLibrary (text : Text) : homeLibrary.parse text = parseHome text := rfl

/-- A config that is saved without an MTU. -/
theorem inverse_home (config : Config)
    (hrebuilt : rebuilt ProfileCreation.withoutServerConfig homeLibrary config = .ok home) :
    ∀ saved, rebuilt ProfileCreation.withoutServerConfig homeLibrary config = .ok saved →
      Inverse homeLibrary (written saved) := by
  intro saved hsaved _
  rw [hrebuilt] at hsaved
  cases hsaved
  have hservers : home.interface.dnsServers.elements ≠ [] := List.cons_ne_nil _ _
  rw [written, if_neg hservers, parse_homeLibrary]
  exact parseHome_home

/-- A config without an MTU is imported faithfully. -/
theorem faithful_home :
    Faithful ProfileCreation.withoutServerConfig homeLibrary
      ⟨1, none, some (String.ofList (home.toWgQuickString quadPlatform)), none, none⟩ home := by
  refine (faithful_iff _ homeLibrary _ _ home rfl ?_ (inverse_home home rfl)).mpr ?_
  · rw [parse_homeLibrary, String.toList_ofList]
    exact parseHome_home
  · exact
      { packetSize := fun hmanual ↦ by cases hmanual
        mtu := fun _ ↦ rfl
        dns := ⟨_, rfl, rfl⟩
        applications := fun _ ↦ ⟨rfl, rfl⟩
        peers := fun hlan ↦ by cases hlan
        files := ⟨rfl, rfl⟩ }

/-- With the packet size left to the app the MTU of a config is lost. -/
theorem not_faithful_mtu :
    ¬ ∀ (w : Device) (lib : WgLibrary) (configFile : ConfigFile) (content : String)
      (config : Config), configFile.content = some content →
        lib.parse content.toList = some config →
        (∀ saved, rebuilt w lib config = .ok saved → Inverse lib (written saved)) →
        Faithful w lib configFile config := by
  intro hall
  have hinverse := inverse_home homeWithMtu rfl
  obtain ⟨content, htext⟩ : ∃ content : String, content.toList = homeText :=
    ⟨String.ofList homeText, String.toList_ofList⟩
  have hparse : homeLibrary.parse content.toList = some homeWithMtu := by
    rw [parse_homeLibrary, htext]
    exact parseHome_homeText
  have hfaithful := hall ProfileCreation.withoutServerConfig homeLibrary
    ⟨1, none, some content, none, none⟩ content homeWithMtu rfl hparse hinverse
  have hlost := (preserving_of_faithful rfl hparse hinverse hfaithful).mtu rfl
  cases hlost

end WindscribeVpn.Backend.CustomWireGuard
