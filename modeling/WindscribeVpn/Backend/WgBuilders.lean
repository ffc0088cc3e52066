import WindscribeVpn.Backend.WgQuick
import WindscribeVpn.Backend.VPNProfileCreator

/-!
# Builders of WireGuard configs

The setters of `Interface.Builder` and `Peer.Builder`, as far as custom configs use them, and
`copyAmneziaWgParams` of `VPNProfileCreator`, which copies an interface attribute by attribute. A
setter refuses a negative number and takes zero, and a text of blanks, for absent.

What an interface has was set by such a setter, so that copying it neither throws nor changes it
(`copyAmneziaWgParams_eq`). `WgLibrary` is what is left open of the library: the parser of configs,
and the one of endpoints, which reads back what it has read.
-/

set_option autoImplicit false
set_option relaxedAutoImplicit false

namespace WindscribeVpn.Backend.WgBuilders

open Foundations.Texts Foundations.LinkedSets AllowedIps WgKey WgQuick
open LanBypass (InetAddress InetNetwork)
open VPNProfileCreator (Failure)

/-! ### The library -/

/-- The parsers of the library. -/
structure WgLibrary where
  platform : Platform
  /-- `Config.parse`, `none` when it throws. -/
  parse : Text → Option Config
  /-- `InetEndpoint.parse`, `none` when it throws. -/
  parseEndpoint : Text → Option InetEndpoint
  /-- The endpoint of a config was read by `InetEndpoint.parse`, which reads its host and its port
  as the same endpoint again. -/
  endpoint_of_parse : ∀ text config, parse text = some config → ∀ peer ∈ config.peers,
    ∀ endpoint, peer.endpoint = some endpoint →
      parseEndpoint (endpoint.host ++ ':' :: decimal endpoint.port) = some endpoint

/-! ### Setters -/

/-- A number that is set: refused when it is negative, absent when it is zero. -/
def positive (value : ℤ) : Except Failure (Option ℕ+) :=
  if value < 0 then .error (.badConfig none)
  else .ok (if hpos : 0 < value.toNat then some ⟨value.toNat, hpos⟩ else none)

theorem trim_trim (text : Text) : trim (trim text) = trim text := by
  rw [trim, trim, dropWhile_rdropWhile_dropWhile, List.rdropWhile_idempotent]

/-- A text that is set: absent when it is blank. -/
def trimmed (value : Text) : Except Failure (Option AttributeText) :=
  .ok (if hblank : trim value = [] then none else some ⟨trim value, hblank, trim_trim value⟩)

/-- A port that is set: refused outside its range, absent when it is zero. -/
def port (value : ℤ) : Except Failure (Option Port) :=
  if hrange : 0 ≤ value ∧ value ≤ 65535 then
    .ok (if hpos : 0 < value.toNat then some ⟨value.toNat, hpos, by omega⟩ else none)
  else .error (.badConfig none)

theorem positive_coe (n : ℕ+) : positive ((n : ℕ) : ℤ) = .ok (some n) := by
  have hnot : ¬ ((n : ℕ) : ℤ) < 0 := by omega
  rw [positive, if_neg hnot]
  exact congrArg Except.ok (dif_pos n.pos)

theorem trimmed_val (text : AttributeText) : trimmed text.val = .ok (some text) := by
  obtain ⟨text, hne, htrim⟩ := text
  have hkept : ¬ trim text = [] := by rwa [htrim]
  rw [trimmed, dif_neg hkept]
  exact congrArg (fun text ↦ Except.ok (some text)) (Subtype.ext htrim)

theorem port_val (value : Port) : port ((value.val : ℕ) : ℤ) = .ok (some value) := by
  obtain ⟨value, hpos, hle⟩ := value
  have hrange : (0 : ℤ) ≤ (value : ℤ) ∧ (value : ℤ) ≤ 65535 := by omega
  rw [port, dif_pos hrange]
  exact congrArg Except.ok (dif_pos hpos)

/-! ### The builder of an interface -/

/-- A builder that nothing was set in. -/
def fresh : InterfaceAttributes where
  addresses := .empty
  dnsServers := .empty
  dnsSearchDomains := .empty
  excludedApplications := .empty
  includedApplications := .empty
  listenPort := none
  mtu := none
  junkPacketCount := none
  junkPacketMinSize := none
  junkPacketMaxSize := none
  initPacketJunkSize := none
  responsePacketJunkSize := none
  cookieReplyPacketJunkSize := none
  transportPacketJunkSize := none
  initPacketMagicHeader := none
  responsePacketMagicHeader := none
  underloadPacketMagicHeader := none
  transportPacketMagicHeader := none
  specialJunkI1 := none
  specialJunkI2 := none
  specialJunkI3 := none
  specialJunkI4 := none
  specialJunkI5 := none

variable (b : InterfaceAttributes)

/-- `addAddresses`. -/
def addAddresses (addresses : List InetNetwork) : InterfaceAttributes :=
  { b with addresses := b.addresses.addAll addresses }

/-- `addDnsServers`. -/
def addDnsServers (dnsServers : List InetAddress) : InterfaceAttributes :=
  { b with dnsServers := b.dnsServers.addAll dnsServers }

/-- `addDnsSearchDomain`. -/
def addDnsSearchDomain (dnsSearchDomain : Text) : InterfaceAttributes :=
  { b with dnsSearchDomains := b.dnsSearchDomains.addAll [dnsSearchDomain] }

/-- `excludeApplications`. -/
def excludeApplications (applications : List Text) : InterfaceAttributes :=
  { b with excludedApplications := b.excludedApplications.addAll applications }

/-- `includeApplications`. -/
def includeApplications (applications : List Text) : InterfaceAttributes :=
  { b with includedApplications := b.includedApplications.addAll applications }

/-- `setListenPort`. -/
def setListenPort (listenPort : ℤ) : Except Failure InterfaceAttributes :=
  (port listenPort).map fun value ↦ { b with listenPort := value }

/-- `setMtu`. -/
def setMtu (mtu : ℤ) : Except Failure InterfaceAttributes :=
  (positive mtu).map fun value ↦ { b with mtu := value }

/-- `setJunkPacketCount`. -/
def setJunkPacketCount (junkPacketCount : ℤ) : Except Failure InterfaceAttributes :=
  (positive junkPacketCount).map fun value ↦ { b with junkPacketCount := value }

/-- `setJunkPacketMinSize`. -/
def setJunkPacketMinSize (junkPacketMinSize : ℤ) : Except Failure InterfaceAttributes :=
  (positive junkPacketMinSize).map fun value ↦ { b with junkPacketMinSize := value }

/-- `setJunkPacketMaxSize`. -/
def setJunkPacketMaxSize (junkPacketMaxSize : ℤ) : Except Failure InterfaceAttributes :=
  (positive junkPacketMaxSize).map fun value ↦ { b with junkPacketMaxSize := value }

/-- `setInitPacketJunkSize`. -/
def setInitPacketJunkSize (initPacketJunkSize : ℤ) : Except Failure InterfaceAttributes :=
  (positive initPacketJunkSize).map fun value ↦ { b with initPacketJunkSize := value }

/-- `setResponsePacketJunkSize`. -/
def setResponsePacketJunkSize (responsePacketJunkSize : ℤ) : Except Failure InterfaceAttributes :=
  (positive responsePacketJunkSize).map fun value ↦ { b with responsePacketJunkSize := value }

/-- `setCookieReplyPacketJunkSize`. -/
def setCookieReplyPacketJunkSize (cookieReplyPacketJunkSize : ℤ) :
    Except Failure InterfaceAttributes :=
  (positive cookieReplyPacketJunkSize).map fun value ↦ { b with cookieReplyPacketJunkSize := value }

/-- `setTransportPacketJunkSize`. -/
def setTransportPacketJunkSize (transportPacketJunkSize : ℤ) : Except Failure InterfaceAttributes :=
  (positive transportPacketJunkSize).map fun value ↦ { b with transportPacketJunkSize := value }

/-- `setInitPacketMagicHeader`. -/
def setInitPacketMagicHeader (initPacketMagicHeader : Text) : Except Failure InterfaceAttributes :=
  (trimmed initPacketMagicHeader).map fun value ↦ { b with initPacketMagicHeader := value }

/-- `setResponsePacketMagicHeader`. -/
def setResponsePacketMagicHeader (responsePacketMagicHeader : Text) :
    Except Failure InterfaceAttributes :=
  (trimmed responsePacketMagicHeader).map fun value ↦ { b with responsePacketMagicHeader := value }

/-- `setUnderloadPacketMagicHeader`. -/
def setUnderloadPacketMagicHeader (underloadPacketMagicHeader : Text) :
    Except Failure InterfaceAttributes :=
  (trimmed underloadPacketMagicHeader).map fun value ↦
    { b with underloadPacketMagicHeader := value }

/-- `setTransportPacketMagicHeader`. -/
def setTransportPacketMagicHeader (transportPacketMagicHeader : Text) :
    Except Failure InterfaceAttributes :=
  (trimmed transportPacketMagicHeader).map fun value ↦
    { b with transportPacketMagicHeader := value }

/-- `setSpecialJunkI1`. -/
def setSpecialJunkI1 (specialJunkI1 : Text) : Except Failure InterfaceAttributes :=
  (trimmed specialJunkI1).map fun value ↦ { b with specialJunkI1 := value }

/-- `setSpecialJunkI2`. -/
def setSpecialJunkI2 (specialJunkI2 : Text) : Except Failure InterfaceAttributes :=
  (trimmed specialJunkI2).map fun value ↦ { b with specialJunkI2 := value }

/-- `setSpecialJunkI3`. -/
def setSpecialJunkI3 (specialJunkI3 : Text) : Except Failure InterfaceAttributes :=
  (trimmed specialJunkI3).map fun value ↦ { b with specialJunkI3 := value }

/-- `setSpecialJunkI4`. -/
def setSpecialJunkI4 (specialJunkI4 : Text) : Except Failure InterfaceAttributes :=
  (trimmed specialJunkI4).map fun value ↦ { b with specialJunkI4 := value }

/-- `setSpecialJunkI5`. -/
def setSpecialJunkI5 (specialJunkI5 : Text) : Except Failure InterfaceAttributes :=
  (trimmed specialJunkI5).map fun value ↦ { b with specialJunkI5 := value }

/-- A label of a host name. -/
def isLabel (label : Text) : Bool :=
  label.length ≤ 63 && label.head?.any Char.isAlphanum && label.getLast?.any Char.isAlphanum &&
    label.all fun c ↦ c.isAlphanum || c == '-'

/-- `InetAddresses.isHostname`: labels with dots between them, and perhaps one at the end. -/
def isHostname (maybeHostname : Text) : Bool :=
  let labels := maybeHostname.splitOn '.'
  decide (maybeHostname ≠ [] ∧ maybeHostname.length ≤ 255) &&
    (if labels.getLast? = some [] then labels.dropLast else labels).all isLabel

/-- One turn of the loop of `parseDnsServers`: an address, or else a search domain. -/
def parseDnsServer (platform : Platform) (b : InterfaceAttributes) (dnsServer : Text) :
    Except Failure InterfaceAttributes :=
  match parseAddress platform dnsServer with
  | some address => .ok (addDnsServers b [address])
  | none =>
    if isHostname dnsServer then .ok (addDnsSearchDomain b dnsServer) else .error (.badConfig none)

/-- `parseDnsServers`. -/
def parseDnsServers (platform : Platform) (b : InterfaceAttributes) (dnsServers : Text) :
    Except Failure InterfaceAttributes :=
  (split dnsServers).foldlM (parseDnsServer platform) b

/-- `parsePrivateKey`, `parsePublicKey` and `parsePreSharedKey`. -/
def parseKey (text : Text) : Except Failure Key :=
  match Key.fromBase64 text with
  | some key => .ok key
  | none => .error (.badConfig none)

/-- `build` of an interface with a private key. -/
def build (b : InterfaceAttributes) (privateKey : Key) : Except Failure Interface :=
  if b.includedApplications.elements ≠ [] ∧ b.excludedApplications.elements ≠ [] then
    .error (.badConfig none)
  else .ok { b with privateKey }

theorem parseKey_toBase64 (key : Key) : parseKey key.toBase64 = .ok key := by
  rw [parseKey, fromBase64_toBase64]

/-! ### Copying an interface -/

/-- Sets an attribute that is present. -/
def ifPresent {α : Type} (value : Option α)
    (set : InterfaceAttributes → α → Except Failure InterfaceAttributes) (b : InterfaceAttributes) :
    Except Failure InterfaceAttributes :=
  match value with
  | none => .ok b
  | some value => set b value

/-- `copyAmneziaWgParams`. -/
def copyAmneziaWgParams (original b : InterfaceAttributes) :
    Except Failure InterfaceAttributes := do
  let b ← ifPresent original.junkPacketCount (fun b n ↦ setJunkPacketCount b (n : ℕ)) b
  let b ← ifPresent original.junkPacketMinSize (fun b n ↦ setJunkPacketMinSize b (n : ℕ)) b
  let b ← ifPresent original.junkPacketMaxSize (fun b n ↦ setJunkPacketMaxSize b (n : ℕ)) b
  let b ← ifPresent original.initPacketJunkSize (fun b n ↦ setInitPacketJunkSize b (n : ℕ)) b
  let b ← ifPresent original.responsePacketJunkSize
    (fun b n ↦ setResponsePacketJunkSize b (n : ℕ)) b
  let b ← ifPresent original.cookieReplyPacketJunkSize
    (fun b n ↦ setCookieReplyPacketJunkSize b (n : ℕ)) b
  let b ← ifPresent original.transportPacketJunkSize
    (fun b n ↦ setTransportPacketJunkSize b (n : ℕ)) b
  let b ← ifPresent original.initPacketMagicHeader
    (fun b text ↦ setInitPacketMagicHeader b text.val) b
  let b ← ifPresent original.responsePacketMagicHeader
    (fun b text ↦ setResponsePacketMagicHeader b text.val) b
  let b ← ifPresent original.underloadPacketMagicHeader
    (fun b text ↦ setUnderloadPacketMagicHeader b text.val) b
  let b ← ifPresent original.transportPacketMagicHeader
    (fun b text ↦ setTransportPacketMagicHeader b text.val) b
  let b ← ifPresent original.specialJunkI1 (fun b text ↦ setSpecialJunkI1 b text.val) b
  let b ← ifPresent original.specialJunkI2 (fun b text ↦ setSpecialJunkI2 b text.val) b
  let b ← ifPresent original.specialJunkI3 (fun b text ↦ setSpecialJunkI3 b text.val) b
  let b ← ifPresent original.specialJunkI4 (fun b text ↦ setSpecialJunkI4 b text.val) b
  let b ← ifPresent original.specialJunkI5 (fun b text ↦ setSpecialJunkI5 b text.val) b
  ifPresent original.listenPort (fun b value ↦ setListenPort b (value.val : ℕ)) b

/-- A present attribute takes the place of the one in the builder. -/
theorem ifPresent_eq {α : Type} {value : Option α}
    {set : InterfaceAttributes → α → Except Failure InterfaceAttributes}
    (put : InterfaceAttributes → Option α → InterfaceAttributes) (hnone : put b none = b)
    (hset : ∀ value, set b value = .ok (put b (some value))) :
    ifPresent value set b = .ok (put b value) := by
  cases value with
  | none => exact congrArg Except.ok hnone.symm
  | some value => exact hset value

/-- The copy goes on with the attribute in its place. -/
theorem ifPresent_bind {α : Type} {value : Option α}
    {set : InterfaceAttributes → α → Except Failure InterfaceAttributes}
    {next : InterfaceAttributes → Except Failure InterfaceAttributes}
    (put : InterfaceAttributes → Option α → InterfaceAttributes) (hnone : put b none = b)
    (hset : ∀ value, set b value = .ok (put b (some value))) :
    (ifPresent value set b >>= next) = next (put b value) := by
  rw [ifPresent_eq b put hnone hset]
  rfl

/-- The attributes of the original interface, and those of the builder where it has none. -/
def copied (original b : InterfaceAttributes) : InterfaceAttributes :=
  { b with
    junkPacketCount := original.junkPacketCount.or b.junkPacketCount
    junkPacketMinSize := original.junkPacketMinSize.or b.junkPacketMinSize
    junkPacketMaxSize := original.junkPacketMaxSize.or b.junkPacketMaxSize
    initPacketJunkSize := original.initPacketJunkSize.or b.initPacketJunkSize
    responsePacketJunkSize := original.responsePacketJunkSize.or b.responsePacketJunkSize
    cookieReplyPacketJunkSize := original.cookieReplyPacketJunkSize.or b.cookieReplyPacketJunkSize
    transportPacketJunkSize := original.transportPacketJunkSize.or b.transportPacketJunkSize
    initPacketMagicHeader := original.initPacketMagicHeader.or b.initPacketMagicHeader
    responsePacketMagicHeader := original.responsePacketMagicHeader.or b.responsePacketMagicHeader
    underloadPacketMagicHeader :=
      original.underloadPacketMagicHeader.or b.underloadPacketMagicHeader
    transportPacketMagicHeader :=
      original.transportPacketMagicHeader.or b.transportPacketMagicHeader
    specialJunkI1 := original.specialJunkI1.or b.specialJunkI1
    specialJunkI2 := original.specialJunkI2.or b.specialJunkI2
    specialJunkI3 := original.specialJunkI3.or b.specialJunkI3
    specialJunkI4 := original.specialJunkI4.or b.specialJunkI4
    specialJunkI5 := original.specialJunkI5.or b.specialJunkI5
    listenPort := original.listenPort.or b.listenPort }

/-- Copying an interface does not throw, and copies everything. -/
theorem copyAmneziaWgParams_eq (original b : InterfaceAttributes) :
    copyAmneziaWgParams original b = .ok (copied original b) := by
  have hpositive : ∀ (put : Option ℕ+ → InterfaceAttributes) (n : ℕ+),
      (positive ((n : ℕ) : ℤ)).map put = .ok (put (some n)) :=
    fun put n ↦ congrArg (Except.map put) (positive_coe n)
  have htrimmed : ∀ (put : Option AttributeText → InterfaceAttributes) (text : AttributeText),
      (trimmed text.val).map put = .ok (put (some text)) :=
    fun put text ↦ congrArg (Except.map put) (trimmed_val text)
  have hport : ∀ (put : Option Port → InterfaceAttributes) (value : Port),
      (port ((value.val : ℕ) : ℤ)).map put = .ok (put (some value)) :=
    fun put value ↦ congrArg (Except.map put) (port_val value)
  unfold copyAmneziaWgParams
  refine (ifPresent_bind _
    (fun b value ↦ { b with junkPacketCount := value.or b.junkPacketCount }) rfl
    (hpositive _)).trans ?_
  refine (ifPresent_bind _
    (fun b value ↦ { b with junkPacketMinSize := value.or b.junkPacketMinSize }) rfl
    (hpositive _)).trans ?_
  refine (ifPresent_bind _
    (fun b value ↦ { b with junkPacketMaxSize := value.or b.junkPacketMaxSize }) rfl
    (hpositive _)).trans ?_
  refine (ifPresent_bind _
    (fun b value ↦ { b with initPacketJunkSize := value.or b.initPacketJunkSize }) rfl
    (hpositive _)).trans ?_
  refine (ifPresent_bind _
    (fun b value ↦ { b with responsePacketJunkSize := value.or b.responsePacketJunkSize }) rfl
    (hpositive _)).trans ?_
  refine (ifPresent_bind _
    (fun b value ↦ { b with cookieReplyPacketJunkSize := value.or b.cookieReplyPacketJunkSize }) rfl
    (hpositive _)).trans ?_
  refine (ifPresent_bind _
    (fun b value ↦ { b with transportPacketJunkSize := value.or b.transportPacketJunkSize }) rfl
    (hpositive _)).trans ?_
  refine (ifPresent_bind _
    (fun b value ↦ { b with initPacketMagicHeader := value.or b.initPacketMagicHeader }) rfl
    (htrimmed _)).trans ?_
  refine (ifPresent_bind _
    (fun b value ↦ { b with responsePacketMagicHeader := value.or b.responsePacketMagicHeader }) rfl
    (htrimmed _)).trans ?_
  refine (ifPresent_bind _
    (fun b value ↦ { b with
      underloadPacketMagicHeader := value.or b.underloadPacketMagicHeader }) rfl
    (htrimmed _)).trans ?_
  refine (ifPresent_bind _
    (fun b value ↦ { b with
      transportPacketMagicHeader := value.or b.transportPacketMagicHeader }) rfl
    (htrimmed _)).trans ?_
  refine (ifPresent_bind _ (fun b value ↦ { b with specialJunkI1 := value.or b.specialJunkI1 }) rfl
    (htrimmed _)).trans ?_
  refine (ifPresent_bind _ (fun b value ↦ { b with specialJunkI2 := value.or b.specialJunkI2 }) rfl
    (htrimmed _)).trans ?_
  refine (ifPresent_bind _ (fun b value ↦ { b with specialJunkI3 := value.or b.specialJunkI3 }) rfl
    (htrimmed _)).trans ?_
  refine (ifPresent_bind _ (fun b value ↦ { b with specialJunkI4 := value.or b.specialJunkI4 }) rfl
    (htrimmed _)).trans ?_
  refine (ifPresent_bind _ (fun b value ↦ { b with specialJunkI5 := value.or b.specialJunkI5 }) rfl
    (htrimmed _)).trans ?_
  exact ifPresent_eq _ (fun b value ↦ { b with listenPort := value.or b.listenPort }) rfl (hport _)

end WindscribeVpn.Backend.WgBuilders
