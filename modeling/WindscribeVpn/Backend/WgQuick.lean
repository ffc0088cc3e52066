import WindscribeVpn.Backend.AllowedIps
import WindscribeVpn.Backend.WgKey
import Mathlib.Data.PNat.Notation

/-!
# Configs of WireGuard

`Interface`, `Peer` and `Config` of the WireGuard library, with the parameters of AmneziaWG, and
their wg-quick texts (`toWgQuickString`). What the setters of the builders refuse or take for absent
cannot occur in a value: a number is positive, a port is at most 65535, a text has no blanks around
it and is not empty, a set has no element twice. Addresses are written by the platform.
-/

set_option autoImplicit false
set_option relaxedAutoImplicit false

namespace WindscribeVpn.Backend.WgQuick

open Foundations.Texts Foundations.LinkedSets LanBypass AllowedIps WgKey

/-! ### Values of attributes -/

/-- `String.trim`. -/
def trim (text : Text) : Text := (text.dropWhile (· ≤ ' ')).rdropWhile (· ≤ ' ')

/-- A text that a setter keeps. -/
abbrev AttributeText := {text : Text // text ≠ [] ∧ trim text = text}

/-- A port, or the seconds of a keepalive. -/
abbrev Port := {value : ℕ // 0 < value ∧ value ≤ 65535}

/-- `InetEndpoint`. -/
structure InetEndpoint where
  host : Text
  isResolved : Bool
  port : ℕ
  deriving DecidableEq

/-- `InetEndpoint.toString`, with brackets around an IPv6 address that has none. -/
def InetEndpoint.text (endpoint : InetEndpoint) : Text :=
  let isBareIpv6 := endpoint.isResolved && endpoint.host.contains ':' &&
    !endpoint.host.contains '[' && !endpoint.host.contains ']'
  (if isBareIpv6 then '[' :: endpoint.host ++ [']'] else endpoint.host) ++
    ':' :: decimal endpoint.port

/-! ### Interfaces, peers and configs -/

/-- The attributes of an interface but the key. -/
structure InterfaceAttributes where
  addresses : LinkedHashSet InetNetwork
  dnsServers : LinkedHashSet InetAddress
  dnsSearchDomains : LinkedHashSet Text
  excludedApplications : LinkedHashSet Text
  includedApplications : LinkedHashSet Text
  listenPort : Option Port
  mtu : Option ℕ+
  junkPacketCount : Option ℕ+
  junkPacketMinSize : Option ℕ+
  junkPacketMaxSize : Option ℕ+
  initPacketJunkSize : Option ℕ+
  responsePacketJunkSize : Option ℕ+
  cookieReplyPacketJunkSize : Option ℕ+
  transportPacketJunkSize : Option ℕ+
  initPacketMagicHeader : Option AttributeText
  responsePacketMagicHeader : Option AttributeText
  underloadPacketMagicHeader : Option AttributeText
  transportPacketMagicHeader : Option AttributeText
  specialJunkI1 : Option AttributeText
  specialJunkI2 : Option AttributeText
  specialJunkI3 : Option AttributeText
  specialJunkI4 : Option AttributeText
  specialJunkI5 : Option AttributeText
  deriving DecidableEq

/-- `Interface`, whose key pair is given by the private key. -/
structure Interface extends InterfaceAttributes where
  privateKey : Key
  deriving DecidableEq

/-- `Peer`. -/
structure Peer where
  allowedIps : LinkedHashSet InetNetwork
  endpoint : Option InetEndpoint
  persistentKeepalive : Option Port
  preSharedKey : Option Key
  publicKey : Key
  deriving DecidableEq

/-- `Config`. -/
structure Config where
  interface : Interface
  peers : List Peer
  deriving DecidableEq

/-! ### wg-quick -/

variable (platform : Platform)

/-- The value of a list, absent when the list is empty. -/
def joined (values : List Text) : Option Text := if values = [] then none else some (join values)

/-- The value of a number. -/
def number (value : ℕ+) : Text := decimal value

/-- The attributes of an interface but the key, in the order in which they are written. Search
domains are written with the servers only. -/
def InterfaceAttributes.entries (i : InterfaceAttributes) : List (Text × Option Text) :=
  [("Address".toList, joined (i.addresses.elements.map (networkText platform))),
    ("DNS".toList,
      if i.dnsServers.elements = [] then none
      else joined (i.dnsServers.elements.map platform.hostAddress ++ i.dnsSearchDomains.elements)),
    ("ExcludedApplications".toList, joined i.excludedApplications.elements),
    ("IncludedApplications".toList, joined i.includedApplications.elements),
    ("ListenPort".toList, i.listenPort.map fun port ↦ decimal port.val),
    ("MTU".toList, i.mtu.map number),
    ("Jc".toList, i.junkPacketCount.map number),
    ("Jmin".toList, i.junkPacketMinSize.map number),
    ("Jmax".toList, i.junkPacketMaxSize.map number),
    ("S1".toList, i.initPacketJunkSize.map number),
    ("S2".toList, i.responsePacketJunkSize.map number),
    ("S3".toList, i.cookieReplyPacketJunkSize.map number),
    ("S4".toList, i.transportPacketJunkSize.map number),
    ("H1".toList, i.initPacketMagicHeader.map Subtype.val),
    ("H2".toList, i.responsePacketMagicHeader.map Subtype.val),
    ("H3".toList, i.underloadPacketMagicHeader.map Subtype.val),
    ("H4".toList, i.transportPacketMagicHeader.map Subtype.val),
    ("I1".toList, i.specialJunkI1.map Subtype.val),
    ("I2".toList, i.specialJunkI2.map Subtype.val),
    ("I3".toList, i.specialJunkI3.map Subtype.val),
    ("I4".toList, i.specialJunkI4.map Subtype.val),
    ("I5".toList, i.specialJunkI5.map Subtype.val)]

/-- The attributes of a peer but its keys, in the order in which they are written. -/
def Peer.entries (peer : Peer) : List (Text × Option Text) :=
  [("AllowedIPs".toList, joined (peer.allowedIps.elements.map (networkText platform))),
    ("Endpoint".toList, peer.endpoint.map InetEndpoint.text),
    ("PersistentKeepalive".toList, peer.persistentKeepalive.map fun seconds ↦ decimal seconds.val)]

/-- The line of an attribute that is present. -/
def attributeLine (entry : Text × Option Text) : Text :=
  match entry.2 with
  | none => []
  | some value => entry.1 ++ " = ".toList ++ value ++ ['\n']

/-- The line of a key. -/
def keyLine (name : Text) (key : Key) : Text := name ++ " = ".toList ++ key.toBase64 ++ ['\n']

/-- `Interface.toWgQuickString`. -/
def Interface.toWgQuickString (i : Interface) : Text :=
  (i.entries platform).flatMap attributeLine ++ keyLine "PrivateKey".toList i.privateKey

/-- `Peer.toWgQuickString`. -/
def Peer.toWgQuickString (peer : Peer) : Text :=
  (peer.entries platform).flatMap attributeLine ++
    (match peer.preSharedKey with
      | none => []
      | some key => keyLine "PreSharedKey".toList key) ++
    keyLine "PublicKey".toList peer.publicKey

/-- `Config.toWgQuickString`. -/
def Config.toWgQuickString (config : Config) : Text :=
  "[Interface]\n".toList ++ config.interface.toWgQuickString platform ++
    config.peers.flatMap fun peer ↦ "\n[Peer]\n".toList ++ peer.toWgQuickString platform

/-! ### Search domains without servers -/

theorem entries_withoutSearchDomains {i : InterfaceAttributes}
    (hservers : i.dnsServers.elements = []) :
    InterfaceAttributes.entries platform { i with dnsSearchDomains := .empty } =
      i.entries platform := by
  unfold InterfaceAttributes.entries
  dsimp only
  rw [if_pos hservers, if_pos hservers]

/-- Without servers the search domains are not written. -/
theorem toWgQuickString_withoutSearchDomains {config : Config}
    (hservers : config.interface.dnsServers.elements = []) :
    Config.toWgQuickString platform
        { config with interface := { config.interface with dnsSearchDomains := .empty } } =
      config.toWgQuickString platform := by
  unfold Config.toWgQuickString Interface.toWgQuickString
  dsimp only
  rw [entries_withoutSearchDomains platform hservers]

end WindscribeVpn.Backend.WgQuick
