import WindscribeVpn.Foundations.LinkedSets
import Mathlib.Algebra.Order.Ring.Nat
import Mathlib.Data.Fin.Basic
import Mathlib.Data.Nat.Notation
import Mathlib.Order.Nat
import Mathlib.Tactic.SplitIfs
import Mathlib.Tactic.Push

/-!
# LAN bypass over a custom WireGuard config

Two modules decide what a custom WireGuard config captures. `createModifiedPeersForLanBypass` in
`VPNProfileCreator` replaces `0.0.0.0/0` in the allowed networks of a peer by the prefixes of the
public address space, so that the private ranges stay on the physical interface. `toTunConfig` in
`WireGuardTunConfigMapper` turns the peers into routes and infers from a default route of a single
peer that the address families without an address are to be blocked.

`ReleasesOnlyLan` compares the interface that one config gives with the setting off and with it on:
what is captured or blocked in the first is captured or blocked in the second, the LAN excepted. For
IPv4 this always holds, since the public prefixes leave out nothing but the LAN
(`covered_of_not_lan`). But with the default route gone the families are no longer blocked, and a
config without an IPv6 address releases IPv6 (`not_releasesOnlyLan_singlePeer`).
`releasesOnlyLan_iff` says exactly for which configs that happens.

The allowed networks pass through their text on the way (`joinToString`, `split`, the sets of
strings in `modifyAllowedIpsIPv4Only`, `parseAllowedIPs`). The text of a network determines it and
is read back as the same network, and an IPv6 network is the one with a colon in its text, so the
model keeps the networks themselves.
-/

set_option autoImplicit false
set_option relaxedAutoImplicit false

namespace WindscribeVpn.Backend.LanBypass

open Foundations

/-! ### Addresses and networks -/

/-- `InetAddress`, as a number. -/
inductive InetAddress
  | v4 (address : Fin (2 ^ 32))
  | v6 (address : Fin (2 ^ 128))
  deriving DecidableEq, Repr

/-- `InetNetwork`, and `IpNetwork` in a `TunConfig`: an address of which the first bits count. -/
inductive InetNetwork
  | v4 (address : Fin (2 ^ 32)) (mask : Fin 33)
  | v6 (address : Fin (2 ^ 128)) (mask : Fin 129)
  deriving DecidableEq, Repr

/-! Prefix lengths and addresses of IPv6 may be written as numerals. -/

instance neZeroMaskV4 : NeZero 33 := ⟨by decide⟩

instance neZeroMaskV6 : NeZero 129 := ⟨by decide⟩

instance neZeroAddressV6 : NeZero (2 ^ 128) := ⟨by decide⟩

/-- The length of the prefix. -/
def InetNetwork.mask : InetNetwork → ℕ
  | .v4 _ mask => mask
  | .v6 _ mask => mask

/-- Whether an address lies in a network. -/
def InetNetwork.contains : InetNetwork → InetAddress → Prop
  | .v4 address mask, .v4 d =>
    d.val / 2 ^ (32 - mask.val) = address.val / 2 ^ (32 - mask.val)
  | .v6 address mask, .v6 d =>
    d.val / 2 ^ (128 - mask.val) = address.val / 2 ^ (128 - mask.val)
  | _, _ => False

/-- Whether a network is of the family of an address. -/
def InetNetwork.sameFamily : InetNetwork → InetAddress → Bool
  | .v4 _ _, .v4 _ | .v6 _ _, .v6 _ => true
  | _, _ => false

/-- A dotted address. -/
def ipv4 (a b c d : ℕ) : Fin (2 ^ 32) := Fin.ofNat (2 ^ 32) (((a * 256 + b) * 256 + c) * 256 + d)

/-- A dotted address with a prefix length. -/
def network (a b c d : ℕ) (mask : Fin 33) : InetNetwork := .v4 (ipv4 a b c d) mask

/-- `0.0.0.0/0`. -/
def ipv4Wildcard : InetNetwork := network 0 0 0 0 0

/-- `::/0`. -/
def ipv6Wildcard : InetNetwork := .v6 0 0

/-- `TunConfig.PUBLIC_ROUTES_V4`. -/
def publicRoutesV4 : List InetNetwork :=
  [network 0 0 0 0 5, network 8 0 0 0 7, network 11 0 0 0 8, network 12 0 0 0 6,
    network 16 0 0 0 4, network 32 0 0 0 3, network 64 0 0 0 2, network 128 0 0 0 3,
    network 160 0 0 0 5, network 168 0 0 0 6, network 172 0 0 0 12, network 172 32 0 0 11,
    network 172 64 0 0 10, network 172 128 0 0 9, network 173 0 0 0 8, network 174 0 0 0 7,
    network 176 0 0 0 4, network 192 0 0 0 9, network 192 128 0 0 11, network 192 160 0 0 13,
    network 192 169 0 0 16, network 192 170 0 0 15, network 192 172 0 0 14, network 192 176 0 0 12,
    network 192 192 0 0 10, network 193 0 0 0 8, network 194 0 0 0 7, network 196 0 0 0 6,
    network 200 0 0 0 5, network 208 0 0 0 4]

/-- `publicIpV4Array`, whose second entry is `::0/0`. -/
def publicIpV4Array : List InetNetwork :=
  publicRoutesV4 ++ [ipv6Wildcard, network 10 255 255 0 24]

/-! ### The config and its peers -/

/-- `Peer`; keys and the endpoint are texts. -/
structure Peer where
  publicKey : String
  allowedIps : List InetNetwork
  endpoint : Option String
  persistentKeepalive : Option ℕ
  preSharedKey : Option String
  deriving DecidableEq, Repr

/-- What a custom config says about addresses, routes and peers. -/
structure Config where
  addresses : List InetNetwork
  peers : List Peer
  deriving DecidableEq, Repr

/-- Whether a network is of IPv6, which its text shows by a colon. -/
def InetNetwork.isV6 : InetNetwork → Bool
  | .v4 _ _ => false
  | .v6 _ _ => true

/-- Adds a network to a `LinkedHashSet`. -/
def addNew (output : List InetNetwork) (network : InetNetwork) : List InetNetwork :=
  if network ∈ output then output else output ++ [network]

/-- One turn of the loop of `modifyAllowedIpsIPv4Only`. -/
def modifyStep (ipv4PublicNetworks : List InetNetwork) (state : List InetNetwork × Bool)
    (network : InetNetwork) : List InetNetwork × Bool :=
  let (output, replaced) := state
  if network = ipv4Wildcard then
    if replaced then (output, true) else (ipv4PublicNetworks.foldl addNew output, true)
  else (addNew output network, replaced)

/-- `modifyAllowedIpsIPv4Only`; its callers pass no DNS routes. -/
def modifyAllowedIpsIPv4Only (allowedIps : List InetNetwork) : List InetNetwork :=
  let ipv4PublicNetworks := publicIpV4Array.filter fun network ↦ !network.isV6
  (allowedIps.foldl (modifyStep ipv4PublicNetworks) ([], false)).1

/-- The allowed networks that a peer is rebuilt with. -/
def modifiedAllowedIps (allowedIps : List InetNetwork) : List InetNetwork :=
  let ipv4Parts := allowedIps.filter fun network ↦ !network.isV6
  let ipv6Parts := allowedIps.filter fun network ↦ network.isV6
  modifyAllowedIpsIPv4Only ipv4Parts ++ ipv6Parts

/-- One peer of `createModifiedPeersForLanBypass`; `none` when it throws, which `parseAllowedIPs`
does on an empty text. -/
def modifiedPeer (peer : Peer) : Option Peer :=
  if peer.allowedIps = [] then none
  else some { peer with allowedIps := modifiedAllowedIps peer.allowedIps }

/-- `createModifiedPeersForLanBypass`. -/
def createModifiedPeersForLanBypass (lanByPass : Bool) (originalPeers : List Peer) :
    Option (List Peer) :=
  if lanByPass then originalPeers.mapM modifiedPeer else some originalPeers

/-! ### The interface -/

/-- The fields of `TunConfig` that say what is captured and what is blocked. -/
structure TunConfig where
  addresses : List InetNetwork
  routes : List InetNetwork
  allowAllFamilies : Bool
  deriving DecidableEq, Repr

/-- `WireGuardTunConfigMapper.toTunConfig`. -/
def toTunConfig (config : Config) : TunConfig :=
  let hasIpV6Address := config.addresses.any InetNetwork.isV6
  let allowed := config.peers.flatMap Peer.allowedIps
  let sawDefaultRoute := allowed.any fun network ↦ network.mask == 0
  { addresses := config.addresses
    routes := allowed.filter fun network ↦ decide (network ≠ ipv6Wildcard) || hasIpV6Address
    allowAllFamilies := !(sawDefaultRoute && config.peers.length == 1) }

/-- The interface that a custom config gives; `none` when the profile cannot be built. -/
def tunConfigOf (lanByPass : Bool) (config : Config) : Option TunConfig :=
  (createModifiedPeersForLanBypass lanByPass config.peers).map fun peers ↦
    toTunConfig { config with peers }

/-! ### The promise -/

/-- A destination goes into a route of the interface. -/
def TunConfig.captures (tun : TunConfig) (d : InetAddress) : Prop :=
  ∃ route ∈ tun.routes, route.contains d

/-- A destination is of a family without an address, and the families are not let through. -/
def TunConfig.blocks (tun : TunConfig) (d : InetAddress) : Prop :=
  (∀ address ∈ tun.addresses, address.sameFamily d = false) ∧ tun.allowAllFamilies = false

/-- The destinations that LAN bypass is to release: the private ranges without the addresses of the
VPN's own resolver, and everything from multicast upwards. -/
def Lan : InetAddress → Prop
  | .v4 d =>
    ((network 10 0 0 0 8).contains (.v4 d) ∧ ¬ (network 10 255 255 0 24).contains (.v4 d)) ∨
      (network 172 16 0 0 12).contains (.v4 d) ∨ (network 192 168 0 0 16).contains (.v4 d) ∨
      ipv4 224 0 0 0 ≤ d
  | .v6 _ => False

/-- Turning LAN bypass on releases nothing but the LAN. -/
def ReleasesOnlyLan (config : Config) : Prop :=
  ∀ off on, tunConfigOf false config = some off → tunConfigOf true config = some on →
    ∀ d, off.captures d ∨ off.blocks d → on.captures d ∨ on.blocks d ∨ Lan d

/-- The configs that release more: one peer, no IPv6 address, `0.0.0.0/0` the only default route of
the peer, and an IPv6 destination that none of its networks contains. -/
structure Leaks (config : Config) : Prop where
  noAddress : config.addresses.any InetNetwork.isV6 = false
  peer : ∃ peer, config.peers = [peer] ∧ ipv4Wildcard ∈ peer.allowedIps ∧
    (∀ network ∈ peer.allowedIps, network.mask = 0 → network = ipv4Wildcard) ∧
    ∃ d, ∀ network ∈ peer.allowedIps, ¬ network.contains (.v6 d)

/-! ### The public prefixes leave out the LAN only -/

/-- The half-open interval of the numbers of an IPv4 network whose address has no bits past its
prefix. -/
def InetNetwork.interval : InetNetwork → ℕ × ℕ
  | .v4 address mask => (address.val, address.val + 2 ^ (32 - mask.val))
  | .v6 _ _ => (0, 0)

/-- Networks that follow one another without a gap, from a number up to another. -/
def chained : ℕ → List InetNetwork → ℕ → Bool
  | lo, [], hi => decide (hi ≤ lo)
  | lo, n :: rest, hi => n.interval.1 == lo && chained n.interval.2 rest hi

/-- Every number in between lies in one of the networks of a chain. -/
theorem exists_of_chained {networks : List InetNetwork} {lo hi : ℕ} {d : ℕ}
    (hchained : chained lo networks hi = true) (hlo : lo ≤ d) (hhi : d < hi) :
    ∃ n ∈ networks, n.interval.1 ≤ d ∧ d < n.interval.2 := by
  induction networks generalizing lo with
  | nil => exact absurd (hhi.trans_le (of_decide_eq_true hchained)) (not_lt.mpr hlo)
  | cons n rest ih =>
    rw [chained, Bool.and_eq_true, beq_iff_eq] at hchained
    by_cases hnext : n.interval.2 ≤ d
    · obtain ⟨m, hmem, hm⟩ := ih hchained.2 hnext
      exact ⟨m, List.mem_cons_of_mem _ hmem, hm⟩
    · exact ⟨n, List.mem_cons_self, hchained.1.le.trans hlo, not_le.mp hnext⟩

/-- The address of a network has no bits past its prefix. -/
def InetNetwork.aligned : InetNetwork → Bool
  | .v4 address mask => address.val % 2 ^ (32 - mask.val) == 0
  | .v6 _ _ => false

/-- An aligned network contains exactly its interval. -/
theorem contains_iff_interval {n : InetNetwork} (haligned : n.aligned = true)
    (d : Fin (2 ^ 32)) : n.contains (.v4 d) ↔ n.interval.1 ≤ d.val ∧ d.val < n.interval.2 := by
  cases n with
  | v6 address mask => cases haligned
  | v4 address mask =>
    simp only [InetNetwork.aligned, beq_iff_eq] at haligned
    simp only [InetNetwork.contains, InetNetwork.interval]
    have hpos : 0 < 2 ^ (32 - mask.val) := Nat.two_pow_pos _
    generalize 2 ^ (32 - mask.val) = size at haligned hpos ⊢
    have hexact : size * (address.val / size) = address.val :=
      Nat.mul_div_cancel' (Nat.dvd_of_mod_eq_zero haligned)
    constructor
    · intro hsame
      have hsplit := Nat.div_add_mod d.val size
      have hrest := Nat.mod_lt d.val hpos
      rw [hsame, hexact] at hsplit
      omega
    · rintro ⟨hlo, hhi⟩
      refine Nat.div_eq_of_lt_le ?_ ?_
      · rw [Nat.mul_comm, hexact]
        exact hlo
      · rw [Nat.succ_mul, Nat.mul_comm, hexact]
        exact hhi

/-- The networks that replace `0.0.0.0/0`. -/
def ipv4PublicNetworks : List InetNetwork := publicIpV4Array.filter fun network ↦ !network.isV6

theorem aligned_of_mem {n : InetNetwork} (hmem : n ∈ ipv4PublicNetworks) : n.aligned = true := by
  have hall : ∀ n ∈ ipv4PublicNetworks, n.aligned = true := by decide
  exact hall n hmem

/-- A run of the public networks without a gap. -/
theorem covered_of_chained (lo : ℕ) (networks : List InetNetwork) (hi : ℕ)
    (hsub : networks ⊆ ipv4PublicNetworks) (hchained : chained lo networks hi = true)
    {d : Fin (2 ^ 32)} (hlo : lo ≤ d.val) (hhi : d.val < hi) :
    ∃ n ∈ ipv4PublicNetworks, n.contains (.v4 d) := by
  obtain ⟨n, hmem, hinterval⟩ := exists_of_chained hchained hlo hhi
  exact ⟨n, hsub hmem, (contains_iff_interval (aligned_of_mem (hsub hmem)) d).mpr hinterval⟩

/-- Every IPv4 destination off the LAN lies in one of the public networks. -/
theorem covered_of_not_lan {d : Fin (2 ^ 32)} (hlan : ¬ Lan (.v4 d)) :
    ∃ n ∈ ipv4PublicNetworks, n.contains (.v4 d) := by
  simp only [Lan, not_or, not_and, not_not] at hlan
  obtain ⟨hten, htwelve, hsixteen, hmulticast⟩ := hlan
  have hresolver : network 10 255 255 0 24 ∈ ipv4PublicNetworks := by decide
  rw [contains_iff_interval (by decide)] at hten htwelve hsixteen
  have htop : d.val < 224 * 2 ^ 24 := not_le.mp hmulticast
  -- The gaps of the chain are the private ranges, met in the order of their addresses.
  rcases lt_or_ge d.val (10 * 2 ^ 24) with hbelow | hbelow
  · exact covered_of_chained 0 (publicRoutesV4.take 2) _ (by decide) (by decide)
      (Nat.zero_le _) hbelow
  rcases lt_or_ge d.val (11 * 2 ^ 24) with hin | hin
  · exact ⟨_, hresolver, hten ⟨hbelow, hin⟩⟩
  rcases lt_or_ge d.val (172 * 2 ^ 24 + 16 * 2 ^ 16) with hbelow | hbelow
  · exact covered_of_chained _ ((publicRoutesV4.drop 2).take 9) _ (by decide) (by decide) hin
      hbelow
  rcases lt_or_ge d.val (172 * 2 ^ 24 + 32 * 2 ^ 16) with hin | hin
  · exact absurd ⟨hbelow, hin⟩ htwelve
  rcases lt_or_ge d.val (192 * 2 ^ 24 + 168 * 2 ^ 16) with hbelow | hbelow
  · exact covered_of_chained _ ((publicRoutesV4.drop 11).take 9) _ (by decide) (by decide) hin
      hbelow
  rcases lt_or_ge d.val (192 * 2 ^ 24 + 169 * 2 ^ 16) with hin | hin
  · exact absurd ⟨hbelow, hin⟩ hsixteen
  · exact covered_of_chained _ (publicRoutesV4.drop 20) _ (by decide) (by decide) hin htop

/-! ### What the rewriting keeps -/

variable {n : InetNetwork}

theorem modifyStep_eq : modifyStep = LinkedSets.replaceStep ipv4Wildcard := rfl

/-- What the loop of `modifyAllowedIpsIPv4Only` has put out. -/
theorem mem_foldl_modifyStep (replacements input : List InetNetwork) (output : List InetNetwork)
    (replaced : Bool) :
    n ∈ (input.foldl (modifyStep replacements) (output, replaced)).1 ↔
      n ∈ output ∨ (n ∈ input ∧ n ≠ ipv4Wildcard) ∨
        (ipv4Wildcard ∈ input ∧ replaced = false ∧ n ∈ replacements) := by
  rw [modifyStep_eq]
  exact LinkedSets.mem_foldl_replaceStep replacements input output replaced

/-- The rewriting keeps every network but `0.0.0.0/0`, and puts the public ones in its place. -/
theorem mem_modifiedAllowedIps (allowedIps : List InetNetwork) :
    n ∈ modifiedAllowedIps allowedIps ↔
      (n ∈ allowedIps ∧ n ≠ ipv4Wildcard) ∨
        (ipv4Wildcard ∈ allowedIps ∧ n ∈ ipv4PublicNetworks) := by
  have hwild : ipv4Wildcard.isV6 = false := rfl
  rw [modifiedAllowedIps, List.mem_append, modifyAllowedIpsIPv4Only, mem_foldl_modifyStep,
    ← ipv4PublicNetworks]
  simp only [List.mem_filter, List.not_mem_nil, false_or, hwild, Bool.not_false, and_true,
    true_and]
  cases n with
  | v4 address mask => simp [InetNetwork.isV6]
  | v6 address mask =>
    have hne : InetNetwork.v6 address mask ≠ ipv4Wildcard := nofun
    simp [InetNetwork.isV6, hne, or_comm]

/-! ### The two interfaces -/

/-- A peer as it is rebuilt. -/
def rebuilt (peer : Peer) : Peer := { peer with allowedIps := modifiedAllowedIps peer.allowedIps }

theorem mapM_modifiedPeer {peers modified : List Peer}
    (hmap : peers.mapM modifiedPeer = some modified) :
    modified = peers.map rebuilt := by
  induction peers generalizing modified with
  | nil => simpa using hmap.symm
  | cons peer rest ih =>
    rw [List.mapM_cons] at hmap
    simp only [Option.bind_eq_bind, Option.bind_eq_some_iff, Option.pure_def] at hmap
    obtain ⟨first, hfirst, others, hothers, hlast⟩ := hmap
    rw [modifiedPeer] at hfirst
    split_ifs at hfirst
    rw [← Option.some.inj hlast, ih hothers, ← Option.some.inj hfirst]
    rfl

theorem tunConfigOf_off {config : Config} {off : TunConfig}
    (hoff : tunConfigOf false config = some off) :
    off = toTunConfig config := (Option.some.inj hoff).symm

theorem tunConfigOf_on {config : Config} {on : TunConfig}
    (hon : tunConfigOf true config = some on) :
    on = toTunConfig { config with peers := config.peers.map rebuilt } := by
  rw [tunConfigOf, Option.map_eq_some_iff] at hon
  obtain ⟨peers, hpeers, rfl⟩ := hon
  rw [mapM_modifiedPeer hpeers]

/-- A route of the interface is an allowed network of a peer, `::/0` apart when there is no IPv6
address. -/
theorem mem_routes (config : Config) :
    n ∈ (toTunConfig config).routes ↔ (∃ peer ∈ config.peers, n ∈ peer.allowedIps) ∧
      (n ≠ ipv6Wildcard ∨ config.addresses.any InetNetwork.isV6 = true) := by
  simp only [toTunConfig, List.mem_filter, List.mem_flatMap, Bool.or_eq_true, decide_eq_true_eq]

/-- Families are let through unless a single peer carries a default route. -/
theorem allowAllFamilies_eq_false (config : Config) :
    (toTunConfig config).allowAllFamilies = false ↔
      ∃ peer, config.peers = [peer] ∧ ∃ network ∈ peer.allowedIps, network.mask = 0 := by
  simp only [toTunConfig, Bool.not_eq_false', Bool.and_eq_true, List.any_eq_true, List.mem_flatMap,
    beq_iff_eq, List.length_eq_one_iff]
  constructor
  · rintro ⟨⟨network, ⟨peer, hpeer, hmem⟩, hmask⟩, single, hsingle⟩
    rw [hsingle, List.mem_singleton] at hpeer
    exact ⟨single, hsingle, network, hpeer ▸ hmem, hmask⟩
  · rintro ⟨peer, hpeers, network, hmem, hmask⟩
    exact ⟨⟨network, ⟨peer, hpeers ▸ List.mem_singleton_self peer, hmem⟩, hmask⟩, peer, hpeers⟩

/-- With the setting on a destination off the LAN is captured where `0.0.0.0/0` was allowed. -/
theorem captures_on_of_wildcard {config : Config} {peer : Peer} (hpeer : peer ∈ config.peers)
    (hwild : ipv4Wildcard ∈ peer.allowedIps) {d : Fin (2 ^ 32)} (hlan : ¬ Lan (.v4 d)) :
    (toTunConfig { config with peers := config.peers.map rebuilt }).captures (.v4 d) := by
  obtain ⟨n, hmem, hcontains⟩ := covered_of_not_lan hlan
  refine ⟨n, (mem_routes _).mpr ⟨⟨rebuilt peer, List.mem_map_of_mem hpeer, ?_⟩, Or.inl ?_⟩,
    hcontains⟩
  · exact (mem_modifiedAllowedIps _).mpr (Or.inr ⟨hwild, hmem⟩)
  · rintro rfl
    exact hcontains

/-- With the setting on an allowed network other than `0.0.0.0/0` is a route as before. -/
theorem mem_routes_on {config : Config} {peer : Peer} (hpeer : peer ∈ config.peers)
    (hmem : n ∈ peer.allowedIps) (hne : n ≠ ipv4Wildcard)
    (hroutable : n ≠ ipv6Wildcard ∨ config.addresses.any InetNetwork.isV6 = true) :
    n ∈ (toTunConfig { config with peers := config.peers.map rebuilt }).routes :=
  (mem_routes _).mpr ⟨⟨rebuilt peer, List.mem_map_of_mem hpeer,
    (mem_modifiedAllowedIps _).mpr (Or.inl ⟨hmem, hne⟩)⟩, hroutable⟩

/-- What is captured with the setting off is captured with it on, the LAN excepted. -/
theorem captures_on {config : Config} {d : InetAddress} (hoff : (toTunConfig config).captures d) :
    (toTunConfig { config with peers := config.peers.map rebuilt }).captures d ∨ Lan d := by
  obtain ⟨route, hroute, hcontains⟩ := hoff
  obtain ⟨⟨peer, hpeer, hmem⟩, hroutable⟩ := (mem_routes config).mp hroute
  by_cases hwild : route = ipv4Wildcard
  · subst hwild
    cases d with
    | v6 d => exact hcontains.elim
    | v4 d =>
      by_cases hlan : Lan (.v4 d)
      · exact Or.inr hlan
      · exact Or.inl (captures_on_of_wildcard hpeer hmem hlan)
  · exact Or.inl ⟨route, mem_routes_on hpeer hmem hwild hroutable, hcontains⟩

/-- A blocked destination stays blocked or is captured unless the config leaks. -/
theorem blocks_on {config : Config} (hleaks : ¬ Leaks config) {d : InetAddress}
    (hoff : (toTunConfig config).blocks d) :
    (toTunConfig { config with peers := config.peers.map rebuilt }).captures d ∨
      (toTunConfig { config with peers := config.peers.map rebuilt }).blocks d ∨ Lan d := by
  obtain ⟨hfamily, hblocks⟩ := hoff
  obtain ⟨peer, hpeers, default, hdefault, hmask⟩ := (allowAllFamilies_eq_false config).mp hblocks
  have hpeer : peer ∈ config.peers := hpeers ▸ List.mem_singleton_self peer
  by_cases hother : ∃ network ∈ peer.allowedIps, network.mask = 0 ∧ network ≠ ipv4Wildcard
  · obtain ⟨network, hmem, hzero, hne⟩ := hother
    refine Or.inr (Or.inl ⟨hfamily, (allowAllFamilies_eq_false _).mpr ⟨rebuilt peer, ?_, network,
      (mem_modifiedAllowedIps _).mpr (Or.inl ⟨hmem, hne⟩), hzero⟩⟩)
    rw [hpeers]
    rfl
  · push Not at hother
    have hwild : ipv4Wildcard ∈ peer.allowedIps := hother default hdefault hmask ▸ hdefault
    cases d with
    | v4 d =>
      by_cases hlan : Lan (.v4 d)
      · exact Or.inr (Or.inr hlan)
      · exact Or.inl (captures_on_of_wildcard hpeer hwild hlan)
    | v6 d =>
      -- No IPv6 address, and no default route is left: only an explicit route can capture `d`.
      have hno : config.addresses.any InetNetwork.isV6 = false := by
        rw [List.any_eq_false]
        intro address hmem
        have hsame := hfamily address hmem
        cases address with
        | v4 address mask => exact Bool.false_ne_true
        | v6 address mask => cases hsame
      by_contra hfree
      refine hleaks ⟨hno, peer, hpeers, hwild, hother, d, fun network hmem hcontains ↦ ?_⟩
      refine hfree (Or.inl ⟨network, mem_routes_on hpeer hmem ?_ (Or.inl ?_), hcontains⟩)
      · rintro rfl
        exact hcontains
      · rintro rfl
        exact absurd (hother _ hmem rfl) nofun

/-- A config that leaks lets an IPv6 destination through with the setting on that it blocks with the
setting off. -/
theorem not_releasesOnlyLan {config : Config} (hleaks : Leaks config) :
    ¬ ReleasesOnlyLan config := by
  intro hpromise
  obtain ⟨hno, peer, hpeers, hwild, hdefault, d, houtside⟩ := hleaks
  have hon : tunConfigOf true config =
      some (toTunConfig { config with peers := config.peers.map rebuilt }) := by
    have hnonempty : peer.allowedIps ≠ [] := List.ne_nil_of_mem hwild
    simp [tunConfigOf, createModifiedPeersForLanBypass, hpeers, modifiedPeer, hnonempty, rebuilt]
  have hfamily : ∀ address ∈ config.addresses, address.sameFamily (.v6 d) = false := by
    intro address hmem
    have hv4 := List.any_eq_false.mp hno address hmem
    cases address with
    | v4 address mask => rfl
    | v6 address mask => exact absurd rfl hv4
  have hblocked : (toTunConfig config).blocks (.v6 d) :=
    ⟨hfamily, (allowAllFamilies_eq_false config).mpr ⟨peer, hpeers, _, hwild, rfl⟩⟩
  rcases hpromise _ _ rfl hon (.v6 d) (Or.inr hblocked) with hcaptured | hstill | hlan
  · obtain ⟨route, hroute, hcontains⟩ := hcaptured
    obtain ⟨⟨modified, hmodified, hmem⟩, -⟩ := (mem_routes _).mp hroute
    rw [hpeers, List.map_singleton, List.mem_singleton] at hmodified
    subst hmodified
    rcases (mem_modifiedAllowedIps _).mp hmem with hallowed | hpublic
    · exact houtside route hallowed.1 hcontains
    · have haligned := aligned_of_mem hpublic.2
      cases route with
      | v4 address mask => exact hcontains
      | v6 address mask => cases haligned
  · obtain ⟨modified, hmodified, network, hmem, hmask⟩ :=
      (allowAllFamilies_eq_false _).mp hstill.2
    rw [hpeers, List.map_singleton, List.singleton_inj] at hmodified
    subst hmodified
    rcases (mem_modifiedAllowedIps _).mp hmem with hallowed | hpublic
    · exact hallowed.2 (hdefault network hallowed.1 hmask)
    · have hmasks : ∀ n ∈ ipv4PublicNetworks, n.mask ≠ 0 := by decide
      exact hmasks network hpublic.2 hmask
  · exact hlan

/-- Turning LAN bypass on releases nothing but the LAN exactly for the configs that do not leak. -/
theorem releasesOnlyLan_iff (config : Config) : ReleasesOnlyLan config ↔ ¬ Leaks config := by
  constructor
  · intro hpromise hleaks
    exact not_releasesOnlyLan hleaks hpromise
  · intro hleaks off on hoff hon d hcovered
    rw [tunConfigOf_off hoff] at hcovered
    rw [tunConfigOf_on hon]
    rcases hcovered with hcaptured | hblocked
    · rcases captures_on hcaptured with hstill | hlan
      · exact Or.inl hstill
      · exact Or.inr (Or.inr hlan)
    · exact blocks_on hleaks hblocked

/-- The usual IPv4 config: one peer with `0.0.0.0/0`. With LAN bypass on the interface no longer
blocks IPv6. -/
theorem not_releasesOnlyLan_singlePeer : ¬ ∀ config : Config, ReleasesOnlyLan config := by
  intro hpromise
  let peer : Peer :=
    { publicKey := "U2l4dHkgZm91ciBjaGFyYWN0ZXJzIG9mIGEga2V5Lg=="
      allowedIps := [ipv4Wildcard]
      endpoint := some "198.51.100.7:51820"
      persistentKeepalive := some 25
      preSharedKey := none }
  refine not_releasesOnlyLan ⟨?_, peer, rfl, List.mem_singleton_self _, ?_, 0, ?_⟩
    (hpromise { addresses := [network 100 64 0 2 32], peers := [peer] })
  · rfl
  · intro network hmem _
    exact List.mem_singleton.mp hmem
  · intro network hmem hcontains
    rw [List.mem_singleton.mp hmem] at hcontains
    exact hcontains

end WindscribeVpn.Backend.LanBypass
