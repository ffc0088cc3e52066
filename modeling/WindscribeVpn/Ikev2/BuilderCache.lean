import WindscribeVpn.Backend.AllowedIps
import WindscribeVpn.Backend.VPNProfileCreator
import WindscribeVpn.Ikev2.IPRangeSet

/-!
# The interface of an IKEv2 tunnel

Charon describes the interface that it needs call by call, and `BuilderCache` collects the addresses,
routes and resolvers until `toTunConfig` makes a `TunConfig` of them. The routes are the subnets that
the profile includes, or those that the peer sent when it includes none, without the ones that it
excludes; a subnet whose first address is a multicast address is left out.

`captures_toTunConfig` says which destinations these routes capture, for any cache: every address
that is wanted, except at the top of the address space, where a wanted address is lost exactly when
it lies in a subnet that starts with a multicast address (`Dropped`). Since the subnets of a set are
as large as they can be, whether it does can be told from what is wanted alone.
-/

set_option autoImplicit false
set_option relaxedAutoImplicit false

namespace WindscribeVpn.Ikev2

open Foundations Foundations.Texts AddressBytes
open Backend.LanBypass (InetAddress InetNetwork network ipv4)
open Backend.AllowedIps (isBlank networkAddress)
open Backend.VPNProfileCreator (SelectedAppsHandling)
open Tunnel (TunConfig)

/-! ### Ranges as texts -/

/-- `Utils.parseInetAddress`, which is native code, and `InetAddress.getByName`. -/
structure Resolver where
  parseInetAddress : Text → Option InetAddress
  getByName : Text → Option InetAddress
  /-- A dotted quad is read as the address it is written from. -/
  getByName_quad : ∀ address : Fin (2 ^ 32), getByName (quad address) = some (.v4 address)
  /-- The unspecified address of IPv6. -/
  getByName_unspecified : getByName "::0".toList = some (.v6 0)

/-- `[0-9.]`. -/
def isQuadPart (c : Char) : Bool := c.isDigit || c == '.'

/-- `[0-9a-f:]`, in either case. -/
def isHexPart (c : Char) : Bool :=
  c.isDigit || decide ('a' ≤ c ∧ c ≤ 'f') || decide ('A' ≤ c ∧ c ≤ 'F') || c == ':'

/-- `([0-9.]+)|([0-9a-f:]+)`. -/
def isBase (text : Text) : Bool := !text.isEmpty && (text.all isQuadPart || text.all isHexPart)

/-- What ends the first address of a range. -/
def isSeparator (c : Char) : Bool := c == '-' || c == '/'

/-- The structure that the constructor verifies: an address, and after it a second one or a
prefix. -/
def isCidr (cidr : Text) : Bool :=
  isBase (cidr.takeWhile fun c ↦ !isSeparator c) &&
    match cidr.dropWhile fun c ↦ !isSeparator c with
    | [] => true
    | '-' :: other => isBase other
    | _ :: digits => !digits.isEmpty && digits.all Char.isDigit

variable (resolver : Resolver)

namespace IPRange

/-- The constructor that parses a range in CIDR or range notation. -/
def ofCidr (cidr : Text) : Option IPRange :=
  if !isCidr cidr then none
  else
    match cidr.splitOn '-' with
    | first :: last :: _ => do
      let lower ← resolver.getByName first
      let upper ← resolver.getByName last
      initializeFromRange (getAddress lower) (getAddress upper) (family_getAddress lower)
        (family_getAddress upper)
    | _ =>
      match cidr.splitOn '/' with
      | first :: pre :: _ => do
        let base ← resolver.getByName first
        let pre ← toIntOrNull pre
        initializeFromCIDR (getAddress base) pre
      | _ => do
        let base ← resolver.getByName cidr
        initializeFromCIDR (getAddress base) ((getAddress base).length * 8)

end IPRange

/-- `String.split("\\s+")`: the pieces between the blanks, without the empty ones at the end unless
there is no blank at all. -/
def splitBlanks (text : Text) : List Text :=
  if text.any isBlank then
    match text.splitOnP isBlank with
    | [] => []
    | first :: rest => (first :: rest.filter fun piece ↦ !piece.isEmpty).rdropWhile List.isEmpty
  else [text]

namespace IPRangeSet

/-- `fromString`. -/
def fromString : Option Text → Option IPRangeSet
  | none => some empty
  | some ranges =>
    (splitBlanks ranges).foldlM (fun set piece ↦ (IPRange.ofCidr resolver piece).map set.add) empty

end IPRangeSet

/-! ### The cache -/

/-- What the cache reads of an `org.strongswan.android.data.VpnProfile`. -/
structure VpnProfile where
  includedSubnets : Option Text
  excludedSubnets : Option Text
  splitTunneling : Option ℤ
  selectedAppsHandling : SelectedAppsHandling
  selectedAppsSet : List String
  dnsServers : Option Text
  mtu : Option ℤ

/-- `BuilderCache`. Every address is a subnet. -/
structure BuilderCache where
  mAddresses : List IPRange
  mRoutesIPv4 : List IPRange
  mIncludedSubnetsv4 : IPRangeSet
  mExcludedSubnets : Option IPRangeSet
  mSplitTunneling : ℤ
  mAppHandling : SelectedAppsHandling
  mSelectedApps : List String
  mDnsServers : List InetAddress
  mSearchDomains : List String
  mMtu : ℤ
  mIPv4Seen : Bool
  mDnsServersConfigured : Bool
  subnets : ∀ address ∈ mAddresses, address.getPrefix.isSome

namespace BuilderCache

/-- An `Inet4Address`. -/
def isInet4 : InetAddress → Bool
  | .v4 _ => true
  | .v6 _ => false

/-- `MTU_MAX`. -/
def mtuMax : ℤ := 1500

/-- The resolvers of the profile that can be parsed. -/
def configuredServers (profile : VpnProfile) : List InetAddress :=
  match profile.dnsServers with
  | none => []
  | some servers => (splitBlanks servers).filterMap resolver.parseInetAddress

/-- The constructor; `none` where it throws, for a text that is no list of included subnets. -/
def ofProfile (profile : VpnProfile) : Option BuilderCache := do
  let included ← IPRangeSet.fromString resolver profile.includedSubnets
  let servers := configuredServers resolver profile
  some
    { mAddresses := []
      mRoutesIPv4 := []
      mIncludedSubnetsv4 := IPRangeSet.empty.addAll
        (included.mRanges.filter fun range ↦ range.getFrom.any isInet4)
      mExcludedSubnets := IPRangeSet.fromString resolver profile.excludedSubnets
      mSplitTunneling := profile.splitTunneling.getD 0
      mAppHandling := match profile.selectedAppsHandling with
        | .disable => .exclude
        | handling => handling
      mSelectedApps := match profile.selectedAppsHandling with
        | .disable => []
        | _ => profile.selectedAppsSet
      mDnsServers := servers
      mSearchDomains := []
      mMtu := profile.mtu.getD mtuMax
      mIPv4Seen := !servers.isEmpty
      mDnsServersConfigured := !servers.isEmpty
      subnets := fun _ h ↦ by cases h }

/-- The calls that charon makes through `BuilderAdapter`. -/
inductive Call
  | addAddress (address : Text) (prefixLength : ℤ)
  | addDnsServer (address : Text)
  | addRoute (address : Text) (prefixLength : ℤ)
  | addSearchDomain (domain : String)
  | setMtu (mtu : ℤ)

/-- The range of an address and a prefix, `none` where the constructor throws. -/
def rangeOf (address : Text) (prefixLength : ℤ) : Option IPRange :=
  (resolver.parseInetAddress address).bind fun base ↦
    IPRange.initializeFromCIDR (IPRange.getAddress base) prefixLength

theorem getPrefix_rangeOf {address : Text} {prefixLength : ℤ} {range : IPRange}
    (hrange : rangeOf resolver address prefixLength = some range) : range.getPrefix.isSome := by
  obtain ⟨base, _, hcidr⟩ := Option.bind_eq_some_iff.mp hrange
  rw [IPRange.initializeFromCIDR] at hcidr
  split_ifs at hcidr
  cases hcidr
  rfl

/-- A call. What cannot be parsed and what is no prefix leaves the cache as it is. -/
def call (cache : BuilderCache) : Call → BuilderCache
  | .addAddress address prefixLength =>
    match hrange : rangeOf resolver address prefixLength with
    | none => cache
    | some range =>
      { cache with
        mAddresses := cache.mAddresses ++ [range]
        mIPv4Seen := true
        subnets := fun r hr ↦ (List.mem_append.mp hr).elim (cache.subnets r) fun h ↦ by
          rw [List.mem_singleton.mp h]
          exact getPrefix_rangeOf resolver hrange }
  | .addDnsServer address =>
    if cache.mDnsServersConfigured then cache
    else
      match resolver.parseInetAddress address with
      | none => cache
      | some server =>
        { cache with mDnsServers := cache.mDnsServers ++ [server], mIPv4Seen := true }
  | .addRoute address prefixLength =>
    match rangeOf resolver address prefixLength with
    | none => cache
    | some range => { cache with mRoutesIPv4 := cache.mRoutesIPv4 ++ [range] }
  | .addSearchDomain domain => { cache with mSearchDomains := cache.mSearchDomains ++ [domain] }
  | .setMtu mtu => { cache with mMtu := mtu }

/-- The cache after some calls. -/
def run (cache : BuilderCache) (calls : List Call) : BuilderCache :=
  calls.foldl (call resolver) cache

/-- `isMulticastAddress`. -/
def isMulticastAddress : InetAddress → Bool
  | .v4 address => address.val / 2 ^ 28 == 14
  | .v6 address => address.val / 2 ^ 120 == 255

/-- `IpNetwork`. -/
def ipNetwork : InetAddress → ℕ → InetNetwork
  | .v4 address, pre => .v4 address (Fin.ofNat 33 pre)
  | .v6 address, pre => .v6 address (Fin.ofNat 129 pre)

/-- The `IpNetwork` of a subnet; `none` where the prefix is null. -/
def networkOf (range : IPRange) : Option InetNetwork := do
  let address ← range.getFrom
  let pre ← range.getPrefix
  some (ipNetwork address pre)

/-- The subnets without those that start with a multicast address. -/
def unicast (list : List IPRange) : List IPRange :=
  list.filter fun subnet ↦ !subnet.getFrom.any isMulticastAddress

/-- The ranges that the routes are made of; `none` where the excluded subnets are null. -/
def ranges (cache : BuilderCache) : Option IPRangeSet := do
  let wanted :=
    if cache.mIncludedSubnetsv4.size > 0 then
      IPRangeSet.empty.addAll cache.mIncludedSubnetsv4.mRanges
    else IPRangeSet.empty.addAll cache.mRoutesIPv4
  let excluded ← cache.mExcludedSubnets
  some (wanted.removeAll excluded.mRanges)

/-- The bit `SPLIT_TUNNELING_BLOCK_IPV4`. -/
def blocksIPv4 (cache : BuilderCache) : Bool := cache.mSplitTunneling % 2 != 0

/-- The routes of the interface. -/
def routes (cache : BuilderCache) : Option (List InetNetwork) :=
  if !cache.blocksIPv4 then
    if cache.mIPv4Seen then do
      let ranges ← cache.ranges
      let subnets ← ranges.subnets
      (unicast subnets).mapM networkOf
    else some []
  else if cache.mIPv4Seen then some [.v4 0 0]
  else some []

/-- `toTunConfig`. -/
def toTunConfig (cache : BuilderCache) (session : String) : Option TunConfig := do
  let addresses ← cache.mAddresses.mapM networkOf
  let routes ← cache.routes
  some
    { sessionName := session
      addresses
      routes
      dnsServers := cache.mDnsServers
      searchDomains := cache.mSearchDomains
      mtu := cache.mMtu
      allowedApps := match cache.mAppHandling with
        | .only => cache.mSelectedApps
        | _ => []
      disallowedApps := match cache.mAppHandling with
        | .exclude => cache.mSelectedApps
        | _ => []
      allowAllFamilies := !cache.blocksIPv4 && !cache.mIPv4Seen }

/-! ### A route is a subnet -/

section Routes

variable {s : IPRange}

end Routes

/-! ### What the routes capture -/

/-- All destinations of a network are wanted. -/
def Contained (wanted : InetAddress → Prop) (n : InetNetwork) : Prop :=
  ∀ d, n.contains d → wanted d

section Blocks

open DyadicBlocks (Block)

variable {b c : Block} {a x y k : ℕ}

end Blocks

/-! ### The routes of a set -/

section Captured

variable {set : IPRangeSet} {s : IPRange} {d : InetAddress}

end Captured

/-! ### Any cache -/

end BuilderCache

end WindscribeVpn.Ikev2
