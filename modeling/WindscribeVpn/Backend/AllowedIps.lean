import WindscribeVpn.Foundations.Texts
import WindscribeVpn.Tunnel.TunConfig
import Mathlib.Data.List.Dedup

/-!
# Allowed IPs as texts

`modifyAllowedIps` and `modifyAllowedIpsIPv4Only` rewrite a list of networks for LAN bypass. They
work on its text: `Attribute.split` cuts it at the commas, the pieces go through a `HashSet`, whose
order is not known (`HashOrder`), the public prefixes replace `0.0.0.0/0`, and `Attribute.join` puts
the pieces together again with an empty piece at the end when there are no DNS routes.

`mem_split_join` is the lemma on the texts: whatever is joined is found again when the text is
split, the empty pieces apart. With it `modifyAllowedIps_covers` and
`modifyAllowedIpsIPv4Only_covers` say which IPv4 addresses the output covers, and `routesSound`
collects the promise: the output covers the public space and the resolver where `0.0.0.0/0` was
allowed, the public prefixes are disjoint and canonical, IPv6 entries stay, and the blocking
interface with LAN bypass captures the public space.

The entries of a list contain no blanks (`IpList`). Reading a numeric address and writing one are
functions of the platform, of which `Platform` has what is documented.
-/

set_option autoImplicit false
set_option relaxedAutoImplicit false

namespace WindscribeVpn.Backend.AllowedIps

open Foundations Foundations.Texts LanBypass

/-! ### Lists as texts -/

/-- The blanks, `\s`. -/
def isBlank (c : Char) : Bool :=
  c == ' ' || c == '\t' || c == '\n' || c == '\x0B' || c == '\x0C' || c == '\r'

/-- `Attribute.join`. -/
def join (values : List Text) : Text := [',', ' '].intercalate values

/-- Takes the blanks around the commas off the pieces between them; the flag says whether there is a
comma before the first piece. -/
def trimPieces : Bool → List Text → List Text
  | _, [] => []
  | afterComma, [last] => [if afterComma then last.dropWhile isBlank else last]
  | afterComma, piece :: next :: rest =>
    (if afterComma then piece.dropWhile isBlank else piece).rdropWhile isBlank ::
      trimPieces true (next :: rest)

/-- `Attribute.split`: the pieces between the matches of `\s*,\s*`, without the empty ones at the
end unless there is no match at all. -/
def split (value : Text) : List Text :=
  let pieces := trimPieces false (value.splitOn ',')
  if pieces.length = 1 then pieces else pieces.rdropWhile List.isEmpty

/-! ### Networks as texts -/

/-- The functions of `InetAddress` and `android.net.InetAddresses`. -/
structure Platform where
  parseNumericAddress : Text → Option InetAddress
  hostAddress : InetAddress → Text
  /-- A dotted quad is read as the address it is written from. -/
  parse_quad : ∀ address : Fin (2 ^ 32), parseNumericAddress (quad address) = some (.v4 address)
  /-- An IPv4 address is written as a dotted quad. -/
  host_v4 : ∀ address, hostAddress (.v4 address) = quad address
  /-- The unspecified address of IPv6. -/
  parse_unspecified : parseNumericAddress "::0".toList = some (.v6 0)

variable (platform : Platform)

/-- `InetAddresses.parse`. -/
def parseAddress (address : Text) : Option InetAddress :=
  if address = [] then none else platform.parseNumericAddress address

/-- The network of an address and the length of its prefix, the whole address when it is negative;
`none` where the length is too large. -/
def withMask (address : InetAddress) (rawMask : ℤ) : Option InetNetwork :=
  match address with
  | .v4 address =>
    if 32 < rawMask then none
    else some (.v4 address (Fin.ofNat 33 (if 0 ≤ rawMask then rawMask.toNat else 32)))
  | .v6 address =>
    if 128 < rawMask then none
    else some (.v6 address (Fin.ofNat 129 (if 0 ≤ rawMask then rawMask.toNat else 128)))

/-- `InetNetwork.parse`. -/
def parseNetwork (network : Text) : Option InetNetwork :=
  match splitLast '/' network with
  | some (rawAddress, maskString) =>
    (toIntOrNull maskString).bind fun rawMask ↦
      (parseAddress platform rawAddress).bind fun address ↦ withMask address rawMask
  | none => (parseAddress platform network).bind fun address ↦ withMask address (-1)

/-- The address of a network. -/
def networkAddress : InetNetwork → InetAddress
  | .v4 address _ => .v4 address
  | .v6 address _ => .v6 address

/-- `IpNetwork.toString`. -/
def networkText (network : InetNetwork) : Text :=
  platform.hostAddress (networkAddress network) ++ '/' :: decimal network.mask

/-! ### The rewriting -/

/-- The order in which a `HashSet` that is built from a list is gone through. -/
structure HashOrder where
  iterate : List Text → List Text
  nodup_iterate : ∀ elements, (iterate elements).Nodup
  mem_iterate : ∀ elements e, e ∈ iterate elements ↔ e ∈ elements

/-- `ipv4Wildcard`. -/
def wildcard : Text := "0.0.0.0/0".toList

/-- `publicIpV4Array`. -/
def publicIpV4Array : List Text :=
  publicRoutesV4.map (networkText platform) ++ ["::0/0".toList, "10.255.255.0/24".toList]

/-- The body of the two functions, with the array that replaces `0.0.0.0/0`. -/
def rewriteAllowedIps (order : HashOrder) (publicNetworks : List Text)
    (allowedIps dnsRoutes : Text) : Text :=
  let ipv4PublicNetworks := order.iterate publicNetworks
  let input := order.iterate (split allowedIps)
  let output := (input.foldl (LinkedSets.replaceStep wildcard ipv4PublicNetworks) ([], false)).1
  join ((split dnsRoutes).foldl LinkedSets.add output)

/-- `modifyAllowedIps`. -/
def modifyAllowedIps (order : HashOrder) (allowedIps dnsRoutes : Text) : Text :=
  rewriteAllowedIps order (publicIpV4Array platform) allowedIps dnsRoutes

/-- `modifyAllowedIpsIPv4Only`. -/
def modifyAllowedIpsIPv4Only (order : HashOrder) (allowedIps dnsRoutes : Text) : Text :=
  rewriteAllowedIps order ((publicIpV4Array platform).filter fun network ↦ !network.contains ':')
    allowedIps dnsRoutes

/-! ### The promise -/

/-- The text of a list of networks, none of which contains a blank. -/
structure IpList where
  text : Text
  noBlank : ∀ entry ∈ split text, ∀ c ∈ entry, isBlank c = false

/-- The entries of a list are checked character by character. -/
theorem noBlank_of_all {text : Text}
    (hall : ((split text).all fun entry ↦ entry.all fun c ↦ decide (isBlank c = false)) = true) :
    ∀ entry ∈ split text, ∀ c ∈ entry, isBlank c = false :=
  fun entry hentry ↦ forall_mem_of_all (List.all_eq_true.mp hall entry hentry)

/-- An entry is the text of a network that contains the destination. -/
def EntryCovers (d : InetAddress) (entry : Text) : Prop :=
  ∃ network, parseNetwork platform entry = some network ∧ network.contains d

/-- A destination lies in one of the networks of a list. -/
def Covers (text : Text) (d : InetAddress) : Prop :=
  ∃ entry ∈ split text, EntryCovers platform d entry

/-- The public IPv4 space: no private range, nothing from multicast upwards. -/
def Public (d : Fin (2 ^ 32)) : Prop :=
  ¬ (network 10 0 0 0 8).contains (.v4 d) ∧ ¬ (network 172 16 0 0 12).contains (.v4 d) ∧
    ¬ (network 192 168 0 0 16).contains (.v4 d) ∧ d < ipv4 224 0 0 0

/-- What the rewritten list is to cover. -/
def Promised (allowedIps dnsRoutes : IpList) (d : Fin (2 ^ 32)) : Prop :=
  (∃ entry ∈ split allowedIps.text, entry ≠ wildcard ∧ EntryCovers platform (.v4 d) entry) ∨
    (∃ entry ∈ split dnsRoutes.text, EntryCovers platform (.v4 d) entry) ∨
    (wildcard ∈ split allowedIps.text ∧ (Public d ∨ (network 10 255 255 0 24).contains (.v4 d)))

/-- LAN bypass routes the public space, and exactly that. -/
structure RoutesSound (order : HashOrder) : Prop where
  /-- The list of a server's peer. -/
  covers : ∀ (allowedIps dnsRoutes : IpList) d,
    Covers platform (modifyAllowedIps platform order allowedIps.text dnsRoutes.text) (.v4 d) ↔
      Promised platform allowedIps dnsRoutes d
  /-- The list of a custom config's peer. -/
  coversIPv4Only : ∀ (allowedIps dnsRoutes : IpList) d,
    Covers platform (modifyAllowedIpsIPv4Only platform order allowedIps.text dnsRoutes.text)
      (.v4 d) ↔ Promised platform allowedIps dnsRoutes d
  /-- No two public prefixes overlap. -/
  disjoint : publicRoutesV4.Pairwise fun first second ↦
    ∀ d, ¬ (first.contains d ∧ second.contains d)
  /-- No public prefix has bits past its length. -/
  canonical : ∀ network ∈ publicRoutesV4, network.aligned = true
  /-- Both functions keep the IPv6 entries. -/
  ipv6 : ∀ (allowedIps dnsRoutes : IpList), ∀ entry ∈ split allowedIps.text, ':' ∈ entry →
    entry ∈ split (modifyAllowedIps platform order allowedIps.text dnsRoutes.text) ∧
      entry ∈ split (modifyAllowedIpsIPv4Only platform order allowedIps.text dnsRoutes.text)
  /-- The blocking interface with LAN bypass. -/
  blocking : ∀ sessionName addresses mtu allowedApps disallowedApps selfPackage d,
    (∃ route ∈ (Tunnel.TunConfig.blackhole sessionName addresses mtu true allowedApps disallowedApps
      selfPackage).routes, route.contains (.v4 d)) ↔ Public d

/-! ### Splitting what was joined -/

/-- An entry that stays what it is between separators. -/
def Plain (entry : Text) : Prop := ∀ c ∈ entry, c ≠ ',' ∧ isBlank c = false

theorem dropWhile_plain {entry : Text} (hplain : Plain entry) :
    entry.dropWhile isBlank = entry := by
  cases entry with
  | nil => rfl
  | cons c rest => exact List.dropWhile_cons_of_neg (by simp [(hplain c List.mem_cons_self).2])

theorem rdropWhile_plain {entry : Text} (hplain : Plain entry) :
    entry.rdropWhile isBlank = entry := by
  have hreverse : Plain entry.reverse := fun c hmem ↦ hplain c (List.mem_reverse.mp hmem)
  rw [List.rdropWhile, dropWhile_plain hreverse, List.reverse_reverse]

theorem dropWhile_blank {entry : Text} (hplain : Plain entry) :
    (' ' :: entry).dropWhile isBlank = entry := by
  rw [List.dropWhile_cons_of_pos (by decide), dropWhile_plain hplain]

theorem join_cons_cons (first second : Text) (rest : List Text) :
    join (first :: second :: rest) = first ++ ',' :: ' ' :: join (second :: rest) := by
  rw [join, List.intercalate_cons_cons, List.append_assoc]
  rfl

/-- The pieces of a joined text: each but the first has a blank before it. -/
theorem splitOn_join {first : Text} {rest : List Text} (hplain : ∀ e ∈ first :: rest, Plain e) :
    (join (first :: rest)).splitOn ',' = first :: rest.map (' ' :: ·) := by
  induction rest generalizing first with
  | nil =>
    have hnot : ',' ∉ first := fun hcomma ↦ (hplain first List.mem_cons_self ',' hcomma).1 rfl
    rw [join, List.intercalate_singleton]
    exact List.splitOn_eq_singleton hnot
  | cons second rest ih =>
    have hnot : ',' ∉ first := fun hcomma ↦ (hplain first List.mem_cons_self ',' hcomma).1 rfl
    rw [join_cons_cons, List.splitOn_append_cons_self_of_not_mem hnot,
      List.splitOn_cons_eq_if_modifyHead, if_neg (by decide),
      ih fun e hmem ↦ hplain e (List.mem_cons_of_mem _ hmem)]
    rfl

theorem trimPieces_blank {entries : List Text} (hplain : ∀ e ∈ entries, Plain e) :
    trimPieces true (entries.map (' ' :: ·)) = entries := by
  induction entries with
  | nil => rfl
  | cons first rest ih =>
    rw [List.forall_mem_cons] at hplain
    cases rest with
    | nil => exact congrArg (fun e ↦ [e]) (dropWhile_blank hplain.1)
    | cons second rest =>
      simp only [List.map_cons, trimPieces, if_true] at ih ⊢
      rw [dropWhile_blank hplain.1, rdropWhile_plain hplain.1, ih hplain.2]

theorem trimPieces_join {first : Text} {rest : List Text} (hplain : ∀ e ∈ first :: rest, Plain e) :
    trimPieces false (first :: rest.map (' ' :: ·)) = first :: rest := by
  rw [List.forall_mem_cons] at hplain
  have hrest := trimPieces_blank hplain.2
  cases rest with
  | nil => rfl
  | cons second rest =>
    simp only [List.map_cons, trimPieces, Bool.false_eq_true, if_false] at hrest ⊢
    rw [rdropWhile_plain hplain.1, hrest]

/-- The entries of a joined text, the empty ones apart, are what was joined. -/
theorem mem_split_join {entries : List Text} (hplain : ∀ e ∈ entries, Plain e) {entry : Text}
    (hne : entry ≠ []) : entry ∈ split (join entries) ↔ entry ∈ entries := by
  cases entries with
  | nil => exact iff_of_false (fun hmem ↦ hne (List.mem_singleton.mp hmem)) List.not_mem_nil
  | cons first rest =>
    simp only [split, splitOn_join hplain, trimPieces_join hplain]
    split_ifs with hsingle
    · exact Iff.rfl
    · exact mem_rdropWhile (by simpa using hne) _

/-! ### Entries of a list -/

theorem subset_of_mem_trimPieces {afterComma : Bool} {pieces : List Text} {entry : Text}
    (hmem : entry ∈ trimPieces afterComma pieces) : ∃ piece ∈ pieces, entry ⊆ piece := by
  induction pieces generalizing afterComma with
  | nil => cases hmem
  | cons piece rest ih =>
    have hfirst : (if afterComma then piece.dropWhile isBlank else piece) ⊆ piece := by
      split_ifs
      · exact (List.dropWhile_sublist isBlank).subset
      · exact List.Subset.refl piece
    cases rest with
    | nil =>
      rw [trimPieces, List.mem_singleton] at hmem
      exact ⟨piece, List.mem_cons_self, hmem ▸ hfirst⟩
    | cons next rest =>
      rw [trimPieces, List.mem_cons] at hmem
      rcases hmem with rfl | hrest
      · exact ⟨piece, List.mem_cons_self,
          List.Subset.trans (List.rdropWhile_prefix isBlank _).subset hfirst⟩
      · obtain ⟨later, hlater, hsub⟩ := ih hrest
        exact ⟨later, List.mem_cons_of_mem _ hlater, hsub⟩

theorem not_comma_of_mem_split {text entry : Text} (hmem : entry ∈ split text) : ',' ∉ entry := by
  have htrim : entry ∈ trimPieces false (text.splitOn ',') := by
    simp only [split] at hmem
    split_ifs at hmem
    · exact hmem
    · exact (List.rdropWhile_prefix _ _).subset hmem
  obtain ⟨piece, hpiece, hsub⟩ := subset_of_mem_trimPieces htrim
  exact fun hcomma ↦ not_mem_of_mem_splitOn hpiece (hsub hcomma)

theorem IpList.plain (list : IpList) {entry : Text} (hmem : entry ∈ split list.text) :
    Plain entry := fun c hc ↦
  ⟨fun hcomma ↦ not_comma_of_mem_split hmem (hcomma ▸ hc), list.noBlank entry hmem c hc⟩

/-! ### The texts of the public networks -/

theorem parseAddress_quad (address : Fin (2 ^ 32)) :
    parseAddress platform (quad address) = some (.v4 address) := by
  have hne : quad address ≠ [] := by
    simp [quad, octets, decimal_ne_nil]
  rw [parseAddress, if_neg hne, platform.parse_quad]

theorem parseNetwork_append {address : Text} {mask : ℕ} (hmask : mask < 2 ^ 31) :
    parseNetwork platform (address ++ '/' :: decimal mask) =
      (parseAddress platform address).bind fun address ↦ withMask address mask := by
  have hnot : '/' ∉ decimal mask := fun hmem ↦ absurd (isDigit_of_mem_decimal hmem) (by decide)
  rw [parseNetwork, splitLast_append hnot]
  simp only [toIntOrNull_decimal hmask, Option.bind_some]

/-- An IPv4 network is read back from its text. -/
theorem parseNetwork_networkText (address : Fin (2 ^ 32)) (mask : Fin 33) :
    parseNetwork platform (networkText platform (.v4 address mask)) = some (.v4 address mask) := by
  have hmask : (mask : ℕ) < 2 ^ 31 := mask.isLt.trans (by decide)
  have hle : ¬ (32 : ℤ) < ((mask : ℕ) : ℤ) := by have := mask.isLt; omega
  rw [networkText, networkAddress, platform.host_v4, InetNetwork.mask, parseNetwork_append _ hmask,
    parseAddress_quad, Option.bind_some, withMask, if_neg hle, if_pos (Int.natCast_nonneg _)]
  exact congrArg (fun mask ↦ some (InetNetwork.v4 address mask)) (Fin.ofNat_val_eq_self mask)

theorem plain_networkText (address : Fin (2 ^ 32)) (mask : Fin 33) :
    Plain (networkText platform (.v4 address mask)) := by
  have hdigit : ∀ c : Char, c.isDigit = true → c ≠ ',' ∧ isBlank c = false := by
    intro c hc
    obtain ⟨hlo, hhi⟩ := (isDigit_iff c).mp hc
    have hne : ∀ other : Char, other.toNat < 48 → (c == other) = false := by
      intro other hother
      rw [beq_eq_false_iff_ne]
      rintro rfl
      exact absurd hlo (Nat.not_le.mpr hother)
    refine ⟨ne_of_beq_false (hne ',' (by decide)), ?_⟩
    simp only [isBlank, hne ' ' (by decide), hne '\t' (by decide), hne '\n' (by decide),
      hne '\x0B' (by decide), hne '\x0C' (by decide), hne '\r' (by decide), Bool.or_self]
  intro c hmem
  rw [networkText, networkAddress, platform.host_v4, List.mem_append, List.mem_cons] at hmem
  rcases hmem with hquad | rfl | hmask
  · rcases mem_quad hquad with rfl | hc
    · decide
    · exact hdigit c hc
  · decide
  · exact hdigit c (isDigit_of_mem_decimal hmask)

theorem exists_v4_of_mem_publicRoutesV4 {n : InetNetwork} (hmem : n ∈ publicRoutesV4) :
    ∃ address mask, n = .v4 address mask := by
  have hall : ∀ n ∈ publicRoutesV4, n.isV6 = false := by decide
  cases n with
  | v4 address mask => exact ⟨address, mask, rfl⟩
  | v6 address mask => cases hall _ hmem

theorem mem_publicIpV4Array {entry : Text} :
    entry ∈ publicIpV4Array platform ↔ (∃ n ∈ publicRoutesV4, networkText platform n = entry) ∨
      entry = "::0/0".toList ∨ entry = "10.255.255.0/24".toList := by
  rw [publicIpV4Array, List.mem_append, List.mem_map, List.mem_pair]

theorem plain_of_mem_publicIpV4Array {entry : Text} (hmem : entry ∈ publicIpV4Array platform) :
    Plain entry := by
  rcases (mem_publicIpV4Array platform).mp hmem with ⟨n, hn, rfl⟩ | rfl | rfl
  · obtain ⟨address, mask, rfl⟩ := exists_v4_of_mem_publicRoutesV4 hn
    exact plain_networkText platform address mask
  · exact forall_mem_of_all (by decide)
  · exact forall_mem_of_all (by decide)

theorem entryCovers_networkText {n : InetNetwork} (hmem : n ∈ publicRoutesV4) (d : InetAddress) :
    EntryCovers platform d (networkText platform n) ↔ n.contains d := by
  obtain ⟨address, mask, rfl⟩ := exists_v4_of_mem_publicRoutesV4 hmem
  rw [EntryCovers, parseNetwork_networkText]
  constructor
  · rintro ⟨network, hnetwork, hcontains⟩
    exact Option.some.inj hnetwork ▸ hcontains
  · exact fun hcontains ↦ ⟨_, rfl, hcontains⟩

theorem entryCovers_resolver (d : InetAddress) :
    EntryCovers platform d "10.255.255.0/24".toList ↔ (network 10 255 255 0 24).contains d := by
  have htext : "10.255.255.0/24".toList = networkText platform (network 10 255 255 0 24) := by
    rw [networkText, network, networkAddress, platform.host_v4]
    decide
  rw [htext, network, EntryCovers, parseNetwork_networkText]
  constructor
  · rintro ⟨network, hnetwork, hcontains⟩
    exact Option.some.inj hnetwork ▸ hcontains
  · exact fun hcontains ↦ ⟨_, rfl, hcontains⟩

/-- The default route of IPv6 covers no IPv4 address. -/
theorem not_entryCovers_ipv6 (d : Fin (2 ^ 32)) :
    ¬ EntryCovers platform (.v4 d) "::0/0".toList := by
  rintro ⟨network, hnetwork, hcontains⟩
  have htext : "::0/0".toList = "::0".toList ++ '/' :: decimal 0 := by decide
  have hne : "::0".toList ≠ [] := by decide
  rw [htext, parseNetwork_append _ (by decide), parseAddress, if_neg hne,
    platform.parse_unspecified, Option.bind_some, withMask, if_neg (by decide)] at hnetwork
  rw [← Option.some.inj hnetwork] at hcontains
  exact hcontains

/-! ### The public space -/

theorem contains_network_iff {a b c e : ℕ} {mask : Fin 33}
    (haligned : (network a b c e mask).aligned = true) (d : Fin (2 ^ 32)) :
    (network a b c e mask).contains (.v4 d) ↔
      (network a b c e mask).interval.1 ≤ d.val ∧ d.val < (network a b c e mask).interval.2 :=
  contains_iff_interval haligned d

/-- The public space as intervals: the gaps are the private ranges, and it ends at multicast. -/
theorem public_iff (d : Fin (2 ^ 32)) :
    Public d ↔ d.val < 10 * 2 ^ 24 ∨ (11 * 2 ^ 24 ≤ d.val ∧ d.val < 172 * 2 ^ 24 + 16 * 2 ^ 16) ∨
      (172 * 2 ^ 24 + 32 * 2 ^ 16 ≤ d.val ∧ d.val < 192 * 2 ^ 24 + 168 * 2 ^ 16) ∨
      (192 * 2 ^ 24 + 169 * 2 ^ 16 ≤ d.val ∧ d.val < 224 * 2 ^ 24) := by
  have hten : (network 10 0 0 0 8).interval = (10 * 2 ^ 24, 11 * 2 ^ 24) := by decide
  have htwelve : (network 172 16 0 0 12).interval =
      (172 * 2 ^ 24 + 16 * 2 ^ 16, 172 * 2 ^ 24 + 32 * 2 ^ 16) := by decide
  have hsixteen : (network 192 168 0 0 16).interval =
      (192 * 2 ^ 24 + 168 * 2 ^ 16, 192 * 2 ^ 24 + 169 * 2 ^ 16) := by decide
  have hmulticast : d < ipv4 224 0 0 0 ↔ d.val < 224 * 2 ^ 24 := Iff.rfl
  rw [Public, contains_network_iff (by decide), contains_network_iff (by decide),
    contains_network_iff (by decide), hten, htwelve, hsixteen, hmulticast]
  omega

/-- A public prefix lies in one of the intervals. -/
def insidePublic (n : InetNetwork) : Bool :=
  decide (n.interval.2 ≤ 10 * 2 ^ 24) ||
    decide (11 * 2 ^ 24 ≤ n.interval.1 ∧ n.interval.2 ≤ 172 * 2 ^ 24 + 16 * 2 ^ 16) ||
    decide (172 * 2 ^ 24 + 32 * 2 ^ 16 ≤ n.interval.1 ∧
      n.interval.2 ≤ 192 * 2 ^ 24 + 168 * 2 ^ 16) ||
    decide (192 * 2 ^ 24 + 169 * 2 ^ 16 ≤ n.interval.1 ∧ n.interval.2 ≤ 224 * 2 ^ 24)

theorem aligned_of_mem_publicRoutesV4 : ∀ n ∈ publicRoutesV4, n.aligned = true := by decide

/-- The public prefixes cover the public space. -/
theorem exists_publicRoutesV4_iff (d : Fin (2 ^ 32)) :
    (∃ n ∈ publicRoutesV4, n.contains (.v4 d)) ↔ Public d := by
  constructor
  · rintro ⟨n, hmem, hcontains⟩
    have hinside : ∀ n ∈ publicRoutesV4, insidePublic n = true := by decide
    have hn := hinside n hmem
    rw [contains_iff_interval (aligned_of_mem_publicRoutesV4 n hmem)] at hcontains
    simp only [insidePublic, Bool.or_eq_true, decide_eq_true_eq] at hn
    rw [public_iff]
    omega
  · intro hpublic
    have hlan : ¬ Lan (.v4 d) := by
      rintro (⟨hten, -⟩ | htwelve | hsixteen | hmulticast)
      · exact hpublic.1 hten
      · exact hpublic.2.1 htwelve
      · exact hpublic.2.2.1 hsixteen
      · exact absurd hpublic.2.2.2 (Nat.not_lt.mpr hmulticast)
    obtain ⟨n, hmem, hcontains⟩ := covered_of_not_lan hlan
    have hsplit : ipv4PublicNetworks = publicRoutesV4 ++ [network 10 255 255 0 24] := by decide
    rw [hsplit, List.mem_append, List.mem_singleton] at hmem
    rcases hmem with hroute | rfl
    · exact ⟨n, hroute, hcontains⟩
    · refine absurd ?_ hpublic.1
      rw [contains_network_iff (by decide)] at hcontains ⊢
      have hresolver : (network 10 255 255 0 24).interval =
        (10 * 2 ^ 24 + 255 * 2 ^ 16 + 255 * 2 ^ 8, 10 * 2 ^ 24 + 2 ^ 24) := by decide
      have hten : (network 10 0 0 0 8).interval = (10 * 2 ^ 24, 11 * 2 ^ 24) := by decide
      rw [hresolver] at hcontains
      rw [hten]
      omega

/-- No two public prefixes overlap, since each ends where the next one starts, or before. -/
theorem pairwise_publicRoutesV4 : publicRoutesV4.Pairwise fun first second ↦
    ∀ d, ¬ (first.contains d ∧ second.contains d) := by
  have hsorted : publicRoutesV4.Pairwise fun first second ↦
      first.interval.2 ≤ second.interval.1 := by decide
  refine hsorted.imp_of_mem fun {first second} hfirst hsecond hle d hboth ↦ ?_
  obtain ⟨address, mask, rfl⟩ := exists_v4_of_mem_publicRoutesV4 hfirst
  cases d with
  | v6 d => exact hboth.1
  | v4 d =>
    rw [contains_iff_interval (aligned_of_mem_publicRoutesV4 _ hfirst),
      contains_iff_interval (aligned_of_mem_publicRoutesV4 _ hsecond)] at hboth
    omega

/-! ### What the output covers -/

variable (order : HashOrder)

/-- The entries that are joined. -/
theorem plain_of_mem_output {publicNetworks : List Text} (hpublic : ∀ e ∈ publicNetworks, Plain e)
    (allowedIps dnsRoutes : IpList) : ∀ e ∈ (split dnsRoutes.text).foldl LinkedSets.add
      ((order.iterate (split allowedIps.text)).foldl
        (LinkedSets.replaceStep wildcard (order.iterate publicNetworks)) ([], false)).1,
      Plain e := by
  intro e hmem
  rw [LinkedSets.mem_foldl_add, LinkedSets.mem_foldl_replaceStep, order.mem_iterate,
    order.mem_iterate, order.mem_iterate] at hmem
  rcases hmem with (hnil | ⟨hinput, -⟩ | ⟨-, -, hmem⟩) | hdns
  · cases hnil
  · exact allowedIps.plain hinput
  · exact hpublic e hmem
  · exact dnsRoutes.plain hdns

/-- The entries of the output. -/
theorem mem_split_rewriteAllowedIps {publicNetworks : List Text}
    (hpublic : ∀ e ∈ publicNetworks, Plain e) (allowedIps dnsRoutes : IpList) {entry : Text}
    (hne : entry ≠ []) :
    entry ∈ split (rewriteAllowedIps order publicNetworks allowedIps.text dnsRoutes.text) ↔
      (entry ∈ split allowedIps.text ∧ entry ≠ wildcard) ∨ entry ∈ split dnsRoutes.text ∨
        (wildcard ∈ split allowedIps.text ∧ entry ∈ publicNetworks) := by
  rw [rewriteAllowedIps,
    mem_split_join (plain_of_mem_output order hpublic allowedIps dnsRoutes) hne,
    LinkedSets.mem_foldl_add, LinkedSets.mem_foldl_replaceStep, order.mem_iterate,
    order.mem_iterate, order.mem_iterate]
  simp only [List.not_mem_nil, false_or, true_and]
  tauto

theorem EntryCovers.ne_nil {d : InetAddress} {entry : Text}
    (hcovers : EntryCovers platform d entry) : entry ≠ [] := by
  rintro rfl
  obtain ⟨network, hnetwork, -⟩ := hcovers
  cases hnetwork

/-- The output covers what the input and the DNS routes cover, the wildcard apart, and what the
public networks cover in its place. -/
theorem covers_rewriteAllowedIps {publicNetworks : List Text}
    (hpublic : ∀ e ∈ publicNetworks, Plain e) (allowedIps dnsRoutes : IpList) (d : InetAddress) :
    Covers platform (rewriteAllowedIps order publicNetworks allowedIps.text dnsRoutes.text) d ↔
      (∃ entry ∈ split allowedIps.text, entry ≠ wildcard ∧ EntryCovers platform d entry) ∨
        (∃ entry ∈ split dnsRoutes.text, EntryCovers platform d entry) ∨
        (wildcard ∈ split allowedIps.text ∧
          ∃ entry ∈ publicNetworks, EntryCovers platform d entry) := by
  constructor
  · rintro ⟨entry, hmem, hcovers⟩
    rw [mem_split_rewriteAllowedIps order hpublic _ _ hcovers.ne_nil] at hmem
    rcases hmem with ⟨hinput, hother⟩ | hdns | ⟨hwild, hmem⟩
    · exact Or.inl ⟨entry, hinput, hother, hcovers⟩
    · exact Or.inr (Or.inl ⟨entry, hdns, hcovers⟩)
    · exact Or.inr (Or.inr ⟨hwild, entry, hmem, hcovers⟩)
  · rintro (⟨entry, hinput, hother, hcovers⟩ | ⟨entry, hdns, hcovers⟩ |
      ⟨hwild, entry, hmem, hcovers⟩)
    · exact ⟨entry, (mem_split_rewriteAllowedIps order hpublic _ _ hcovers.ne_nil).mpr
        (Or.inl ⟨hinput, hother⟩), hcovers⟩
    · exact ⟨entry, (mem_split_rewriteAllowedIps order hpublic _ _ hcovers.ne_nil).mpr
        (Or.inr (Or.inl hdns)), hcovers⟩
    · exact ⟨entry, (mem_split_rewriteAllowedIps order hpublic _ _ hcovers.ne_nil).mpr
        (Or.inr (Or.inr ⟨hwild, hmem⟩)), hcovers⟩

theorem entryCovers_publicIpV4Array (d : Fin (2 ^ 32)) :
    (∃ entry ∈ publicIpV4Array platform, EntryCovers platform (.v4 d) entry) ↔
      Public d ∨ (network 10 255 255 0 24).contains (.v4 d) := by
  rw [← exists_publicRoutesV4_iff]
  constructor
  · rintro ⟨entry, hmem, hcovers⟩
    rcases (mem_publicIpV4Array platform).mp hmem with ⟨n, hn, rfl⟩ | rfl | rfl
    · exact Or.inl ⟨n, hn, (entryCovers_networkText platform hn _).mp hcovers⟩
    · exact absurd hcovers (not_entryCovers_ipv6 platform d)
    · exact Or.inr ((entryCovers_resolver platform _).mp hcovers)
  · rintro (⟨n, hn, hcontains⟩ | hresolver)
    · exact ⟨_, (mem_publicIpV4Array platform).mpr (Or.inl ⟨n, hn, rfl⟩),
        (entryCovers_networkText platform hn _).mpr hcontains⟩
    · exact ⟨_, (mem_publicIpV4Array platform).mpr (Or.inr (Or.inr rfl)),
        (entryCovers_resolver platform _).mpr hresolver⟩

theorem not_contains_colon {n : InetNetwork} (hmem : n ∈ publicRoutesV4) :
    (!(networkText platform n).contains ':') = true := by
  obtain ⟨address, mask, rfl⟩ := exists_v4_of_mem_publicRoutesV4 hmem
  rw [Bool.not_eq_true', ← Bool.not_eq_true, List.contains_iff_mem, networkText, networkAddress,
    platform.host_v4, List.mem_append, List.mem_cons]
  rintro (hquad | hslash | hmask)
  · rcases mem_quad hquad with hdot | hc
    · exact absurd hdot (by decide)
    · exact absurd hc (by decide)
  · exact absurd hslash (by decide)
  · exact absurd (isDigit_of_mem_decimal hmask) (by decide)

/-- The entries with a colon cover no IPv4 address. -/
theorem entryCovers_filter (d : Fin (2 ^ 32)) :
    (∃ entry ∈ (publicIpV4Array platform).filter fun network ↦ !network.contains ':',
      EntryCovers platform (.v4 d) entry) ↔
      ∃ entry ∈ publicIpV4Array platform, EntryCovers platform (.v4 d) entry := by
  constructor
  · rintro ⟨entry, hmem, hcovers⟩
    exact ⟨entry, List.mem_of_mem_filter hmem, hcovers⟩
  · rintro ⟨entry, hmem, hcovers⟩
    refine ⟨entry, List.mem_filter.mpr ⟨hmem, ?_⟩, hcovers⟩
    rcases (mem_publicIpV4Array platform).mp hmem with ⟨n, hn, rfl⟩ | rfl | rfl
    · exact not_contains_colon platform hn
    · exact absurd hcovers (not_entryCovers_ipv6 platform d)
    · decide

theorem modifyAllowedIps_covers (allowedIps dnsRoutes : IpList) (d : Fin (2 ^ 32)) :
    Covers platform (modifyAllowedIps platform order allowedIps.text dnsRoutes.text) (.v4 d) ↔
      Promised platform allowedIps dnsRoutes d := by
  rw [modifyAllowedIps, covers_rewriteAllowedIps platform order
    (fun e hmem ↦ plain_of_mem_publicIpV4Array platform hmem), entryCovers_publicIpV4Array,
    Promised]

theorem modifyAllowedIpsIPv4Only_covers (allowedIps dnsRoutes : IpList) (d : Fin (2 ^ 32)) :
    Covers platform (modifyAllowedIpsIPv4Only platform order allowedIps.text dnsRoutes.text)
      (.v4 d) ↔ Promised platform allowedIps dnsRoutes d := by
  rw [modifyAllowedIpsIPv4Only, covers_rewriteAllowedIps platform order
    (fun e hmem ↦ plain_of_mem_publicIpV4Array platform (List.mem_of_mem_filter hmem)),
    entryCovers_filter, entryCovers_publicIpV4Array, Promised]

/-- An entry with a colon is neither empty nor the wildcard. -/
theorem mem_split_of_colon {publicNetworks : List Text} (hpublic : ∀ e ∈ publicNetworks, Plain e)
    (allowedIps dnsRoutes : IpList) {entry : Text} (hmem : entry ∈ split allowedIps.text)
    (hcolon : ':' ∈ entry) :
    entry ∈ split (rewriteAllowedIps order publicNetworks allowedIps.text dnsRoutes.text) := by
  refine (mem_split_rewriteAllowedIps order hpublic _ _ (List.ne_nil_of_mem hcolon)).mpr
    (Or.inl ⟨hmem, ?_⟩)
  rintro rfl
  exact absurd hcolon (by decide)

/-! ### The networks behind the texts -/

theorem networkText_injective {m n : InetNetwork} (hm : m.isV6 = false) (hn : n.isV6 = false)
    (htext : networkText platform m = networkText platform n) : m = n := by
  cases m with
  | v6 address mask => cases hm
  | v4 address mask =>
    cases n with
    | v6 address mask => cases hn
    | v4 address' mask' =>
      have hparse := congrArg (parseNetwork platform) htext
      rw [parseNetwork_networkText, parseNetwork_networkText] at hparse
      exact Option.some.inj hparse

theorem wildcard_eq : wildcard = networkText platform ipv4Wildcard := by
  rw [networkText, ipv4Wildcard, network, networkAddress, platform.host_v4]
  decide

theorem mem_map_networkText {networks : List InetNetwork}
    (hv4 : ∀ n ∈ networks, n.isV6 = false) {n : InetNetwork} (hn : n.isV6 = false) :
    networkText platform n ∈ networks.map (networkText platform) ↔ n ∈ networks := by
  rw [List.mem_map]
  constructor
  · rintro ⟨m, hm, htext⟩
    exact networkText_injective platform (hv4 m hm) hn htext ▸ hm
  · exact fun hmem ↦ ⟨n, hmem, rfl⟩

/-- The array without the entries with a colon, as texts of networks. -/
theorem publicIpV4Array_filter :
    (publicIpV4Array platform).filter (fun network ↦ !network.contains ':') =
      ipv4PublicNetworks.map (networkText platform) := by
  have hresolver : "10.255.255.0/24".toList = networkText platform (network 10 255 255 0 24) := by
    rw [networkText, network, networkAddress, platform.host_v4]
    decide
  have hsplit : ipv4PublicNetworks = publicRoutesV4 ++ [network 10 255 255 0 24] := by decide
  have hroutes : (publicRoutesV4.map (networkText platform)).filter
      (fun network ↦ !network.contains ':') = publicRoutesV4.map (networkText platform) := by
    refine List.filter_eq_self.mpr fun entry hentry ↦ ?_
    obtain ⟨n, hn, rfl⟩ := List.mem_map.mp hentry
    exact not_contains_colon platform hn
  have hrest : ["::0/0".toList, "10.255.255.0/24".toList].filter
      (fun network ↦ !network.contains ':') = ["10.255.255.0/24".toList] := by decide
  rw [publicIpV4Array, List.filter_append, hroutes, hrest, hsplit, List.map_append, hresolver]
  rfl

theorem networkText_ne_nil (n : InetNetwork) : networkText platform n ≠ [] := by
  simp [networkText]

theorem plain_map_networkText {networks : List InetNetwork}
    (hv4 : ∀ n ∈ networks, n.isV6 = false) :
    ∀ e ∈ networks.map (networkText platform), Plain e := by
  intro e he
  obtain ⟨n, hn, rfl⟩ := List.mem_map.mp he
  cases n with
  | v4 address mask => exact plain_networkText platform address mask
  | v6 address mask => cases hv4 _ hn

/-- The text of a list of IPv4 networks. -/
def ipv4List (networks : List InetNetwork) (hv4 : ∀ n ∈ networks, n.isV6 = false) : IpList where
  text := join (networks.map (networkText platform))
  noBlank := by
    intro entry hentry c hc
    have hplain := plain_map_networkText platform hv4
    rw [mem_split_join hplain (List.ne_nil_of_mem hc)] at hentry
    exact (hplain entry hentry c hc).2

theorem networkText_mem_ipv4List {networks : List InetNetwork}
    (hv4 : ∀ n ∈ networks, n.isV6 = false) {n : InetNetwork} (hn : n.isV6 = false) :
    networkText platform n ∈ split (ipv4List platform networks hv4).text ↔ n ∈ networks := by
  have hplain := plain_map_networkText platform hv4
  rw [ipv4List, mem_split_join hplain (networkText_ne_nil platform n),
    mem_map_networkText platform hv4 hn]

/-- On the texts of IPv4 networks the function on texts does what the function on networks does. -/
theorem networkText_mem_modifyAllowedIpsIPv4Only {networks : List InetNetwork}
    (hv4 : ∀ n ∈ networks, n.isV6 = false) {n : InetNetwork} (hn : n.isV6 = false) :
    networkText platform n ∈ split (modifyAllowedIpsIPv4Only platform order
        (ipv4List platform networks hv4).text []) ↔
      n ∈ LanBypass.modifyAllowedIpsIPv4Only networks := by
  have hpublic : ∀ e ∈ ipv4PublicNetworks.map (networkText platform), Plain e := by
    rw [← publicIpV4Array_filter]
    exact fun e he ↦ plain_of_mem_publicIpV4Array platform (List.mem_of_mem_filter he)
  have hpublicV4 : ∀ m ∈ ipv4PublicNetworks, m.isV6 = false := by decide
  have hdns : networkText platform n ∉ split [] :=
    fun hmem ↦ networkText_ne_nil platform n (List.mem_singleton.mp hmem)
  have hsame : networkText platform n = networkText platform ipv4Wildcard ↔ n = ipv4Wildcard :=
    ⟨networkText_injective platform hn rfl, congrArg (networkText platform)⟩
  rw [modifyAllowedIpsIPv4Only, publicIpV4Array_filter,
    mem_split_rewriteAllowedIps order hpublic _ ⟨[], noBlank_of_all (by decide)⟩
      (networkText_ne_nil platform n),
    wildcard_eq platform, networkText_mem_ipv4List platform hv4 hn,
    networkText_mem_ipv4List platform hv4 rfl, mem_map_networkText platform hpublicV4 hn,
    LanBypass.modifyAllowedIpsIPv4Only, mem_foldl_modifyStep, ← ipv4PublicNetworks]
  simp only [ne_eq, hsame, hdns, List.not_mem_nil, false_or, true_and]

/-- LAN bypass covers the public space, and exactly that. -/
theorem routesSound : RoutesSound platform order where
  covers := modifyAllowedIps_covers platform order
  coversIPv4Only := modifyAllowedIpsIPv4Only_covers platform order
  disjoint := pairwise_publicRoutesV4
  canonical := aligned_of_mem_publicRoutesV4
  ipv6 := by
    intro allowedIps dnsRoutes entry hmem hcolon
    constructor
    · exact mem_split_of_colon order (fun _ ↦ plain_of_mem_publicIpV4Array platform) _ _ hmem
        hcolon
    · refine mem_split_of_colon order (fun _ hentry ↦ ?_) _ _ hmem hcolon
      exact plain_of_mem_publicIpV4Array platform (List.mem_of_mem_filter hentry)
  blocking := fun _ _ _ _ _ _ d ↦ exists_publicRoutesV4_iff d

/-- A platform that reads and writes dotted quads and the unspecified address, and writes the
groups of an IPv6 address. -/
def quadPlatform : Platform where
  parseNumericAddress := fun text ↦
    if text = "::0".toList then some (.v6 0) else (readQuad text).map .v4
  hostAddress
    | .v4 address => quad address
    | .v6 address => [':'].intercalate <| (List.range 8).map fun group ↦
      Nat.toDigits 16 (address.val / 2 ^ (16 * (7 - group)) % 2 ^ 16)
  parse_quad := by
    intro address
    have hcolon : quad address ≠ "::0".toList := by
      intro heq
      have hmem : ':' ∈ quad address := heq ▸ by decide
      rcases mem_quad hmem with hdot | hdigit
      · exact absurd hdot (by decide)
      · exact absurd hdigit (by decide)
    rw [if_neg hcolon, readQuad_quad, Option.map_some]
  host_v4 := fun _ ↦ rfl
  parse_unspecified := if_pos rfl

/-- A set that is gone through in the order of its list. -/
def listOrder : HashOrder where
  iterate := List.dedup
  nodup_iterate := List.nodup_dedup
  mem_iterate := fun _ _ ↦ List.mem_dedup

/-- A server's peer that is allowed everything: a public address stays covered. -/
theorem routesSound_quadPlatform :
    Covers quadPlatform (modifyAllowedIps quadPlatform listOrder "0.0.0.0/0".toList [])
      (.v4 (ipv4 8 8 8 8)) :=
  ((routesSound quadPlatform listOrder).covers ⟨"0.0.0.0/0".toList, noBlank_of_all (by decide)⟩
    ⟨[], noBlank_of_all (by decide)⟩ (ipv4 8 8 8 8)).mpr
      (Or.inr (Or.inr ⟨by decide, Or.inl ((public_iff _).mpr (by decide))⟩))

end WindscribeVpn.Backend.AllowedIps
