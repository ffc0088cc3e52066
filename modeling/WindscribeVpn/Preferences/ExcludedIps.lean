import WindscribeVpn.Backend.LanBypass
import WindscribeVpn.Foundations.BitMasks
import WindscribeVpn.Foundations.Texts

/-!
# Excluded IPs

The settings screen accepts an IP address or a range as an entry to be left out of the tunnel, and
`applyExcludedRoutes` hands the entry to the builder of the interface. Three parsers read the same
text: `isValidIpAddress` reads the octets with `toIntOrNull`, `isCanonicalCidr` reads them again
with `toLong`, and `applyExcludedRoutes` asks `InetAddress.getByName`, which takes dotted quads in
the digits of ASCII and looks up everything else as the name of a host.

`EntrySound` is the promise for one entry: what is accepted as an address or a range is a plain text
(`PlainEntry`) and becomes the prefix it denotes without a lookup, and the range that is suggested
for a range that is not canonical is accepted and denotes the same block. The second half always
holds (`suggestion_sound`). The first fails where `toIntOrNull` accepts more than digits of ASCII, a
sign or the digits of another script, and `entrySound_iff` says that it fails nowhere else.
-/

set_option autoImplicit false
set_option relaxedAutoImplicit false

namespace WindscribeVpn.Preferences.ExcludedIps

open Foundations.Texts Foundations.BitMasks
open Backend.LanBypass (InetAddress InetNetwork)

/-! ### The validator -/

/-- `ExcludedIpDomain.EntryType`. -/
inductive EntryType
  | ip
  | ipRange
  | hostname
  deriving DecidableEq, Repr

/-- A part of an address that reads as an octet. -/
def isOctet (part : Text) : Bool :=
  match toIntOrNull part with
  | some octet => decide (0 ≤ octet ∧ octet ≤ 255)
  | none => false

/-- `isValidIpAddress`. -/
def isValidIpAddress (value : Text) : Bool :=
  let parts := value.splitOn '.'
  if parts.length ≠ 4 then false else parts.all isOctet

/-- One turn of the loop over the parts of an address; `none` when `toLong` throws. -/
def shiftIn (ipInt : BitVec 64) (part : Text) : Option (BitVec 64) :=
  (toLongOrNull part).map fun octet : ℤ ↦ (ipInt <<< 8) ||| BitVec.ofInt 64 octet

/-- `ipInt` as it is after the loop; `none` when an exception is thrown. -/
def ipValue (ip : Text) : Option (BitVec 64) :=
  match ip.splitOn '.' with
  | a :: b :: c :: d :: _ => [a, b, c, d].foldlM shiftIn 0
  | _ => none

/-- The network mask of a prefix length. -/
def networkMask (prefixLength : ℤ) : BitVec 64 :=
  if prefixLength = 0 then 0
  else (BitVec.allOnes 64 <<< ((32 - prefixLength) % 64).toNat) &&& 0xFFFFFFFF

/-- `isCanonicalCidr`. -/
def isCanonicalCidr (ip : Text) (prefixLength : ℤ) : Option Bool :=
  (ipValue ip).map fun ipInt ↦ ipInt == ipInt &&& networkMask prefixLength

/-- The four octets of a number, each written in decimals. -/
def addressText (networkAddress : BitVec 64) : Text :=
  ['.'].intercalate <| [24, 16, 8, 0].map fun shift ↦
    decimal (networkAddress.sshiftRight shift &&& 0xFF).toNat

/-- `getCanonicalNetworkAddress`. -/
def getCanonicalNetworkAddress (ip : Text) (prefixLength : ℤ) : Option Text :=
  (ipValue ip).map fun ipInt ↦ addressText (ipInt &&& networkMask prefixLength)

/-- `isValidIpRange`. -/
def isValidIpRange (value : Text) : Option Bool :=
  if !value.contains '/' then some false
  else
    match value.splitOn '/' with
    | [ip, length] =>
      match toIntOrNull length with
      | none => some false
      | some prefixLength =>
        if !isValidIpAddress ip || !decide (0 ≤ prefixLength ∧ prefixLength ≤ 32) then some false
        else isCanonicalCidr ip prefixLength
    | _ => some false

/-- A letter or a digit of ASCII. -/
def isAlphanumeric (c : Char) : Bool := c.isAlpha || c.isDigit

/-- A label of a host name but the last. -/
def isLabel (label : Text) : Bool :=
  decide (label.length ≤ 63) && label.head?.any isAlphanumeric &&
    label.getLast?.any isAlphanumeric && label.all fun c ↦ isAlphanumeric c || c == '-'

/-- `isValidHostname`. -/
def isValidHostname (value : Text) : Bool :=
  let labels := value.splitOn '.'
  decide (2 ≤ labels.length) && labels.dropLast.all isLabel &&
    labels.getLast?.any fun last ↦ decide (2 ≤ last.length) && last.all Char.isAlpha

/-- `detectEntryType`; the outer `none` when an exception is thrown. -/
def detectEntryType (value : Text) : Option (Option EntryType) :=
  if isValidIpAddress value then some (some .ip)
  else
    (isValidIpRange value).map fun isRange ↦
      if isRange then some .ipRange
      else if isValidHostname value then some .hostname
      else none

/-- A count in a unit, to one decimal. -/
def oneDecimal (count unit : ℕ) : Text :=
  let tenths := (20 * count + unit) / (2 * unit)
  decimal (tenths / 10) ++ '.' :: decimal (tenths % 10)

/-- `getIpCount`. -/
def getIpCount (prefixLength : ℤ) : Text :=
  let count := 2 ^ (32 - prefixLength).toNat
  if 1000000000 ≤ count then oneDecimal count 1000000000 ++ " billion".toList
  else if 1000000 ≤ count then oneDecimal count 1000000 ++ " million".toList
  else if 1000 ≤ count then oneDecimal count 1000 ++ " thousand".toList
  else decimal count

/-- `NonCanonicalCidrInfo`. -/
structure NonCanonicalCidrInfo where
  ip : Text
  prefixLength : ℤ
  canonicalIp : Text
  ipCount : Text
  deriving DecidableEq, Repr

/-- `checkNonCanonicalCidr`; the outer `none` when an exception is thrown. -/
def checkNonCanonicalCidr (value : Text) : Option (Option NonCanonicalCidrInfo) :=
  if !value.contains '/' then some none
  else
    match value.splitOn '/' with
    | [ip, length] =>
      match toIntOrNull length with
      | none => some none
      | some prefixLength =>
        if !isValidIpAddress ip || !decide (0 ≤ prefixLength ∧ prefixLength ≤ 32) then some none
        else do
          if ← isCanonicalCidr ip prefixLength then pure none
          else
            let canonicalIp ← getCanonicalNetworkAddress ip prefixLength
            pure (some { ip, prefixLength, canonicalIp, ipCount := getIpCount prefixLength })
    | _ => some none

/-! ### The routes -/

/-- `IpPrefix`. -/
structure IpPrefix where
  address : InetAddress
  prefixLength : ℕ
  deriving DecidableEq, Repr

/-- The constructor of `IpPrefix`, which clears the bits past the prefix; `none` when it throws. -/
def ipPrefix (address : InetAddress) (prefixLength : ℤ) : Option IpPrefix :=
  match address with
  | .v4 address =>
    if 0 ≤ prefixLength ∧ prefixLength ≤ 32 then
      let size := 2 ^ (32 - prefixLength.toNat)
      some ⟨.v4 (Fin.ofNat (2 ^ 32) (address.val / size * size)), prefixLength.toNat⟩
    else none
  | .v6 address =>
    if 0 ≤ prefixLength ∧ prefixLength ≤ 128 then
      let size := 2 ^ (128 - prefixLength.toNat)
      some ⟨.v6 (Fin.ofNat (2 ^ 128) (address.val / size * size)), prefixLength.toNat⟩
    else none

section Routes

variable (resolve : Text → Option InetAddress)

/-- `InetAddress.getByName`: the names that are looked up and the address. -/
def getByName (host : Text) : List Text × Option InetAddress :=
  match readQuad host with
  | some address => ([], some (.v4 address))
  | none => ([host], resolve host)

/-- One route of `applyExcludedRoutes`: the names that are looked up and the prefix that is
excluded, if no exception is thrown. -/
def excludeRoute (ipOrRange : Text) : List Text × Option IpPrefix :=
  if ipOrRange.contains '/' then
    match ipOrRange.splitOn '/' with
    | host :: length :: _ =>
      let (lookups, address) := getByName resolve host
      (lookups, address.bind fun address ↦ (toIntOrNull length).bind (ipPrefix address))
    | _ => ([], none)
  else
    let (lookups, address) := getByName resolve ipOrRange
    (lookups, address.bind fun address ↦ ipPrefix address 32)

/-- `Build.VERSION_CODES.TIRAMISU`. -/
def tiramisu : ℕ := 33

/-- `applyExcludedRoutes`: the names that are looked up and the prefixes that are excluded. -/
def applyExcludedRoutes (sdkInt : ℕ) (routes : List Text) : List Text × List IpPrefix :=
  if tiramisu ≤ sdkInt then
    (routes.flatMap fun route ↦ (excludeRoute resolve route).1,
      routes.filterMap fun route ↦ (excludeRoute resolve route).2)
  else ([], [])

end Routes

/-! ### The promise -/

/-- A dotted quad in the digits of ASCII, with a slash and a decimal prefix length or without. -/
inductive PlainEntry : Text → Fin (2 ^ 32) → ℕ → Prop
  | address {value : Text} {address : Fin (2 ^ 32)} (hquad : readQuad value = some address) :
    PlainEntry value address 32
  | range {ip length : Text} {address : Fin (2 ^ 32)} (hquad : readQuad ip = some address)
    (hdigits : length ≠ [] ∧ ∀ c ∈ length, c.isDigit = true)
    (hle : Nat.ofDigitChars 10 length 0 ≤ 32) :
    PlainEntry (ip ++ '/' :: length) address (Nat.ofDigitChars 10 length 0)

/-- The entry is accepted as an address or as a range. -/
def Accepted (value : Text) : Prop :=
  detectEntryType value = some (some .ip) ∨ detectEntryType value = some (some .ipRange)

/-- What the settings screen promises of an entry. -/
structure EntrySound (value : Text) : Prop where
  /-- An accepted entry is plain, and excludes the prefix it denotes without a lookup. -/
  excluded : Accepted value → ∃ address prefixLength, PlainEntry value address prefixLength ∧
    (detectEntryType value = some (some .ip) → prefixLength = 32) ∧
    ∀ resolve sdkInt, tiramisu ≤ sdkInt →
      applyExcludedRoutes resolve sdkInt [value] = ([], [⟨.v4 address, prefixLength⟩])
  /-- The range that is suggested for one that is not canonical is accepted, denotes the same block,
  and the block contains the address that was entered. -/
  suggested : ∀ info, checkNonCanonicalCidr value = some (some info) →
    ∃ (entered suggested : Fin (2 ^ 32)) (mask : Fin 33), (mask : ℤ) = info.prefixLength ∧
      (ipValue info.ip).map BitVec.toNat = some entered.val ∧
      readQuad info.canonicalIp = some suggested ∧
      detectEntryType (info.canonicalIp ++ '/' :: decimal mask) = some (some .ipRange) ∧
      (∀ d, (InetNetwork.v4 suggested mask).contains d ↔ (InetNetwork.v4 entered mask).contains d) ∧
      (InetNetwork.v4 suggested mask).contains (.v4 entered)

/-- Digits of ASCII, dots and slashes only. -/
def PlainCharacters (value : Text) : Prop := ∀ c ∈ value, c.isDigit = true ∨ c = '.' ∨ c = '/'

/-! ### The octets of an address -/

/-- An address of which the parts read as four octets. -/
structure Reads (ip : Text) (a b c d : ℕ) : Prop where
  octets : a < 256 ∧ b < 256 ∧ c < 256 ∧ d < 256
  parts : ∃ p q r s, ip.splitOn '.' = [p, q, r, s] ∧ toIntOrNull p = some (a : ℤ) ∧
    toIntOrNull q = some (b : ℤ) ∧ toIntOrNull r = some (c : ℤ) ∧ toIntOrNull s = some (d : ℤ)

variable {value ip length : Text} {a b c d : ℕ} {prefixLength : ℤ}

theorem isOctet_iff (part : Text) :
    isOctet part = true ↔ ∃ octet < 256, toIntOrNull part = some ((octet : ℕ) : ℤ) := by
  unfold isOctet
  cases hread : toIntOrNull part with
  | none => simp
  | some octet =>
    rw [decide_eq_true_eq]
    constructor
    · rintro ⟨hlo, hhi⟩
      obtain ⟨n, rfl⟩ := Int.eq_ofNat_of_zero_le hlo
      exact ⟨n, by omega, rfl⟩
    · rintro ⟨n, hn, hsame⟩
      obtain rfl := Option.some.inj hsame
      omega

/-- The texts that `isValidIpAddress` accepts. -/
theorem isValidIpAddress_iff : isValidIpAddress ip = true ↔ ∃ a b c d, Reads ip a b c d := by
  constructor
  · intro hvalid
    simp only [isValidIpAddress] at hvalid
    split_ifs at hvalid with hlength
    obtain ⟨p, q, r, s, hparts⟩ := List.length_eq_four.mp (not_not.mp hlength)
    rw [hparts] at hvalid
    simp only [List.all_cons, List.all_nil, Bool.and_true, Bool.and_eq_true, isOctet_iff] at hvalid
    obtain ⟨⟨a, ha, hp⟩, ⟨b, hb, hq⟩, ⟨c, hc, hr⟩, ⟨d, hd, hs⟩⟩ := hvalid
    exact ⟨a, b, c, d, ⟨ha, hb, hc, hd⟩, p, q, r, s, hparts, hp, hq, hr, hs⟩
  · rintro ⟨a, b, c, d, ⟨ha, hb, hc, hd⟩, p, q, r, s, hparts, hp, hq, hr, hs⟩
    simp only [isValidIpAddress, hparts, List.length_cons, List.length_nil, List.all_cons,
      List.all_nil, (isOctet_iff p).mpr ⟨a, ha, hp⟩, (isOctet_iff q).mpr ⟨b, hb, hq⟩,
      (isOctet_iff r).mpr ⟨c, hc, hr⟩, (isOctet_iff s).mpr ⟨d, hd, hs⟩]
    rfl

theorem toNat_shiftIn (ipInt : BitVec 64) {part : Text} {octet : ℕ}
    (hread : toIntOrNull part = some (octet : ℤ)) (hoctet : octet < 256)
    (hfits : ipInt.toNat * 256 + octet < 2 ^ 64) :
    ∃ next, shiftIn ipInt part = some next ∧ next.toNat = ipInt.toNat * 256 + octet := by
  refine ⟨_, by rw [shiftIn, toLongOrNull_of_toIntOrNull hread, Option.map_some], ?_⟩
  rw [BitVec.ofInt_natCast]
  exact toNat_shiftLeft_or hoctet hfits

/-- The loop puts the octets together. -/
theorem Reads.ipValue (hreads : Reads ip a b c d) :
    ∃ ipInt, ipValue ip = some ipInt ∧ ipInt.toNat = ofOctets a b c d := by
  obtain ⟨⟨ha, hb, hc, hd⟩, p, q, r, s, hparts, hp, hq, hr, hs⟩ := hreads
  have hzero : (0 : BitVec 64).toNat = 0 := rfl
  obtain ⟨first, hfirst, hfirst'⟩ := toNat_shiftIn 0 hp ha (by omega)
  obtain ⟨second, hsecond, hsecond'⟩ := toNat_shiftIn first hq hb (by omega)
  obtain ⟨third, hthird, hthird'⟩ := toNat_shiftIn second hr hc (by omega)
  obtain ⟨fourth, hfourth, hfourth'⟩ := toNat_shiftIn third hs hd (by omega)
  refine ⟨fourth, ?_, by rw [hfourth', hthird', hsecond', hfirst', hzero, ofOctets]; omega⟩
  simp only [ExcludedIps.ipValue, hparts, List.foldlM_cons, List.foldlM_nil, hfirst, hsecond,
    hthird, hfourth, Option.bind_eq_bind, Option.bind_some, Option.pure_def]

theorem Reads.lt (hreads : Reads ip a b c d) : ofOctets a b c d < 2 ^ 32 := by
  obtain ⟨ha, hb, hc, hd⟩ := hreads.octets
  rw [ofOctets]
  omega

/-! ### The mask -/

/-- Masking an address drops the bits past the prefix. -/
theorem toNat_and_networkMask {ipInt : BitVec 64} (hlt : ipInt.toNat < 2 ^ 32)
    (hlow : 0 ≤ prefixLength) (hhigh : prefixLength ≤ 32) :
    (ipInt &&& networkMask prefixLength).toNat =
      ipInt.toNat / 2 ^ (32 - prefixLength.toNat) * 2 ^ (32 - prefixLength.toNat) := by
  rw [networkMask]
  split_ifs with hzero
  · subst hzero
    have hnone : ipInt &&& 0 = 0#64 := BitVec.and_zero
    rw [hnone]
    change 0 = ipInt.toNat / 2 ^ 32 * 2 ^ 32
    rw [Nat.div_eq_of_lt hlt, Nat.zero_mul]
  · have hshift : ((32 - prefixLength) % 64).toNat = 32 - prefixLength.toNat := by omega
    have hword : ipInt &&& 0xFFFFFFFF = ipInt := by
      refine BitVec.eq_of_toNat_eq ?_
      rw [BitVec.toNat_and]
      exact (Nat.and_two_pow_sub_one_eq_mod ipInt.toNat 32).trans (Nat.mod_eq_of_lt hlt)
    rw [hshift, BitVec.and_comm (BitVec.allOnes 64 <<< _), ← BitVec.and_assoc, hword,
      and_allOnes_shiftLeft, toNat_shiftRight_shiftLeft]

/-- `isCanonicalCidr` asks whether the address has no bits past the prefix. -/
theorem Reads.isCanonicalCidr (hreads : Reads ip a b c d) (hlow : 0 ≤ prefixLength)
    (hhigh : prefixLength ≤ 32) :
    isCanonicalCidr ip prefixLength = some (decide (ofOctets a b c d /
      2 ^ (32 - prefixLength.toNat) * 2 ^ (32 - prefixLength.toNat) = ofOctets a b c d)) := by
  obtain ⟨ipInt, hvalue, hnat⟩ := hreads.ipValue
  have hlt : ipInt.toNat < 2 ^ 32 := hnat ▸ hreads.lt
  rw [ExcludedIps.isCanonicalCidr, hvalue, Option.map_some, ← hnat,
    ← toNat_and_networkMask hlt hlow hhigh]
  refine congrArg some ?_
  rw [Bool.eq_iff_iff, beq_iff_eq, decide_eq_true_eq]
  exact ⟨fun hsame ↦ congrArg BitVec.toNat hsame.symm,
    fun hsame ↦ BitVec.eq_of_toNat_eq hsame.symm⟩

theorem addressText_eq (networkAddress : BitVec 64) :
    addressText networkAddress = quad networkAddress.toNat :=
  intercalate_octets networkAddress (by decide)

/-! ### Plain texts -/

/-- A part that is read and has plain characters has digits of ASCII only. -/
theorem isDigit_of_read {part : Text} {number : ℤ} (hread : toIntOrNull part = some number)
    (hplain : ∀ c ∈ part, c.isDigit = true ∨ c = '.' ∨ c = '/') :
    part ≠ [] ∧ ∀ c ∈ part, c.isDigit = true := by
  obtain ⟨hne, hchars⟩ := readSigned_eq_some hread
  refine ⟨hne, fun c hc ↦ ?_⟩
  rcases hplain c hc with hdigit | rfl | rfl
  · exact hdigit
  · exact absurd (hchars _ hc) (by decide)
  · exact absurd (hchars _ hc) (by decide)

theorem readOctet_of_read {part : Text} {octet : ℕ} (hread : toIntOrNull part = some (octet : ℤ))
    (hlt : octet < 256) (hplain : ∀ c ∈ part, c.isDigit = true ∨ c = '.' ∨ c = '/') :
    readOctet part = some octet := by
  obtain ⟨hne, hdigits⟩ := isDigit_of_read hread hplain
  rw [toIntOrNull_isDigit hdigits hne] at hread
  split_ifs at hread with hfits
  have hvalue : Nat.ofDigitChars 10 part 0 = octet := Int.ofNat.inj (Option.some.inj hread)
  rw [readOctet, hvalue]
  exact if_pos ⟨hne, hdigits, hlt⟩

/-- What is read and has plain characters is a dotted quad. -/
theorem Reads.readQuad (hreads : Reads ip a b c d) (hplain : PlainCharacters ip) :
    readQuad ip = some ⟨ofOctets a b c d, hreads.lt⟩ := by
  have hlt := hreads.lt
  obtain ⟨⟨ha, hb, hc, hd⟩, p, q, r, s, hparts, hp, hq, hr, hs⟩ := hreads
  have hpart : ∀ part ∈ ip.splitOn '.', ∀ c ∈ part, c.isDigit = true ∨ c = '.' ∨ c = '/' :=
    fun part hpart c hmem ↦ hplain c (mem_of_mem_splitOn hpart hmem)
  rw [hparts] at hpart
  simp only [List.forall_mem_cons] at hpart
  simp only [Foundations.Texts.readQuad, hparts, List.mapM_cons, List.mapM_nil,
    readOctet_of_read hp ha hpart.1, readOctet_of_read hq hb hpart.2.1,
    readOctet_of_read hr hc hpart.2.2.1, readOctet_of_read hs hd hpart.2.2.2.1,
    Option.bind_eq_bind, Option.bind_some, Option.pure_def]
  refine congrArg some (Fin.ext ?_)
  exact Nat.mod_eq_of_lt hlt

theorem not_mem_slash_of_reads (hreads : Reads ip a b c d) : '/' ∉ ip := by
  obtain ⟨-, p, q, r, s, hparts, hp, hq, hr, hs⟩ := hreads
  intro hslash
  have hpart : ∀ {part : Text} {octet : ℤ}, toIntOrNull part = some octet → '/' ∉ part :=
    fun hread hmem ↦ absurd ((readSigned_eq_some hread).2 _ hmem) (by decide)
  rcases exists_mem_splitOn '.' hslash with hdot | ⟨piece, hpiece, hmem⟩
  · exact absurd hdot (by decide)
  · rw [hparts] at hpiece
    simp only [List.mem_cons, List.not_mem_nil, or_false] at hpiece
    rcases hpiece with rfl | rfl | rfl | rfl
    · exact hpart hp hmem
    · exact hpart hq hmem
    · exact hpart hr hmem
    · exact hpart hs hmem

/-! ### What is accepted -/

/-- A text that is accepted as a range. -/
structure RangeOf (value ip length : Text) (prefixLength : ℤ) (a b c d : ℕ) : Prop where
  text : value = ip ++ '/' :: length
  split : value.splitOn '/' = [ip, length]
  slash : value.contains '/' = true
  length : toIntOrNull length = some prefixLength
  low : 0 ≤ prefixLength
  high : prefixLength ≤ 32
  reads : Reads ip a b c d

/-- The text of an address and a prefix length is taken apart again. -/
theorem rangeOf_append (hreads : Reads ip a b c d)
    (hlength : toIntOrNull length = some prefixLength) (hlow : 0 ≤ prefixLength)
    (hhigh : prefixLength ≤ 32) :
    RangeOf (ip ++ '/' :: length) ip length prefixLength a b c d where
  text := rfl
  split := by
    have hnot : '/' ∉ length :=
      fun hmem ↦ absurd ((readSigned_eq_some hlength).2 _ hmem) (by decide)
    rw [List.splitOn_append_cons_self_of_not_mem (not_mem_slash_of_reads hreads),
      List.splitOn_eq_singleton hnot]
  slash := List.contains_iff_mem.mpr (by simp)
  length := hlength
  low := hlow
  high := hhigh
  reads := hreads

/-- What the two checks of a range have in common. -/
theorem exists_rangeOf {ip length : Text} (hslash : ¬ (!value.contains '/') = true)
    (hsplit : value.splitOn '/' = [ip, length]) (hlength : toIntOrNull length = some prefixLength)
    (hvalid : ¬ (!isValidIpAddress ip || !decide (0 ≤ prefixLength ∧ prefixLength ≤ 32)) = true) :
    ∃ a b c d, RangeOf value ip length prefixLength a b c d := by
  simp only [Bool.or_eq_true, Bool.not_eq_true', decide_eq_false_iff_not, not_or,
    Bool.not_eq_false, not_not] at hvalid
  obtain ⟨a, b, c, d, hreads⟩ := isValidIpAddress_iff.mp hvalid.1
  exact ⟨a, b, c, d, eq_append_of_splitOn hsplit, hsplit, by simpa using hslash, hlength,
    hvalid.2.1, hvalid.2.2, hreads⟩

theorem isValidIpRange_eq_true (hrange : isValidIpRange value = some true) :
    ∃ ip length prefixLength a b c d, RangeOf value ip length prefixLength a b c d ∧
      ofOctets a b c d / 2 ^ (32 - prefixLength.toNat) * 2 ^ (32 - prefixLength.toNat) =
        ofOctets a b c d := by
  unfold isValidIpRange at hrange
  split_ifs at hrange with hslash
  · cases hrange
  split at hrange
  · next ip length hsplit =>
    split at hrange
    · cases hrange
    · next prefixLength hlength =>
      split_ifs at hrange with hvalid
      · cases hrange
      obtain ⟨a, b, c, d, hof⟩ := exists_rangeOf hslash hsplit hlength hvalid
      rw [hof.reads.isCanonicalCidr hof.low hof.high] at hrange
      exact ⟨ip, length, prefixLength, a, b, c, d, hof,
        of_decide_eq_true (Option.some.inj hrange)⟩
  · cases hrange

theorem RangeOf.isValidIpRange (hof : RangeOf value ip length prefixLength a b c d) :
    isValidIpRange value = some (decide (ofOctets a b c d /
      2 ^ (32 - prefixLength.toNat) * 2 ^ (32 - prefixLength.toNat) = ofOctets a b c d)) := by
  have hvalid : isValidIpAddress ip = true := isValidIpAddress_iff.mpr ⟨a, b, c, d, hof.reads⟩
  simp only [ExcludedIps.isValidIpRange, hof.slash, hof.split, hof.length, hvalid, hof.low,
    hof.high, hof.reads.isCanonicalCidr hof.low hof.high]
  rfl

/-- A text with a slash is no address. -/
theorem RangeOf.not_isValidIpAddress (hof : RangeOf value ip length prefixLength a b c d) :
    isValidIpAddress value = false := by
  rw [← Bool.not_eq_true, isValidIpAddress_iff]
  rintro ⟨a, b, c, d, hreads⟩
  exact not_mem_slash_of_reads hreads (List.contains_iff_mem.mp hof.slash)

theorem accepted_iff : Accepted value ↔
    isValidIpAddress value = true ∨ isValidIpAddress value = false ∧
      isValidIpRange value = some true := by
  unfold Accepted detectEntryType
  cases hvalid : isValidIpAddress value with
  | true => simp
  | false =>
    cases hrange : isValidIpRange value with
    | none => simp
    | some isRange =>
      cases isRange with
      | true => simp
      | false =>
        cases isValidHostname value with
        | true => simp
        | false => simp

/-! ### What is excluded -/

theorem applyExcludedRoutes_singleton {resolve : Text → Option InetAddress} {sdkInt : ℕ}
    (hsdk : tiramisu ≤ sdkInt) {route : IpPrefix}
    (hroute : excludeRoute resolve value = ([], some route)) :
    applyExcludedRoutes resolve sdkInt [value] = ([], [route]) := by
  rw [applyExcludedRoutes, if_pos hsdk]
  simp [hroute]

/-- A plain address excludes itself. -/
theorem excludeRoute_address {address : Fin (2 ^ 32)} (hquad : readQuad value = some address)
    (hslash : '/' ∉ value) (resolve : Text → Option InetAddress) :
    excludeRoute resolve value = ([], some ⟨.v4 address, 32⟩) := by
  have hnot : value.contains '/' = false := by simpa using hslash
  have haddress : ipPrefix (.v4 address) 32 = some ⟨.v4 address, 32⟩ := by
    have hself : Fin.ofNat (2 ^ 32) (address.val / 2 ^ (32 - 32) * 2 ^ (32 - 32)) = address := by
      rw [Nat.sub_self, Nat.pow_zero, Nat.div_one, Nat.mul_one, Fin.ofNat_val_eq_self]
    rw [ipPrefix, if_pos (by decide)]
    exact congrArg (fun address ↦ some (IpPrefix.mk (.v4 address) 32)) hself
  simp only [excludeRoute, hnot, Bool.false_eq_true, if_false, getByName, hquad, Option.bind_some,
    haddress]

/-- A plain range that is canonical excludes itself. -/
theorem RangeOf.excludeRoute (hof : RangeOf value ip length prefixLength a b c d)
    {address : Fin (2 ^ 32)} (hquad : readQuad ip = some address)
    (hcanonical : address.val / 2 ^ (32 - prefixLength.toNat) * 2 ^ (32 - prefixLength.toNat) =
      address.val) (resolve : Text → Option InetAddress) :
    excludeRoute resolve value = ([], some ⟨.v4 address, prefixLength.toNat⟩) := by
  have haddress : ipPrefix (.v4 address) prefixLength =
      some ⟨.v4 address, prefixLength.toNat⟩ := by
    rw [ipPrefix, if_pos ⟨hof.low, hof.high⟩]
    simp only [hcanonical, Fin.ofNat_val_eq_self]
  simp only [ExcludedIps.excludeRoute, hof.slash, if_true, hof.split, getByName, hquad,
    Option.bind_some, hof.length, haddress]

theorem RangeOf.plain (hof : RangeOf value ip length prefixLength a b c d)
    (hplain : PlainCharacters value) : PlainCharacters ip ∧ PlainCharacters length := by
  rw [hof.text] at hplain
  exact ⟨fun c hc ↦ hplain c (List.mem_append_left _ hc),
    fun c hc ↦ hplain c (List.mem_append_right _ (List.mem_cons_of_mem _ hc))⟩

/-- The prefix length of a plain range. -/
theorem RangeOf.ofDigitChars (hof : RangeOf value ip length prefixLength a b c d)
    (hplain : PlainCharacters length) : length ≠ [] ∧ (∀ c ∈ length, c.isDigit = true) ∧
      Nat.ofDigitChars 10 length 0 = prefixLength.toNat := by
  obtain ⟨hne, hdigits⟩ := isDigit_of_read hof.length hplain
  have hread := hof.length
  rw [toIntOrNull_isDigit hdigits hne] at hread
  split_ifs at hread
  exact ⟨hne, hdigits, by rw [← Option.some.inj hread, Int.toNat_natCast]⟩

/-- An accepted text with plain characters is a plain entry and excludes what it denotes. -/
theorem excluded_of_plain (hplain : PlainCharacters value) (haccepted : Accepted value) :
    ∃ address prefixLength, PlainEntry value address prefixLength ∧
      (detectEntryType value = some (some .ip) → prefixLength = 32) ∧
      ∀ resolve sdkInt, tiramisu ≤ sdkInt →
        applyExcludedRoutes resolve sdkInt [value] = ([], [⟨.v4 address, prefixLength⟩]) := by
  rcases accepted_iff.mp haccepted with hvalid | ⟨hvalid, hrange⟩
  · obtain ⟨a, b, c, d, hreads⟩ := isValidIpAddress_iff.mp hvalid
    have hquad := hreads.readQuad hplain
    exact ⟨_, 32, .address hquad, fun _ ↦ rfl, fun resolve sdkInt hsdk ↦
      applyExcludedRoutes_singleton hsdk
        (excludeRoute_address hquad (not_mem_slash_of_reads hreads) resolve)⟩
  · obtain ⟨ip, length, prefixLength, a, b, c, d, hof, hcanonical⟩ := isValidIpRange_eq_true hrange
    obtain ⟨hip, hlength⟩ := hof.plain hplain
    obtain ⟨hne, hdigits, hnumber⟩ := hof.ofDigitChars hlength
    have hquad := hof.reads.readQuad hip
    have hhigh : prefixLength.toNat ≤ 32 := by have := hof.high; omega
    refine ⟨_, prefixLength.toNat, ?_, ?_, fun resolve sdkInt hsdk ↦
      applyExcludedRoutes_singleton hsdk (hof.excludeRoute hquad hcanonical resolve)⟩
    · have hentry := PlainEntry.range hquad ⟨hne, hdigits⟩ (hnumber ▸ hhigh)
      rw [hnumber] at hentry
      exact hof.text.symm ▸ hentry
    · intro hip
      rw [detectEntryType, hof.not_isValidIpAddress, hrange] at hip
      cases hip

/-- A plain entry has plain characters. -/
theorem PlainEntry.plainCharacters {address : Fin (2 ^ 32)} {bits : ℕ}
    (hentry : PlainEntry value address bits) : PlainCharacters value := by
  cases hentry with
  | address hquad => exact fun c hc ↦ (readQuad_eq_some hquad c hc).imp_right Or.inl
  | range hquad hdigits hle =>
    intro c hc
    rcases List.mem_append.mp hc with hip | hrest
    · exact (readQuad_eq_some hquad c hip).imp_right Or.inl
    · rcases List.mem_cons.mp hrest with rfl | hlength
      · exact Or.inr (Or.inr rfl)
      · exact Or.inl (hdigits.2 c hlength)

/-! ### What is suggested -/

theorem checkNonCanonicalCidr_eq_some {info : NonCanonicalCidrInfo}
    (hinfo : checkNonCanonicalCidr value = some (some info)) :
    ∃ length a b c d ipInt, RangeOf value info.ip length info.prefixLength a b c d ∧
      ipValue info.ip = some ipInt ∧ ipInt.toNat = ofOctets a b c d ∧
      info.canonicalIp = addressText (ipInt &&& networkMask info.prefixLength) := by
  unfold checkNonCanonicalCidr at hinfo
  split_ifs at hinfo with hslash
  · cases hinfo
  split at hinfo
  · next ip length hsplit =>
    split at hinfo
    · cases hinfo
    · next prefixLength hlength =>
      split_ifs at hinfo with hvalid
      · cases hinfo
      obtain ⟨a, b, c, d, hof⟩ := exists_rangeOf hslash hsplit hlength hvalid
      obtain ⟨ipInt, hvalue, hnat⟩ := hof.reads.ipValue
      simp only [isCanonicalCidr, getCanonicalNetworkAddress, hvalue, Option.map_some,
        Option.bind_eq_bind, Option.bind_some, Option.pure_def] at hinfo
      split_ifs at hinfo
      · cases hinfo
      obtain rfl := Option.some.inj (Option.some.inj hinfo)
      exact ⟨length, a, b, c, d, ipInt, hof, hvalue, hnat, rfl⟩
  · cases hinfo

theorem reads_quad (address : ℕ) : Reads (quad address) (address / 2 ^ 24 % 256)
    (address / 2 ^ 16 % 256) (address / 2 ^ 8 % 256) (address % 256) := by
  have hlt : ∀ n, n % 256 < 256 := fun n ↦ Nat.mod_lt n (by decide)
  have hread : ∀ n, toIntOrNull (decimal (n % 256)) = some ((n % 256 : ℕ) : ℤ) :=
    fun n ↦ toIntOrNull_decimal ((hlt n).trans (by decide))
  exact ⟨⟨hlt _, hlt _, hlt _, hlt _⟩, _, _, _, _, splitOn_quad address, hread _, hread _, hread _,
    hread _⟩

/-- The suggested range is accepted, denotes the block of the address that was entered, and contains
it. -/
theorem suggestion_sound {info : NonCanonicalCidrInfo}
    (hinfo : checkNonCanonicalCidr value = some (some info)) :
    ∃ (entered suggested : Fin (2 ^ 32)) (mask : Fin 33), (mask : ℤ) = info.prefixLength ∧
      (ipValue info.ip).map BitVec.toNat = some entered.val ∧
      readQuad info.canonicalIp = some suggested ∧
      detectEntryType (info.canonicalIp ++ '/' :: decimal mask) = some (some .ipRange) ∧
      (∀ d, (InetNetwork.v4 suggested mask).contains d ↔ (InetNetwork.v4 entered mask).contains d) ∧
      (InetNetwork.v4 suggested mask).contains (.v4 entered) := by
  obtain ⟨length, a, b, c, d, ipInt, hof, hvalue, hnat, hcanonical⟩ :=
    checkNonCanonicalCidr_eq_some hinfo
  have hlt : ipInt.toNat < 2 ^ 32 := hnat ▸ hof.reads.lt
  have hmask : info.prefixLength.toNat < 33 := by have := hof.high; omega
  have hprefix : ((info.prefixLength.toNat : ℕ) : ℤ) = info.prefixLength :=
    Int.toNat_of_nonneg hof.low
  have hmasked := toNat_and_networkMask hlt hof.low hof.high
  have hpos : 0 < 2 ^ (32 - info.prefixLength.toNat) := Nat.two_pow_pos _
  have hdiv : (ipInt &&& networkMask info.prefixLength).toNat / 2 ^ (32 - info.prefixLength.toNat) =
      ipInt.toNat / 2 ^ (32 - info.prefixLength.toNat) := by
    rw [hmasked, Nat.mul_div_cancel _ hpos]
  have hcanon := hdiv.symm ▸ hmasked
  have hsmall : (ipInt &&& networkMask info.prefixLength).toNat < 2 ^ 32 :=
    hmasked ▸ Nat.lt_of_le_of_lt (Nat.div_mul_le_self _ _) hlt
  rw [addressText_eq] at hcanonical
  generalize (ipInt &&& networkMask info.prefixLength).toNat = network at *
  refine ⟨⟨ipInt.toNat, hlt⟩, ⟨network, hsmall⟩, ⟨info.prefixLength.toNat, hmask⟩, hprefix, ?_, ?_,
    ?_, ?_, ?_⟩
  · rw [hvalue, Option.map_some]
  · rw [hcanonical]
    exact readQuad_quad ⟨network, hsmall⟩
  · have hread : toIntOrNull (decimal info.prefixLength.toNat) =
        some ((info.prefixLength.toNat : ℕ) : ℤ) := toIntOrNull_decimal (by omega)
    have hrange := rangeOf_append (reads_quad network) hread (Int.natCast_nonneg _) (by omega)
    rw [hcanonical, detectEntryType, hrange.not_isValidIpAddress, hrange.isValidIpRange,
      Int.toNat_natCast, ofOctets_octets _ hsmall, decide_eq_true hcanon.symm]
    rfl
  · intro d
    cases d with
    | v4 d => simp only [InetNetwork.contains, hdiv]
    | v6 d => exact Iff.rfl
  · simp only [InetNetwork.contains, hdiv]

/-- What the platform reads has plain characters only. -/
theorem plainCharacters_of_sound (hsound : EntrySound value) (haccepted : Accepted value) :
    PlainCharacters value := by
  obtain ⟨address, bits, hentry, -⟩ := hsound.excluded haccepted
  exact hentry.plainCharacters

/-- An entry keeps the promise exactly when it is not accepted or has plain characters only. -/
theorem entrySound_iff (value : Text) :
    EntrySound value ↔ (Accepted value → PlainCharacters value) := by
  constructor
  · exact plainCharacters_of_sound
  · intro hplain
    exact ⟨fun haccepted ↦ excluded_of_plain (hplain haccepted) haccepted,
      fun info hinfo ↦ suggestion_sound hinfo⟩

/-- An octet with a sign is accepted, and looked up as a host name when the route is applied. -/
theorem not_entrySound_sign : ¬ ∀ value, EntrySound value := by
  intro hsound
  have haccepted : Accepted "+1.2.3.4".toList := Or.inl (by decide)
  have hplain : PlainCharacters "+1.2.3.4".toList := plainCharacters_of_sound (hsound _) haccepted
  exact absurd (hplain '+' (by decide)) (by decide)

end WindscribeVpn.Preferences.ExcludedIps
