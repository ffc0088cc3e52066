import WindscribeVpn.Backend.LanBypass
import WindscribeVpn.Foundations.BitMasks
import WindscribeVpn.Foundations.Digests

/-!
# LAN addresses of WireGuard peers

`WireguardUtil` gives every WireGuard key an address in the LAN of the tunnel: the first bits come
from the block, the rest from the SHA-256 digest of the key. The server computes the same address.

`LanAddressSound` is the promise for a key and a block. For IPv4 it always holds
(`generateWireguardIP_sound`), the whole address space and single addresses included, and addresses
survive the way through their text (`ipStringToInt_ipIntToString`). For IPv6 the sixteen bytes are
handed to `InetAddress.getByAddress`, which takes an IPv4-mapped value for an IPv4 address.
`lanAddressSound_iff` says when that happens: the first 64 bits of the block are zero and the digest
starts with `00 00 FF FF`. `not_lanAddressSound_mapped` is a key with such a digest.

Texts of addresses are read and written by the platform, which reads back what it has written
(`AddressTexts`); `fullTexts` is such a platform.
-/

set_option autoImplicit false
set_option relaxedAutoImplicit false

namespace WindscribeVpn.Commons.WireguardUtil

open Foundations.Texts Foundations.BitMasks Foundations.Positional Foundations.Digests
open Backend.LanBypass (InetAddress InetNetwork)

/-! ### IPv4 -/

/-- `CIDRBlock`. -/
structure CIDRBlock where
  networkAddress : BitVec 32
  prefixLength : ℤ
  deriving DecidableEq, Repr

namespace CIDRBlock

/-- `hostBits`. -/
def hostBits (block : CIDRBlock) : ℤ := 32 - block.prefixLength

/-- `hostMask`; a shift counts modulo the width. -/
def hostMask (block : CIDRBlock) : BitVec 32 :=
  if block.hostBits = 32 then -1 else (1#32 <<< (block.hostBits % 32).toNat) - 1#32

/-- `networkMask`. -/
def networkMask (block : CIDRBlock) : BitVec 32 := ~~~block.hostMask

end CIDRBlock

/-- The number of four octets. -/
def joinOctets (octets : List ℤ) : BitVec 32 :=
  let octet := fun i ↦ BitVec.ofInt 32 (octets.getD i 0) &&& 0xFF
  (octet 0 <<< 24) ||| (octet 1 <<< 16) ||| (octet 2 <<< 8) ||| octet 3

/-- `ipStringToInt`; an error is the message of the exception. -/
def ipStringToInt (ip : Text) : Except Text (BitVec 32) :=
  let parts := ip.splitOn '.'
  if parts.length ≠ 4 then
    .error ("Invalid IP address format: ".toList ++ ip ++ " (expected 4 octets)".toList)
  else
    match parts.mapM toIntOrNull with
    | none => .error ("Invalid IP address octets: ".toList ++ ip)
    | some octets =>
      match octets.find? fun octet ↦ !decide (0 ≤ octet ∧ octet ≤ 255) with
      | some octet =>
        .error ("Invalid IP address octet value: ".toList ++ (toString octet).toList ++
          " (must be 0-255) in ".toList ++ ip)
      | none => .ok (joinOctets octets)

/-- `ipIntToString`. -/
def ipIntToString (ip : BitVec 32) : Text :=
  ['.'].intercalate <| [24, 16, 8, 0].map fun shift ↦ decimal (ip.sshiftRight shift &&& 0xFF).toNat

/-- `parseCIDR`. -/
def parseCIDR (cidr : Text) : Except Text CIDRBlock :=
  match cidr.splitOn '/' with
  | [baseIp, length] =>
    match toIntOrNull length with
    | none => .error ("Invalid prefix length in CIDR: ".toList ++ cidr)
    | some prefixLength =>
      if 0 ≤ prefixLength ∧ prefixLength ≤ 32 then
        (ipStringToInt baseIp).map fun networkAddress ↦ { networkAddress, prefixLength }
      else
        .error ("Invalid prefix length: ".toList ++ (toString prefixLength).toList ++
          " (must be 0-32)".toList)
  | _ => .error ("Invalid CIDR format: ".toList ++ cidr ++ " (expected format: x.x.x.x/n)".toList)

/-- `hashPublicKey`. -/
def hashPublicKey (publicKeyBase64 : Text) : Except Text (BitVec 32) :=
  match decodeBase64 publicKeyBase64 with
  | none => .error ("Invalid Base64 public key: ".toList ++ publicKeyBase64)
  | some publicKeyBytes =>
    let digest := (sha256 publicKeyBytes).map fun byte : ℕ ↦ (byte : ℤ)
    .ok (joinOctets digest)

/-- `generateIPFromHash`. -/
def generateIPFromHash (cidrBlock : CIDRBlock) (hashValue : BitVec 32) : BitVec 32 :=
  (cidrBlock.networkAddress &&& cidrBlock.networkMask) ||| (hashValue &&& cidrBlock.hostMask)

/-- `generateWireguardIP`. -/
def generateWireguardIP (publicKeyBase64 cidr : Text) : Except Text Text := do
  let cidrBlock ← parseCIDR cidr
  let hashValue ← hashPublicKey publicKeyBase64
  let ipInt := generateIPFromHash cidrBlock hashValue
  pure (ipIntToString ipInt ++ "/32".toList)

/-! ### IPv6 -/

/-- The bytes of an address, `getAddress`. -/
def addressBytes : InetAddress → List ℕ
  | .v4 address => toBase 256 4 address
  | .v6 address => toBase 256 16 address

/-- `InetAddress.getByAddress`, which makes an IPv4 address of an IPv4-mapped value; `none` when the
length is wrong. -/
def getByAddress (bytes : List ℕ) : Option InetAddress :=
  if bytes.length = 4 then some (.v4 (Fin.ofNat (2 ^ 32) (ofBase 256 bytes)))
  else if bytes.length = 16 then
    if bytes.take 12 = List.replicate 10 0 ++ [255, 255] then
      some (.v4 (Fin.ofNat (2 ^ 32) (ofBase 256 (bytes.drop 12))))
    else some (.v6 (Fin.ofNat (2 ^ 128) (ofBase 256 bytes)))
  else none

/-- The functions of `InetAddress` between addresses and their texts. -/
structure AddressTexts where
  /-- `getByName`, `none` when it throws. -/
  getByName : Text → Option InetAddress
  /-- `hostAddress`. -/
  hostAddress : InetAddress → Text
  /-- The text of an address that was made of bytes is read back. -/
  read_host : ∀ bytes address, (∀ byte ∈ bytes, byte < 256) → getByAddress bytes = some address →
    getByName (hostAddress address) = some address

/-- `generateWireguardIPv6`. -/
def generateWireguardIPv6 (texts : AddressTexts) (publicKeyBase64 cidr : Text) :
    Except Text Text :=
  match cidr.splitOn '/' with
  | [prefixAddr, length] =>
    match toIntOrNull length with
    | none => .error ("Invalid prefix length in IPv6 CIDR: ".toList ++ cidr)
    | some prefixLength =>
      if ¬ (0 ≤ prefixLength ∧ prefixLength ≤ 128) then
        .error ("Invalid IPv6 prefix length: ".toList ++ (toString prefixLength).toList ++
          " (must be 0-128)".toList)
      else if ¬ prefixLength ≤ 64 then
        .error ("WireGuard LAN prefix ".toList ++ cidr ++
          " must be /64 or larger (smaller prefix length) ".toList ++
          "to support unique /128 allocations".toList)
      else
        match decodeBase64 publicKeyBase64 with
        | none => .error ("Failed to decode base64 public key: ".toList ++ publicKeyBase64)
        | some publicKeyBytes =>
          let interfaceId := (sha256 publicKeyBytes).take 8
          match texts.getByName prefixAddr with
          | none => .error ("Failed to parse IPv6 address: ".toList ++ prefixAddr)
          | some prefixAddress =>
            let prefixBytes := addressBytes prefixAddress
            if prefixBytes.length ≠ 16 then
              .error ("Invalid IPv6 address: ".toList ++ prefixAddr ++
                " (must be an IPv6 address)".toList)
            else
              match getByAddress (prefixBytes.take 8 ++ interfaceId) with
              | none => .error "Failed to construct IPv6 address from public key".toList
              | some ipv6Address => .ok (texts.hostAddress ipv6Address)
  | _ => .error ("Invalid IPv6 CIDR format: ".toList ++ cidr)

/-! ### The promise -/

/-- A block and a key that `generateWireguardIPv6` accepts. -/
structure Accepts (texts : AddressTexts) (key cidr : Text) (base : Fin (2 ^ 128)) (mask : Fin 129)
    (keyBytes : List ℕ) : Prop where
  cidr : ∃ prefixAddr length, cidr.splitOn '/' = [prefixAddr, length] ∧
    toIntOrNull length = some ((mask : ℕ) : ℤ) ∧ texts.getByName prefixAddr = some (.v6 base)
  mask : mask.val ≤ 64
  key : decodeBase64 key = some keyBytes

/-- What `WireguardUtil` promises for a key and the text of a block. -/
structure LanAddressSound (texts : AddressTexts) (key cidr : Text) : Prop where
  /-- The IPv4 address has the first bits of the block and the low bits of the hash. -/
  inBlock : ∀ block hash, parseCIDR cidr = .ok block → hashPublicKey key = .ok hash →
    ∃ (mask : Fin 33) (ip : BitVec 32), (mask : ℤ) = block.prefixLength ∧
      generateWireguardIP key cidr = .ok (quad ip.toNat ++ "/32".toList) ∧
      ∀ i < 32, ip.getLsbD i =
        if i < 32 - mask.val then hash.getLsbD i else block.networkAddress.getLsbD i
  /-- Addresses survive the way through their text. -/
  roundTrip : ∀ ip, ipStringToInt (ipIntToString ip) = .ok ip
  /-- The IPv6 address lies in the block, and its last 64 bits are the first bytes of the digest. -/
  inBlock6 : ∀ text, generateWireguardIPv6 texts key cidr = .ok text →
    ∃ base mask keyBytes address, Accepts texts key cidr base mask keyBytes ∧
      texts.getByName text = some (.v6 address) ∧
      (InetNetwork.v6 base mask).contains (.v6 address) ∧
      address.val % 2 ^ 64 = ofBase 256 ((sha256 keyBytes).take 8)
  /-- Other first bytes of the digest give another address. -/
  distinct : ∀ other keyBytes otherBytes text otherText, decodeBase64 key = some keyBytes →
    decodeBase64 other = some otherBytes → generateWireguardIPv6 texts key cidr = .ok text →
    generateWireguardIPv6 texts other cidr = .ok otherText →
    (sha256 keyBytes).take 8 ≠ (sha256 otherBytes).take 8 → text ≠ otherText

/-- The first 64 bits of the block are zero and the digest of the key starts with the two bytes of
zeros and the two bytes of ones that mark an IPv4-mapped value. -/
def Mapped (texts : AddressTexts) (key cidr : Text) : Prop :=
  ∃ base mask keyBytes, Accepts texts key cidr base mask keyBytes ∧ base.val < 2 ^ 64 ∧
    (sha256 keyBytes).take 4 = [0, 0, 255, 255]

/-! ### The masks -/

variable {key cidr ip : Text} {block : CIDRBlock} {hash : BitVec 32}

/-- The host mask has ones below the host bits, for every prefix length. -/
theorem CIDRBlock.getLsbD_hostMask (hlow : 0 ≤ block.prefixLength)
    (hhigh : block.prefixLength ≤ 32) (i : ℕ) :
    block.hostMask.getLsbD i = decide (i < 32 - block.prefixLength.toNat) := by
  unfold hostMask hostBits
  split_ifs with hall
  · -- The prefix is empty: the mask is all ones.
    have hzero : block.prefixLength.toNat = 0 := by omega
    change (BitVec.allOnes 32).getLsbD i = _
    rw [BitVec.getLsbD_allOnes, hzero]
  · have hshift : ((32 - block.prefixLength) % 32).toNat = 32 - block.prefixLength.toNat := by omega
    rw [hshift]
    exact getLsbD_lowMask (by omega) i

/-- The bits of an address that is generated in a block. -/
theorem getLsbD_generateIPFromHash (hlow : 0 ≤ block.prefixLength)
    (hhigh : block.prefixLength ≤ 32) (hash : BitVec 32) (i : ℕ) :
    (generateIPFromHash block hash).getLsbD i =
      if i < 32 - block.prefixLength.toNat then hash.getLsbD i
      else block.networkAddress.getLsbD i := by
  rw [generateIPFromHash, CIDRBlock.networkMask, getLsbD_join,
    CIDRBlock.getLsbD_hostMask hlow hhigh]
  simp only [decide_eq_true_eq]

theorem parseCIDR_eq_ok (hblock : parseCIDR cidr = .ok block) :
    0 ≤ block.prefixLength ∧ block.prefixLength ≤ 32 := by
  unfold parseCIDR at hblock
  split at hblock
  · split at hblock
    · cases hblock
    · split_ifs at hblock with hrange
      · next _ baseIp length hparts _ prefixLength hlength =>
        cases hip : ipStringToInt baseIp with
        | error message => rw [hip] at hblock; cases hblock
        | ok networkAddress =>
          rw [hip] at hblock
          cases hblock
          exact hrange
  · cases hblock

/-! ### The texts of IPv4 addresses -/

theorem ipIntToString_eq (ip : BitVec 32) : ipIntToString ip = quad ip.toNat :=
  intercalate_octets ip (by decide)

theorem toNat_joinOctets {a b c d : ℕ} (ha : a < 256) (hb : b < 256) (hc : c < 256) (hd : d < 256)
    (rest : List ℤ) :
    (joinOctets ((a : ℤ) :: (b : ℤ) :: (c : ℤ) :: (d : ℤ) :: rest)).toNat = ofOctets a b c d := by
  have hoctet : ∀ n : ℕ, n < 256 → BitVec.ofInt 32 (n : ℤ) &&& 0xFF = BitVec.ofNat 32 n := by
    intro n hn
    refine BitVec.eq_of_toNat_eq ?_
    rw [BitVec.ofInt_natCast, BitVec.toNat_and, BitVec.toNat_ofNat,
      Nat.mod_eq_of_lt (hn.trans (by decide))]
    exact (Nat.and_two_pow_sub_one_eq_mod n 8).trans (Nat.mod_eq_of_lt hn)
  have hjoin : joinOctets ((a : ℤ) :: (b : ℤ) :: (c : ℤ) :: (d : ℤ) :: rest) =
      (BitVec.ofNat 32 a <<< 24) ||| (BitVec.ofNat 32 b <<< 16) ||| (BitVec.ofNat 32 c <<< 8) |||
        BitVec.ofNat 32 d := by
    rw [← hoctet a ha, ← hoctet b hb, ← hoctet c hc, ← hoctet d hd]
    rfl
  rw [hjoin, toNat_or_shiftLeft_octets ha hb hc hd (by decide)]

/-- An address survives the way through its text. -/
theorem ipStringToInt_ipIntToString (ip : BitVec 32) :
    ipStringToInt (ipIntToString ip) = .ok ip := by
  have hlt : ∀ n, n % 256 < 256 := fun n ↦ Nat.mod_lt n (by decide)
  have hread : ∀ n, toIntOrNull (decimal (n % 256)) = some ((n % 256 : ℕ) : ℤ) :=
    fun n ↦ toIntOrNull_decimal ((hlt n).trans (by decide))
  have hparts : ((octets ip.toNat).map decimal).mapM toIntOrNull =
      some ((octets ip.toNat).map fun octet : ℕ ↦ (octet : ℤ)) := by
    simp only [octets, List.map_cons, List.map_nil, List.mapM_cons, List.mapM_nil, hread]
    rfl
  have hnone : (((octets ip.toNat).map fun octet : ℕ ↦ (octet : ℤ)).find? fun octet ↦
      !decide (0 ≤ octet ∧ octet ≤ 255)) = none := by
    refine List.find?_eq_none.mpr fun octet hmem ↦ ?_
    simp only [octets, List.map_cons, List.map_nil, List.mem_cons, List.not_mem_nil,
      or_false] at hmem
    rcases hmem with rfl | rfl | rfl | rfl
    all_goals
      simp only [Bool.not_eq_true', decide_eq_false_iff_not, not_not]
      omega
  have hlength : ((octets ip.toNat).map decimal).length = 4 := rfl
  simp only [ipStringToInt, ipIntToString_eq, splitOn_quad, hlength, hparts, hnone, ne_eq,
    not_true_eq_false, if_false]
  refine congrArg Except.ok (BitVec.eq_of_toNat_eq ?_)
  rw [octets, List.map_cons, List.map_cons, List.map_cons, List.map_cons,
    toNat_joinOctets (hlt _) (hlt _) (hlt _) (hlt _), ofOctets_octets _ ip.isLt]

/-- The IPv4 address has the first bits of the block and the low bits of the hash. -/
theorem generateWireguardIP_sound (hblock : parseCIDR cidr = .ok block)
    (hhash : hashPublicKey key = .ok hash) :
    ∃ (mask : Fin 33) (ip : BitVec 32), (mask : ℤ) = block.prefixLength ∧
      generateWireguardIP key cidr = .ok (quad ip.toNat ++ "/32".toList) ∧
      ∀ i < 32, ip.getLsbD i =
        if i < 32 - mask.val then hash.getLsbD i else block.networkAddress.getLsbD i := by
  obtain ⟨hlow, hhigh⟩ := parseCIDR_eq_ok hblock
  refine ⟨⟨block.prefixLength.toNat, by omega⟩, generateIPFromHash block hash,
    Int.toNat_of_nonneg hlow, ?_, fun i _ ↦ getLsbD_generateIPFromHash hlow hhigh hash i⟩
  rw [generateWireguardIP, hblock, hhash, ← ipIntToString_eq]
  rfl

/-! ### The bytes of IPv6 addresses -/

variable {texts : AddressTexts} {text : Text} {base : Fin (2 ^ 128)} {mask : Fin 129}
  {keyBytes : List ℕ}

/-- The first half of the block and the first half of an identifier of the interface. -/
def mergedBytes (base : Fin (2 ^ 128)) (keyBytes : List ℕ) : List ℕ :=
  (toBase 256 16 base).take 8 ++ (sha256 keyBytes).take 8

theorem length_mergedBytes (base : Fin (2 ^ 128)) (keyBytes : List ℕ) :
    (mergedBytes base keyBytes).length = 16 := by
  simp [mergedBytes]

theorem lt_of_mem_mergedBytes {byte : ℕ} (hmem : byte ∈ mergedBytes base keyBytes) :
    byte < 256 := by
  rcases List.mem_append.mp hmem with hprefix | hdigest
  · exact lt_of_mem_toBase (by decide) (List.mem_of_mem_take hprefix)
  · exact lt_of_mem_sha256 (List.mem_of_mem_take hdigest)

/-- The number of the bytes: the first 64 bits of the block and the first bytes of the digest. -/
theorem ofBase_mergedBytes (base : Fin (2 ^ 128)) (keyBytes : List ℕ) :
    ofBase 256 (mergedBytes base keyBytes) =
      base.val / 2 ^ 64 * 2 ^ 64 + ofBase 256 ((sha256 keyBytes).take 8) := by
  have hlength : ((sha256 keyBytes).take 8).length = 8 := by simp
  have hlt : base.val < 256 ^ (8 + ((sha256 keyBytes).take 8).length) := by
    rw [hlength]
    exact base.isLt
  have hmerged := ofBase_take_append 8 hlt
  rw [hlength] at hmerged
  exact hmerged

theorem ofBase_digest_lt (keyBytes : List ℕ) :
    ofBase 256 ((sha256 keyBytes).take 8) < 2 ^ 64 := by
  have hlt : ofBase 256 ((sha256 keyBytes).take 8) < 256 ^ ((sha256 keyBytes).take 8).length :=
    ofBase_lt fun byte hmem ↦ lt_of_mem_sha256 (List.mem_of_mem_take hmem)
  rw [List.length_take_of_le (by simp)] at hlt
  exact hlt

/-- The bytes are those of an IPv4-mapped value when the first half of the block is zero and the
digest starts with the mark. -/
theorem take_mergedBytes_iff (base : Fin (2 ^ 128)) (keyBytes : List ℕ) :
    (mergedBytes base keyBytes).take 12 = List.replicate 10 0 ++ [255, 255] ↔
      base.val < 2 ^ 64 ∧ (sha256 keyBytes).take 4 = [0, 0, 255, 255] := by
  have hupper : (toBase 256 16 base).take 8 = toBase 256 8 (base / 2 ^ 64) := take_toBase 256 8 8 _
  have htake : (mergedBytes base keyBytes).take 12 =
      toBase 256 8 (base / 2 ^ 64) ++ (sha256 keyBytes).take 4 := by
    rw [mergedBytes, hupper, List.take_append, List.take_of_length_le (by simp), length_toBase,
      List.take_take]
    rfl
  have hzeros : toBase 256 8 (base / 2 ^ 64) = List.replicate 8 0 ↔ base.val < 2 ^ 64 := by
    constructor
    · intro hzero
      have hvalue := ofBase_toBase 256 8 (base.val / 2 ^ 64)
      rw [hzero] at hvalue
      have hquotient : base.val / 2 ^ 64 < 256 ^ 8 := by
        have := base.isLt
        omega
      rw [Nat.mod_eq_of_lt hquotient] at hvalue
      exact (Nat.div_eq_zero_iff_lt (by decide)).mp hvalue.symm
    · intro hlt
      rw [Nat.div_eq_of_lt hlt]
      rfl
  rw [htake]
  constructor
  · intro hmapped
    have hsplit : toBase 256 8 (base / 2 ^ 64) ++ (sha256 keyBytes).take 4 =
        List.replicate 8 0 ++ [0, 0, 255, 255] := hmapped
    obtain ⟨hfirst, hlast⟩ := List.append_inj hsplit (by simp)
    exact ⟨hzeros.mp hfirst, hlast⟩
  · rintro ⟨hlt, hmark⟩
    rw [hzeros.mpr hlt, hmark]
    rfl

/-- The mark of an IPv4-mapped value gives an IPv4 address. -/
theorem getByAddress_mapped (hbase : base.val < 2 ^ 64)
    (hmark : (sha256 keyBytes).take 4 = [0, 0, 255, 255]) :
    ∃ address, getByAddress (mergedBytes base keyBytes) = some (.v4 address) := by
  rw [getByAddress, if_neg (by rw [length_mergedBytes]; decide),
    if_pos (length_mergedBytes base keyBytes),
    if_pos ((take_mergedBytes_iff base keyBytes).mpr ⟨hbase, hmark⟩)]
  exact ⟨_, rfl⟩

/-- All other values give an IPv6 address of the first half of the block and the first bytes of the
digest. -/
theorem getByAddress_not_mapped
    (hnot : ¬ (base.val < 2 ^ 64 ∧ (sha256 keyBytes).take 4 = [0, 0, 255, 255])) :
    ∃ address, getByAddress (mergedBytes base keyBytes) = some (.v6 address) ∧
      address.val = base.val / 2 ^ 64 * 2 ^ 64 + ofBase 256 ((sha256 keyBytes).take 8) := by
  rw [getByAddress, if_neg (by rw [length_mergedBytes]; decide),
    if_pos (length_mergedBytes base keyBytes),
    if_neg fun htake ↦ hnot ((take_mergedBytes_iff base keyBytes).mp htake)]
  refine ⟨_, rfl, ?_⟩
  have hlow := ofBase_digest_lt keyBytes
  have hbase := base.isLt
  rw [ofBase_mergedBytes]
  exact Nat.mod_eq_of_lt (by omega)

/-- What is generated, and when. -/
theorem generateWireguardIPv6_eq_ok :
    generateWireguardIPv6 texts key cidr = .ok text ↔
      ∃ base mask keyBytes address, Accepts texts key cidr base mask keyBytes ∧
        getByAddress (mergedBytes base keyBytes) = some address ∧
        text = texts.hostAddress address := by
  constructor
  · intro hok
    unfold generateWireguardIPv6 at hok
    split at hok
    · next _ prefixAddr length hparts =>
      split at hok
      · cases hok
      · next prefixLength hlength =>
        split_ifs at hok with hrange hsixtyfour
        split at hok
        · cases hok
        · next keyBytes hkey =>
          split at hok
          · cases hok
          · next prefixAddress hname =>
            dsimp only at hok
            split_ifs at hok with hsixteen
            split at hok
            · cases hok
            · next address hbytes =>
              cases prefixAddress with
              | v4 address4 =>
                refine absurd (fun hlength4 ↦ ?_) hsixteen
                exact absurd ((length_toBase 256 4 address4).symm.trans hlength4) (by decide)
              | v6 base =>
                obtain ⟨mask, rfl⟩ := Int.eq_ofNat_of_zero_le hrange.1
                have hmask : mask < 129 := by omega
                refine ⟨base, ⟨mask, hmask⟩, keyBytes, address, ⟨⟨prefixAddr, length, hparts,
                  hlength, hname⟩, ?_, hkey⟩, hbytes, (Except.ok.inj hok).symm⟩
                change mask ≤ 64
                omega
    · cases hok
  · rintro ⟨base, mask, keyBytes, address, haccepts, hbytes, rfl⟩
    obtain ⟨prefixAddr, length, hparts, hlength, hname⟩ := haccepts.cidr
    have hmask := haccepts.mask
    rw [generateWireguardIPv6, hparts]
    dsimp only
    rw [hlength]
    dsimp only
    rw [if_neg (by omega), if_neg (by omega), haccepts.key]
    dsimp only
    rw [hname]
    dsimp only
    rw [if_neg (by simp [addressBytes])]
    have hmerged : (addressBytes (.v6 base)).take 8 ++ (sha256 keyBytes).take 8 =
        mergedBytes base keyBytes := rfl
    rw [hmerged, hbytes]

/-- The text of a generated address is read back. -/
theorem getByName_hostAddress (texts : AddressTexts) {address : InetAddress}
    (hbytes : getByAddress (mergedBytes base keyBytes) = some address) :
    texts.getByName (texts.hostAddress address) = some address :=
  texts.read_host _ _ (fun _ ↦ lt_of_mem_mergedBytes) hbytes

/-- A block has one base address. -/
theorem Accepts.base_eq {other : Text} {base' : Fin (2 ^ 128)} {mask' : Fin 129}
    {otherBytes : List ℕ} (haccepts : Accepts texts key cidr base mask keyBytes)
    (hother : Accepts texts other cidr base' mask' otherBytes) : base = base' := by
  obtain ⟨prefixAddr, length, hparts, -, hname⟩ := haccepts.cidr
  obtain ⟨prefixAddr', length', hparts', -, hname'⟩ := hother.cidr
  rw [hparts, List.cons.injEq] at hparts'
  rw [← hparts'.1, hname] at hname'
  cases hname'
  rfl

/-! ### The promise and its exception -/

theorem inBlock6_of_not_mapped (hnot : ¬ Mapped texts key cidr)
    (htext : generateWireguardIPv6 texts key cidr = .ok text) :
    ∃ base mask keyBytes address, Accepts texts key cidr base mask keyBytes ∧
      texts.getByName text = some (.v6 address) ∧
      (InetNetwork.v6 base mask).contains (.v6 address) ∧
      address.val % 2 ^ 64 = ofBase 256 ((sha256 keyBytes).take 8) := by
  obtain ⟨base, mask, keyBytes, made, haccepts, hbytes, rfl⟩ := generateWireguardIPv6_eq_ok.mp htext
  have hunmapped : ¬ (base.val < 2 ^ 64 ∧ (sha256 keyBytes).take 4 = [0, 0, 255, 255]) :=
    fun hmapped ↦ hnot ⟨base, mask, keyBytes, haccepts, hmapped⟩
  obtain ⟨address, haddress, hvalue⟩ := getByAddress_not_mapped hunmapped
  have hlow := ofBase_digest_lt keyBytes
  refine ⟨base, mask, keyBytes, address, haccepts, ?_, ?_, by omega⟩
  · rw [hbytes] at haddress
    rw [getByName_hostAddress texts hbytes, haddress]
  · -- The first bits of the block are among its first 64 bits.
    have hshift : 128 - mask.val = 64 + (64 - mask.val) := by
      have := haccepts.mask
      omega
    change address.val / 2 ^ (128 - mask.val) = base.val / 2 ^ (128 - mask.val)
    have hhalf : address.val / 2 ^ 64 = base.val / 2 ^ 64 := by omega
    rw [hshift, pow_add, ← Nat.div_div_eq_div_mul, hhalf, Nat.div_div_eq_div_mul]

theorem distinct_of_not_mapped (hnot : ¬ Mapped texts key cidr) {other otherText : Text}
    {otherBytes : List ℕ} (hkey : decodeBase64 key = some keyBytes)
    (hother : decodeBase64 other = some otherBytes)
    (htext : generateWireguardIPv6 texts key cidr = .ok text)
    (hotherText : generateWireguardIPv6 texts other cidr = .ok otherText)
    (hdigest : (sha256 keyBytes).take 8 ≠ (sha256 otherBytes).take 8) : text ≠ otherText := by
  obtain ⟨base, mask, keyBytes', address, haccepts, hbytes, rfl⟩ :=
    generateWireguardIPv6_eq_ok.mp htext
  obtain ⟨base', mask', otherBytes', otherAddress, hacceptsOther, hbytesOther, rfl⟩ :=
    generateWireguardIPv6_eq_ok.mp hotherText
  cases Option.some.inj (hkey.symm.trans haccepts.key)
  cases Option.some.inj (hother.symm.trans hacceptsOther.key)
  cases haccepts.base_eq hacceptsOther
  intro hsame
  have hread := getByName_hostAddress texts hbytes
  rw [hsame, getByName_hostAddress texts hbytesOther] at hread
  cases hread
  have hunmapped : ¬ (base.val < 2 ^ 64 ∧ (sha256 keyBytes).take 4 = [0, 0, 255, 255]) :=
    fun hmapped ↦ hnot ⟨base, mask, keyBytes, haccepts, hmapped⟩
  obtain ⟨value, hvalue, hnumber⟩ := getByAddress_not_mapped hunmapped
  rw [hbytes] at hvalue
  cases hvalue
  by_cases hmapped : base.val < 2 ^ 64 ∧ (sha256 otherBytes).take 4 = [0, 0, 255, 255]
  · obtain ⟨value4, hvalue4⟩ := getByAddress_mapped hmapped.1 hmapped.2
    rw [hbytesOther] at hvalue4
    cases hvalue4
  · obtain ⟨otherValue, hotherValue, hotherNumber⟩ := getByAddress_not_mapped hmapped
    rw [hbytesOther] at hotherValue
    cases hotherValue
    refine hdigest (ofBase_inj ?_ ?_ ?_ (Nat.add_left_cancel (hnumber.symm.trans hotherNumber)))
    · exact fun byte hmem ↦ lt_of_mem_sha256 (List.mem_of_mem_take hmem)
    · exact fun byte hmem ↦ lt_of_mem_sha256 (List.mem_of_mem_take hmem)
    · simp

/-- An IPv4 address breaks the promise for IPv6. -/
theorem not_mapped_of_sound (hsound : LanAddressSound texts key cidr) :
    ¬ Mapped texts key cidr := by
  rintro ⟨base, mask, keyBytes, haccepts, hbase, hmark⟩
  obtain ⟨address, hbytes⟩ := getByAddress_mapped hbase hmark
  obtain ⟨-, -, -, address6, -, hread, -⟩ := hsound.inBlock6 _
    (generateWireguardIPv6_eq_ok.mpr ⟨base, mask, keyBytes, _, haccepts, hbytes, rfl⟩)
  rw [getByName_hostAddress texts hbytes] at hread
  cases hread

/-- The promise holds unless the IPv6 address would be an IPv4-mapped one. -/
theorem lanAddressSound_iff (texts : AddressTexts) (key cidr : Text) :
    LanAddressSound texts key cidr ↔ ¬ Mapped texts key cidr := by
  constructor
  · exact not_mapped_of_sound
  · exact fun hnot ↦
      { inBlock := fun block hash hblock hhash ↦ generateWireguardIP_sound hblock hhash
        roundTrip := ipStringToInt_ipIntToString
        inBlock6 := fun text ↦ inBlock6_of_not_mapped hnot
        distinct := fun other keyBytes otherBytes text otherText ↦ distinct_of_not_mapped hnot }

/-! ### A platform, and a key whose digest has the mark -/

/-- Reads a group of at most four hexadecimal digits. -/
def readGroup (group : Text) : Option ℕ :=
  if group ≠ [] ∧ group.length ≤ 4 then readHex group 0 else none

/-- The groups of an IPv6 address, none left out. -/
def groupsText (address : Fin (2 ^ 128)) : Text :=
  [':'].intercalate ((toBase 65536 8 address).map hexadecimal)

/-- Reads eight groups. -/
def readGroups (text : Text) : Option InetAddress :=
  match (text.splitOn ':').mapM readGroup with
  | some groups =>
    if groups.length = 8 then getByAddress (toBase 256 16 (ofBase 65536 groups)) else none
  | none => none

theorem readGroup_hexadecimal {n : ℕ} (hlt : n < 65536) : readGroup (hexadecimal n) = some n := by
  have hlength : (hexadecimal n).length ≤ 4 :=
    (Nat.length_toDigits_le_iff (by decide) (by decide)).mpr hlt
  rw [readGroup, if_pos ⟨Nat.toDigits_ne_nil, hlength⟩, readHex_hexadecimal]

theorem readGroups_groupsText (address : Fin (2 ^ 128)) :
    readGroups (groupsText address) = getByAddress (toBase 256 16 address) := by
  have hsplit : (groupsText address).splitOn ':' = (toBase 65536 8 address).map hexadecimal := by
    refine List.splitOn_intercalate ':' ?_ ?_
    · intro group hgroup hcolon
      obtain ⟨number, -, rfl⟩ := List.mem_map.mp hgroup
      exact absurd (readHex_eq_some (readHex_hexadecimal number) ':' hcolon) (by decide)
    · rw [ne_eq, List.map_eq_nil_iff]
      exact List.ne_nil_of_length_pos (by rw [length_toBase]; decide)
  have hparts : ((toBase 65536 8 address).map hexadecimal).mapM readGroup =
      some (toBase 65536 8 address) :=
    mapM_map_eq_some fun number hmem ↦ readGroup_hexadecimal (lt_of_mem_toBase (by decide) hmem)
  rw [readGroups, hsplit, hparts]
  dsimp only
  rw [if_pos (length_toBase ..), ofBase_toBase]
  exact congrArg (fun value ↦ getByAddress (toBase 256 16 value)) (Nat.mod_eq_of_lt address.isLt)

theorem colon_mem_groupsText (address : Fin (2 ^ 128)) : ':' ∈ groupsText address := by
  obtain ⟨first, second, rest, hgroups⟩ : ∃ first second rest,
      toBase 65536 8 address = first :: second :: rest := ⟨_, _, _, rfl⟩
  rw [groupsText, hgroups, List.map_cons, List.map_cons, List.intercalate_cons_cons]
  exact List.mem_append_left _ (List.mem_append_right _ (List.mem_singleton.mpr rfl))

theorem colon_not_mem_quad (address : ℕ) : ':' ∉ quad address := by
  intro hmem
  rcases mem_quad hmem with hdot | hdigit
  · exact absurd hdot (by decide)
  · exact absurd hdigit (by decide)

/-- An IPv6 address that was made of bytes has these bytes. -/
theorem toBase_of_getByAddress {bytes : List ℕ} {address : Fin (2 ^ 128)}
    (hbytes : ∀ byte ∈ bytes, byte < 256) (hmade : getByAddress bytes = some (.v6 address)) :
    toBase 256 16 address = bytes := by
  unfold getByAddress at hmade
  split_ifs at hmade with hfour hsixteen hmark
  · cases hmade
  · cases hmade
  · cases hmade
    have hlt := ofBase_lt hbytes
    rw [hsixteen] at hlt
    have hvalue : (Fin.ofNat (2 ^ 128) (ofBase 256 bytes)).val = ofBase 256 bytes :=
      Nat.mod_eq_of_lt hlt
    rw [hvalue, ← hsixteen, toBase_ofBase hbytes]

/-- Dotted quads and IPv6 addresses without abbreviations. -/
def fullTexts : AddressTexts where
  getByName := fun text ↦
    if ':' ∈ text then readGroups text else (readQuad text).map fun address ↦ .v4 address
  hostAddress
    | .v4 address => quad address
    | .v6 address => groupsText address
  read_host := by
    intro bytes address hbytes hmade
    cases address with
    | v4 address =>
      dsimp only
      rw [if_neg (colon_not_mem_quad address), readQuad_quad]
      rfl
    | v6 address =>
      dsimp only
      rw [if_pos (colon_mem_groupsText address), readGroups_groupsText,
        toBase_of_getByAddress hbytes hmade, hmade]

/-- A key whose digest starts with the mark, in a block whose first half is zero. -/
theorem not_lanAddressSound_mapped :
    ¬ LanAddressSound fullTexts "V0lORFNDUklCRS1LRVktMDAwMDAwMDAwAAAAAduQ84g=".toList
      "0:0:0:0:0:0:0:0/64".toList := by
  intro hsound
  refine not_mapped_of_sound hsound ⟨0, 64, _, ⟨⟨_, _, rfl, ?_, ?_⟩, ?_, rfl⟩, by decide, ?_⟩
  · decide +kernel
  · decide +kernel
  · decide
  · decide +kernel

end WindscribeVpn.Commons.WireguardUtil
