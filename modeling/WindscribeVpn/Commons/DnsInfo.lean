import WindscribeVpn.Backend.VPNProfileCreator
import WindscribeVpn.Foundations.Texts

/-!
# `DnsInfo`

`getDNSDetails` makes DNS details of the custom address in the settings: a plain address, or an
endpoint for the proxy with an address of its host to start from, which is looked up, or the one of
the last lookup for the same text. `getTypeValue` says what kind of endpoint the text is.

The regular expressions and `java.net.URL` are those of the platform (`Platform`). A URL's host is
the text between `://` and the next `/`, `:` or `?` (`urlHost`). Of a lookup the model keeps, with
the address, the host that it was for. `getDNSDetails_ok` says what the details of a text are after
any earlier calls, and the lemmas about `endpoint` which host is looked up for each kind of text.
-/

set_option autoImplicit false
set_option relaxedAutoImplicit false

namespace WindscribeVpn.Commons.DnsInfo

open Foundations.Texts
open Backend.VPNProfileCreator (DnsType)

/-! ### Texts -/

/-- What the texts are checked with. -/
structure Platform where
  /-- `\d`. -/
  digit : Char → Bool
  /-- The characters that `.` does not match. -/
  terminator : Char → Bool
  /-- `URL` throws for the text. -/
  malformed : Text → Bool

/-- A character of a host. -/
def isHostChar (c : Char) : Bool := c != '/' && c != ':' && c != '?'

/-- The host at the start of a text. -/
def hostPart (text : Text) : Text := text.takeWhile isHostChar

/-- What follows the first `://`. -/
def behindScheme : Text → Text
  | [] => []
  | c :: rest =>
    if "://".toList.isPrefixOf (c :: rest) then (c :: rest).drop 3 else behindScheme rest

/-- The host of a URL. -/
def urlHost (url : Text) : Text := hostPart (behindScheme url)

/-- A host, with or without a port. -/
def bareHost (address : Text) : Bool :=
  decide (hostPart address ≠ []) &&
    match address.dropWhile isHostChar with
    | [] => true
    | ':' :: port => port.all Char.isDigit
    | _ => false

namespace Platform

variable (p : Platform)

/-- The pattern of a scheme, the last character of which is optional. -/
def schemePattern (stem : Text) (optional : Char) (address : Text) : Bool :=
  [stem, stem ++ [optional]].any fun scheme ↦
    (scheme ++ "://".toList).isPrefixOf address &&
      (address.drop (scheme.length + 3)).all fun c ↦ !p.terminator c

/-- `dohPattern`. -/
def dohPattern (address : Text) : Bool := p.schemePattern "http".toList 's' address

/-- `doh3Pattern`. -/
def doh3Pattern (address : Text) : Bool := p.schemePattern "h".toList '3' address

/-- `sdnsPattern`. -/
def sdnsPattern (address : Text) : Bool := p.schemePattern "sdn".toList 's' address

/-- `ipPattern`. -/
def ipPattern (address : Text) : Bool :=
  let groups := address.splitOn '.'
  decide (groups.length = 4) &&
    groups.all fun group ↦
      decide (1 ≤ group.length) && decide (group.length ≤ 3) && group.all p.digit

end Platform

/-! ### Details -/

/-- The values of `getTypeValue`. -/
inductive ResolverType
  | legacy
  | doh
  | sdns
  | doh3
  | dot
  deriving DecidableEq, Repr

/-- The value as it is written. -/
def ResolverType.text : ResolverType → Text
  | .legacy => "legacy".toList
  | .doh => "doh".toList
  | .sdns => "sdns".toList
  | .doh3 => "doh3".toList
  | .dot => "dot".toList

/-- `DNSDetails`. -/
structure DNSDetails where
  address : Option Text := none
  ip : Option Text := none
  type : DnsType
  deriving DecidableEq, Repr

/-- The kind of endpoint that a text is. -/
def Platform.typeValue (p : Platform) (address : Text) : ResolverType :=
  if p.dohPattern address then .doh
  else if p.sdnsPattern address then .sdns
  else if p.doh3Pattern address then .doh3
  else .dot

/-- `getTypeValue`. -/
def DNSDetails.getTypeValue (p : Platform) (details : DNSDetails) : ResolverType :=
  match details.address with
  | none => .legacy
  | some address => p.typeValue address

/-- `InetAddress`. -/
inductive InetAddress
  | inet4 (address : Fin (2 ^ 32))
  | inet6
  deriving DecidableEq, Repr

/-- `hostAddress` of an `Inet4Address`. -/
def InetAddress.inet4HostAddress : InetAddress → Option Text
  | .inet4 address => some (quad address)
  | .inet6 => none

/-- What `saveBootstrapIp` saves for a text, with the host that was looked up as history. -/
structure Bootstrap where
  ip : Text
  host : Text
  deriving DecidableEq, Repr

/-- The preferences of `CommonPreferences`. -/
abbrev BootstrapIps := Text → Option Bootstrap

/-- The details of a text, with the host that `ip` is an address of as history. -/
structure Resolved where
  details : DNSDetails
  host : Option Text := none
  deriving DecidableEq, Repr

/-- The URL whose host is looked up. -/
def endpoint (address : Text) : Text :=
  if "https://".toList.isPrefixOf address then address
  else replace ("https://".toList ++ address) "h3://".toList []

/-- `getBootstrapIp` where there is no address, or the message of the failure. -/
def fromBootstrap (bootstrapIps : BootstrapIps) (address message : Text) : Except Text Resolved :=
  match bootstrapIps address with
  | some bootstrap =>
    .ok ⟨{ address := some address, ip := some bootstrap.ip, type := .proxy }, some bootstrap.host⟩
  | none => .error message

/-- `getDNSDetails`, with the preferences behind it. `getAllByName` gives no addresses for an
unknown host. The error is the message of the failure. -/
def Platform.getDNSDetails (p : Platform) (bootstrapIps : BootstrapIps) (customDNSEnabled : Bool)
    (address : Option Text) (getAllByName : Text → Option (List InetAddress)) :
    Except Text Resolved × BootstrapIps :=
  match address with
  | none => (.ok ⟨{ type := .tunnel }, none⟩, bootstrapIps)
  | some address =>
    if !customDNSEnabled then (.ok ⟨{ type := .tunnel }, none⟩, bootstrapIps)
    else if p.ipPattern address then
      (.ok ⟨{ address := some address, ip := some address, type := .plain }, none⟩, bootstrapIps)
    else if "sdns://".toList.isPrefixOf address then
      (.ok ⟨{ address := some address, type := .proxy }, none⟩, bootstrapIps)
    else if p.malformed (endpoint address) then
      (.error "Malformed DNS URL/IP".toList, bootstrapIps)
    else
      match getAllByName (urlHost (endpoint address)) with
      | some inetAddresses =>
        match inetAddresses.findSome? InetAddress.inet4HostAddress with
        | some ip =>
          (.ok ⟨{ address := some address, ip := some ip, type := .proxy },
              some (urlHost (endpoint address))⟩,
            Function.update bootstrapIps address (some ⟨ip, urlHost (endpoint address)⟩))
        | none =>
          (fromBootstrap bootstrapIps address ("Unable to resolve ".toList ++ address ++ [')']),
            bootstrapIps)
      | none =>
        (fromBootstrap bootstrapIps address "Unable to resolve DNS Address".toList, bootstrapIps)

/-- A call of `getDNSDetails`, with what the network answers then. -/
structure Call where
  customDNSEnabled : Bool
  address : Option Text
  getAllByName : Text → Option (List InetAddress)

/-- The preferences behind a call. -/
def Platform.save (p : Platform) (bootstrapIps : BootstrapIps) (call : Call) : BootstrapIps :=
  (p.getDNSDetails bootstrapIps call.customDNSEnabled call.address call.getAllByName).2

/-- The preferences behind calls. -/
def Platform.saved (p : Platform) (calls : List Call) : BootstrapIps :=
  calls.foldl p.save fun _ ↦ none

/-! ### Which host is looked up -/

/-- The schemes before which `https://` is put, so that they are the host of the URL. -/
def prefixed : List Text := ["http".toList, "h".toList, "sdn".toList]

section Hosts

variable (rest : Text)

theorem urlHost_endpoint_prefixed {scheme : Text} (hscheme : scheme ∈ prefixed) :
    urlHost (endpoint (scheme ++ ("://".toList ++ rest))) = scheme := by
  simp only [prefixed, List.mem_cons, List.not_mem_nil, or_false] at hscheme
  rcases hscheme with rfl | rfl | rfl
  · rfl
  · rfl
  · rfl

theorem urlHost_endpoint_h3 : urlHost (endpoint ("h3://".toList ++ rest)) =
    hostPart (replace rest "h3://".toList []) := rfl

end Hosts

variable {address : Text}

theorem not_mem_of_bareHost (hbare : bareHost address = true) : '/' ∉ address := by
  unfold bareHost at hbare
  rw [Bool.and_eq_true] at hbare
  rw [← List.takeWhile_append_dropWhile (p := isHostChar) (l := address), List.mem_append, not_or]
  refine ⟨fun hmem ↦ absurd (List.mem_takeWhile_imp hmem) (by decide), ?_⟩
  have hrest := hbare.2
  split at hrest
  · next hnil =>
    rw [hnil]
    exact List.not_mem_nil
  · next port hport =>
    rw [hport, List.mem_cons, not_or]
    exact ⟨by decide, fun hmem ↦ absurd (List.all_eq_true.mp hrest '/' hmem) (by decide)⟩
  · cases hrest

theorem urlHost_endpoint_bare (hbare : bareHost address = true) :
    urlHost (endpoint address) = hostPart address := by
  have hslash := not_mem_of_bareHost hbare
  have hstarts : ¬ "https://".toList.isPrefixOf address = true := fun hstarts ↦
    hslash ((List.isPrefixOf_iff_prefix.mp hstarts).subset (by decide))
  have hreplace : replace ("https://".toList ++ address) "h3://".toList [] =
      "https://".toList ++ replace address "h3://".toList [] := rfl
  rw [endpoint, if_neg hstarts, hreplace,
    replace_of_not_mem (show '/' ∈ "h3://".toList by decide) hslash]
  rfl

/-! ### Which kind of endpoint a text is -/

/-- The schemes of the patterns. -/
def schemes : List Text :=
  ["http".toList, "https".toList, "sdn".toList, "sdns".toList, "h".toList, "h3".toList]

theorem colon_not_mem_of_schemes : ∀ scheme ∈ schemes, ':' ∉ scheme := by decide

/-- A text whose scheme one of the patterns recognises, or a host. -/
def Platform.recognised (p : Platform) (address : Text) : Bool :=
  decide (p.typeValue address ≠ .dot) || bareHost address

variable {p : Platform} {scheme : Text}

/-- The scheme of a text. -/
theorem takeWhile_scheme (hcolon : ':' ∉ scheme) (rest : Text) :
    (scheme ++ ("://".toList ++ rest)).takeWhile (· != ':') = scheme := by
  have hall : ∀ c ∈ scheme, (c != ':') = true := by
    intro c hmem
    rw [bne_iff_ne]
    rintro rfl
    exact hcolon hmem
  rw [List.takeWhile_append_of_pos hall]
  exact List.append_nil scheme

theorem scheme_unique {scheme' rest rest' : Text} (hscheme : scheme ∈ schemes)
    (hscheme' : scheme' ∈ schemes)
    (haddress : scheme ++ ("://".toList ++ rest) = scheme' ++ ("://".toList ++ rest')) :
    scheme = scheme' := by
  rw [← takeWhile_scheme (colon_not_mem_of_schemes scheme hscheme) rest, haddress,
    takeWhile_scheme (colon_not_mem_of_schemes scheme' hscheme') rest']

theorem scheme_eq_of_isPrefixOf {other rest : Text} (hscheme : scheme ∈ schemes)
    (hother : other ∈ schemes)
    (hstarts : (other ++ "://".toList).isPrefixOf (scheme ++ ("://".toList ++ rest)) = true) :
    scheme = other := by
  obtain ⟨rest', hrest⟩ := List.isPrefixOf_iff_prefix.mp hstarts
  rw [List.append_assoc] at hrest
  exact scheme_unique hscheme hother hrest.symm

theorem exists_of_schemePattern {stem : Text} {optional : Char}
    (hpattern : p.schemePattern stem optional address = true) :
    ∃ scheme ∈ [stem, stem ++ [optional]], ∃ rest, address = scheme ++ ("://".toList ++ rest) := by
  obtain ⟨scheme, hscheme, hmatch⟩ := List.any_eq_true.mp hpattern
  rw [Bool.and_eq_true, List.isPrefixOf_iff_prefix] at hmatch
  obtain ⟨⟨rest, haddress⟩, -⟩ := hmatch
  exact ⟨scheme, hscheme, rest, by rw [← haddress, List.append_assoc]⟩

/-- The kinds of endpoint with their schemes. -/
theorem exists_of_typeValue (hdot : p.typeValue address ≠ .dot) :
    ∃ scheme ∈ schemes, ∃ rest, address = scheme ++ ("://".toList ++ rest) ∧
      (scheme ∈ ["http".toList, "https".toList] ∧ p.typeValue address = .doh ∨
        scheme ∈ ["sdn".toList, "sdns".toList] ∧ p.typeValue address = .sdns ∨
        scheme ∈ ["h".toList, "h3".toList] ∧ p.typeValue address = .doh3) := by
  have hhttp : ∀ scheme ∈ ["http".toList, "https".toList], scheme ∈ schemes := by decide
  have hsdn : ∀ scheme ∈ ["sdn".toList, "sdns".toList], scheme ∈ schemes := by decide
  have hh : ∀ scheme ∈ ["h".toList, "h3".toList], scheme ∈ schemes := by decide
  unfold Platform.typeValue at hdot ⊢
  split_ifs at hdot ⊢ with hdoh hsdns hdoh3
  · obtain ⟨scheme, hscheme, rest, haddress⟩ := exists_of_schemePattern hdoh
    exact ⟨scheme, hhttp scheme hscheme, rest, haddress, Or.inl ⟨hscheme, rfl⟩⟩
  · obtain ⟨scheme, hscheme, rest, haddress⟩ := exists_of_schemePattern hsdns
    exact ⟨scheme, hsdn scheme hscheme, rest, haddress, Or.inr (Or.inl ⟨hscheme, rfl⟩)⟩
  · obtain ⟨scheme, hscheme, rest, haddress⟩ := exists_of_schemePattern hdoh3
    exact ⟨scheme, hh scheme hscheme, rest, haddress, Or.inr (Or.inr ⟨hscheme, rfl⟩)⟩
  · exact absurd rfl hdot

theorem typeValue_of_bareHost (hbare : bareHost address = true) : p.typeValue address = .dot := by
  by_contra hdot
  obtain ⟨scheme, -, rest, haddress, -⟩ := exists_of_typeValue hdot
  refine not_mem_of_bareHost hbare ?_
  rw [haddress]
  exact List.mem_append_right _ (List.mem_append_left _ (by decide))

/-! ### What the details are -/

/-- Every saved address is that of the host which is looked up for its text. -/
def Kept (bootstrapIps : BootstrapIps) : Prop :=
  ∀ address bootstrap, bootstrapIps address = some bootstrap →
    bootstrap.host = urlHost (endpoint address) ∧ ∃ ip : Fin (2 ^ 32), bootstrap.ip = quad ip

variable {bootstrapIps : BootstrapIps} {resolved : Resolved}
  {getAllByName : Text → Option (List InetAddress)}

theorem exists_quad_of_findSome {inetAddresses : List InetAddress} {ip : Text}
    (hfind : inetAddresses.findSome? InetAddress.inet4HostAddress = some ip) :
    ∃ inet4 : Fin (2 ^ 32), ip = quad inet4 := by
  obtain ⟨inetAddress, -, haddress⟩ := List.exists_of_findSome?_eq_some hfind
  cases inetAddress with
  | inet4 inet4 => exact ⟨inet4, (Option.some.inj haddress).symm⟩
  | inet6 => cases haddress

/-- The details of an endpoint with an address of a host. -/
def proxy (address : Text) (ip : Fin (2 ^ 32)) (host : Text) : Resolved :=
  ⟨{ address := some address, ip := some (quad ip), type := .proxy }, some host⟩

theorem fromBootstrap_ok {message : Text} (hkept : Kept bootstrapIps)
    (hok : fromBootstrap bootstrapIps address message = .ok resolved) :
    ∃ ip, resolved = proxy address ip (urlHost (endpoint address)) := by
  unfold fromBootstrap at hok
  split at hok
  · next bootstrap hbootstrap =>
    obtain ⟨hhost, ip, hip⟩ := hkept address bootstrap hbootstrap
    cases hok
    exact ⟨ip, by rw [proxy, hhost, hip]⟩
  · cases hok

/-- The details of a text: of the three kinds of text, a dotted one is plain, a stamp has no host,
and any other one has an address of its host. -/
theorem getDNSDetails_ok (hkept : Kept bootstrapIps)
    (hok : (p.getDNSDetails bootstrapIps true (some address) getAllByName).1 = .ok resolved) :
    (p.ipPattern address = true ∧
        resolved = ⟨{ address := some address, ip := some address, type := .plain }, none⟩) ∨
      (p.ipPattern address = false ∧ "sdns://".toList.isPrefixOf address = true ∧
        resolved = ⟨{ address := some address, type := .proxy }, none⟩) ∨
      (p.ipPattern address = false ∧ "sdns://".toList.isPrefixOf address = false ∧
        p.malformed (endpoint address) = false ∧
        ∃ ip, resolved = proxy address ip (urlHost (endpoint address))) := by
  unfold Platform.getDNSDetails at hok
  dsimp only at hok
  rw [if_neg (by decide)] at hok
  by_cases hip : p.ipPattern address = true
  · rw [if_pos hip] at hok
    cases hok
    exact Or.inl ⟨hip, rfl⟩
  rw [if_neg hip] at hok
  by_cases hsdns : "sdns://".toList.isPrefixOf address = true
  · rw [if_pos hsdns] at hok
    cases hok
    exact Or.inr (Or.inl ⟨Bool.eq_false_of_not_eq_true hip, hsdns, rfl⟩)
  rw [if_neg hsdns] at hok
  by_cases hmalformed : p.malformed (endpoint address) = true
  · rw [if_pos hmalformed] at hok
    cases hok
  rw [if_neg hmalformed] at hok
  refine Or.inr (Or.inr ⟨Bool.eq_false_of_not_eq_true hip, Bool.eq_false_of_not_eq_true hsdns,
    Bool.eq_false_of_not_eq_true hmalformed, ?_⟩)
  split at hok
  · next inetAddresses =>
    split at hok
    · next text hfind =>
      obtain ⟨ip, rfl⟩ := exists_quad_of_findSome hfind
      cases hok
      exact ⟨ip, rfl⟩
    · exact fromBootstrap_ok hkept hok
  · exact fromBootstrap_ok hkept hok

/-- A call saves one address at most, that of the host which it has looked up. -/
theorem save_eq (p : Platform) (bootstrapIps : BootstrapIps) (call : Call) :
    p.save bootstrapIps call = bootstrapIps ∨ ∃ (address : Text) (ip : Fin (2 ^ 32)),
      p.save bootstrapIps call =
        Function.update bootstrapIps address (some ⟨quad ip, urlHost (endpoint address)⟩) := by
  unfold Platform.save Platform.getDNSDetails
  cases call.address with
  | none => exact Or.inl rfl
  | some address =>
    dsimp only
    split_ifs
    · exact Or.inl rfl
    · exact Or.inl rfl
    · exact Or.inl rfl
    · exact Or.inl rfl
    · split
      · split
        · next text hfind =>
          obtain ⟨ip, rfl⟩ := exists_quad_of_findSome hfind
          exact Or.inr ⟨address, ip, rfl⟩
        · exact Or.inl rfl
      · exact Or.inl rfl

theorem Kept.save (hkept : Kept bootstrapIps) (call : Call) : Kept (p.save bootstrapIps call) := by
  rcases save_eq p bootstrapIps call with hsame | ⟨saved, ip, hupdate⟩
  · rwa [hsame]
  · rw [hupdate]
    intro other bootstrap hbootstrap
    by_cases hother : other = saved
    · subst hother
      rw [Function.update_self] at hbootstrap
      cases hbootstrap
      exact ⟨rfl, ip, rfl⟩
    · rw [Function.update_of_ne hother] at hbootstrap
      exact hkept other bootstrap hbootstrap

/-- Whatever calls came before, the saved addresses are those of the hosts that are looked up. -/
theorem kept_saved (p : Platform) (calls : List Call) : Kept (p.saved calls) := by
  unfold Platform.saved
  refine List.foldlRecOn calls p.save ?_ fun bootstrapIps hkept call _ ↦ hkept.save call
  rintro address bootstrap ⟨⟩

/-- With a network that gives every host an address, a text that is not dotted has the details of an
endpoint, unless its URL is malformed. -/
theorem getDNSDetails_inet4 (bootstrapIps : BootstrapIps) (hip : p.ipPattern address = false)
    (hsdns : "sdns://".toList.isPrefixOf address = false)
    (hmalformed : p.malformed (endpoint address) = false) (ip : Fin (2 ^ 32)) :
    (p.getDNSDetails bootstrapIps true (some address) fun _ ↦ some [.inet4 ip]).1 =
      .ok (proxy address ip (urlHost (endpoint address))) := by
  unfold Platform.getDNSDetails
  dsimp only
  rw [if_neg (by decide), if_neg (by rw [hip]; decide), if_neg (by rw [hsdns]; decide),
    if_neg (by rw [hmalformed]; decide)]
  rfl

theorem getDNSDetails_sdns (bootstrapIps : BootstrapIps) (hip : p.ipPattern address = false)
    (hsdns : "sdns://".toList.isPrefixOf address = true)
    (getAllByName : Text → Option (List InetAddress)) :
    (p.getDNSDetails bootstrapIps true (some address) getAllByName).1 =
      .ok ⟨{ address := some address, type := .proxy }, none⟩ := by
  unfold Platform.getDNSDetails
  dsimp only
  rw [if_neg (by decide), if_neg (by rw [hip]; decide), if_pos hsdns]

theorem getDNSDetails_plain (bootstrapIps : BootstrapIps) (hip : p.ipPattern address = true)
    (getAllByName : Text → Option (List InetAddress)) :
    (p.getDNSDetails bootstrapIps true (some address) getAllByName).1 =
      .ok ⟨{ address := some address, ip := some address, type := .plain }, none⟩ := by
  unfold Platform.getDNSDetails
  dsimp only
  rw [if_neg (by decide), if_pos hip]

end WindscribeVpn.Commons.DnsInfo
