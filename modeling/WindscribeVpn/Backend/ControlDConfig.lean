import WindscribeVpn.Backend.DnsProxy
import WindscribeVpn.Commons.DnsInfo
import WindscribeVpn.Foundations.Toml

/-!
# The configuration of ctrld

A custom DNS address is read in three places. `getDNSDetails` decides what it is and looks its host
up, `getTypeValue` says what kind of endpoint ctrld is to take it for, and `updateControlDConfig`
writes both into the table `upstream.0` of `config.toml`, the text between quotation marks as it is.
`Consistent` is the promise that the three agree about a text: a plain address is one, the host that
was looked up is the host that ctrld contacts, and the table is read as what it is to say.

It does not hold for every text (`not_consistent_texts`): an octet may be too large, `https://` is
put before schemes other than its own, further occurrences of `h3://` are taken out, and a quotation
mark ends the text in the table. `Meets` is the condition under which the promise is kept, and
`consistent_iff` shows that it is kept for no other text. What ctrld contacts is assumed only for
the texts that it is made for (`Ctrld`).

`exists_readTable_config` connects the file to the model of the proxy: of clean details ctrld reads
the configuration that the proxy is taken to run with.
-/

set_option autoImplicit false
set_option relaxedAutoImplicit false

namespace WindscribeVpn.Backend.ControlDConfig

open Foundations Foundations.Texts Commons.DnsInfo

/-! ### The configuration file -/

/-- The asset `config.toml`. -/
def configToml : Text :=
  ["[listener]\n\n".toList,
    "[listener.0]\nip = \"127.0.0.1\"\nport = 5355\nrestricted = false\n\n".toList,
    "[network]\n\n".toList,
    "[network.0]\ncidrs = [\"0.0.0.0/0\"]\nname = \"Network 0\"\n\n".toList,
    "[service]\nlog_level = \"info\"\nlog_path = \"\"\n\n".toList,
    "[upstream]\n".toList].flatten

/-- `upStreamInfo`. -/
def upStreamInfo (p : Platform) (details : DNSDetails) : Text :=
  ["[upstream.0]\n".toList,
    "bootstrap_ip = \"".toList, details.ip.getD [], "\"\n".toList,
    "endpoint = \"".toList, details.address.getD [], "\"\n".toList,
    "name = \"Custom DNS\"\n".toList,
    "timeout = 5000\n".toList,
    "type = \"".toList, (details.getTypeValue p).text, "\"\n".toList,
    "ip_stack = \"v4\"".toList].flatten

/-- `configData`. -/
def configData (p : Platform) (details : DNSDetails) (listenPort : ℕ) : Text :=
  replace configToml "5355".toList (decimal listenPort) ++ '\n' :: upStreamInfo p details

/-- `updateControlDConfig`, the file that it writes or the message of its exception; nothing is
written unless the details are those of an endpoint. -/
def updateControlDConfig (p : Platform) (dnsDetails : Option DNSDetails)
    (findAvailablePort : Option ℕ) : Except Text (Option Text) :=
  match dnsDetails with
  | none => .ok none
  | some details =>
    if details.type = .proxy then
      match findAvailablePort with
      | none => .error "Unable to find port to start ControlD cli.".toList
      | some listenPort => .ok (some (configData p details listenPort))
    else .ok none

/-- The header of the table of the endpoint. -/
def header : Text := "[upstream.0]".toList

/-- The table of the endpoint. -/
def upstream (p : Platform) (details : DNSDetails) : Toml.Table :=
  [("bootstrap_ip".toList, .string (details.ip.getD [])),
    ("endpoint".toList, .string (details.address.getD [])),
    ("name".toList, .string "Custom DNS".toList),
    ("timeout".toList, .integer 5000),
    ("type".toList, .string (details.getTypeValue p).text),
    ("ip_stack".toList, .string "v4".toList)]

theorem upStreamInfo_eq (p : Platform) (details : DNSDetails) :
    upStreamInfo p details = header ++ '\n' :: Toml.paste (upstream p details) := by
  have hheader : "[upstream.0]\n".toList = header ++ ['\n'] := by decide
  have hquoted : "\"\n".toList = ['"', '\n'] := by decide
  have hip : "bootstrap_ip = \"".toList = "bootstrap_ip".toList ++ [' ', '=', ' ', '"'] := by decide
  have hendpoint : "endpoint = \"".toList = "endpoint".toList ++ [' ', '=', ' ', '"'] := by decide
  have hname : "name = \"Custom DNS\"\n".toList =
      Toml.pasteLine ("name".toList, .string "Custom DNS".toList) ++ ['\n'] := by decide
  have htimeout : "timeout = 5000\n".toList =
      Toml.pasteLine ("timeout".toList, .integer 5000) ++ ['\n'] := by decide
  have htype : "type = \"".toList = "type".toList ++ [' ', '=', ' ', '"'] := by decide
  have hstack : "ip_stack = \"v4\"".toList =
      Toml.pasteLine ("ip_stack".toList, .string "v4".toList) := by decide
  have hlast : ∀ entry, Toml.paste [entry] = Toml.pasteLine entry := fun entry ↦
    List.intercalate_singleton
  delta upStreamInfo
  rw [hheader, hquoted, hip, hendpoint, hname, htimeout, htype, hstack]
  simp only [upstream, Toml.Reader.paste_cons_cons, hlast, Toml.pasteLine, Toml.Value.paste,
    List.flatten_cons, List.flatten_nil, List.append_nil, List.append_assoc, List.cons_append,
    List.nil_append]

/-- No line before the table is its header, whatever the port. -/
theorem behind_config (listenPort : ℕ) (rest : Text) :
    Toml.behind header true (replace configToml "5355".toList (decimal listenPort) ++ rest) =
      Toml.behind header true rest := by
  obtain ⟨before, after, hconfig, hbefore, hafter, hpasses, hpasses', hfresh, hfresh'⟩ :
      ∃ before after, configToml = before ++ ("5355".toList ++ after) ∧ '5' ∉ before ∧
        '5' ∉ after ∧ Toml.passes header true before = true ∧
          Toml.passes header false after = true ∧ Toml.freshBehind true before = false ∧
            Toml.freshBehind false after = true :=
    ⟨configToml.take 49, configToml.drop 53, by decide +kernel⟩
  have hport : '\n' ∉ decimal listenPort := fun hmem ↦
    absurd (isDigit_of_mem_decimal hmem) (by decide)
  rw [hconfig, show "5355".toList = '5' :: ['3', '5', '5'] from rfl,
    replace_append_of_not_mem hbefore, replace_append (List.cons_ne_nil _ _),
    replace_of_not_mem List.mem_cons_self hafter, List.append_assoc, List.append_assoc,
    Toml.behind_append hpasses, hfresh, Toml.behind_false hport, Toml.behind_append hpasses',
    hfresh']

/-- The table in the file is read as it was pasted. -/
theorem readTable_configData (p : Platform) (details : DNSDetails) (listenPort : ℕ) :
    Toml.readTable header (configData p details listenPort) =
      Toml.read (Toml.paste (upstream p details)) := by
  have hline : ∀ rest, Toml.behind header true ('\n' :: rest) = Toml.behind header true rest :=
    fun _ ↦ rfl
  rw [Toml.readTable, configData, behind_config, hline, upStreamInfo_eq, Toml.behind_header,
    Option.bind_some]

/-! ### What ctrld contacts -/

/-- ctrld, with the host that it contacts for an endpoint of a type. For the URLs of DNS over HTTPS
and HTTP/3 that is the host of the URL, for DNS over TLS a host given with or without a port. What
it makes of other endpoints is left open. -/
structure Ctrld where
  host : ResolverType → Text → Text
  host_doh : ∀ rest, host .doh ("https://".toList ++ rest) = hostPart rest
  host_doh3 : ∀ rest, host .doh3 ("h3://".toList ++ rest) = hostPart rest
  host_dot : ∀ address, bareHost address = true → host .dot address = hostPart address

/-- A ctrld that takes the host of every URL. -/
def urlReader : Ctrld where
  host
    | .dot, address => hostPart address
    | _, address => urlHost address
  host_doh := fun _ ↦ rfl
  host_doh3 := fun _ ↦ rfl
  host_dot := fun _ _ ↦ rfl

/-! ### The promise -/

/-- The details of a text are those of the text: a plain one is an IPv4 address, the address to
start from is one of the host that ctrld contacts, and the table that is written is read as the
endpoint, the address and the type. -/
structure Renders (p : Platform) (ctrld : Ctrld) (address : Text) (resolved : Resolved) : Prop where
  plain : resolved.details.type = .plain → (readQuad address).isSome = true
  host : resolved.details.type = .proxy → "sdns://".toList.isPrefixOf address = false →
    p.recognised address = true →
      resolved.host = some (ctrld.host (resolved.details.getTypeValue p) address)
  table : ∀ port file, updateControlDConfig p (some resolved.details) port = .ok (some file) →
    ∃ table, Toml.readTable header file = some table ∧
      table.lookup "endpoint".toList = some (.string address) ∧
      table.lookup "bootstrap_ip".toList = some (.string (resolved.details.ip.getD [])) ∧
      table.lookup "type".toList = some (.string (resolved.details.getTypeValue p).text)

/-- What is promised for a text, whatever calls came before and whatever the network answers. -/
def Consistent (p : Platform) (ctrld : Ctrld) (address : Text) : Prop :=
  ∀ calls getAllByName resolved,
    (p.getDNSDetails (p.saved calls) true (some address) getAllByName).1 = .ok resolved →
      Renders p ctrld address resolved

/-- The text may become an endpoint: it is not dotted, and its URL, if it has one, is not
malformed. -/
def mayBeEndpoint (p : Platform) (address : Text) : Bool :=
  !p.ipPattern address &&
    ("sdns://".toList.isPrefixOf address || !p.malformed (endpoint address))

/-- The texts for which the promise is kept. -/
structure Meets (p : Platform) (ctrld : Ctrld) (address : Text) : Prop where
  /-- A dotted text has digits of ASCII, and no group of them is above 255. -/
  octets : p.ipPattern address = true → ∀ group ∈ address.splitOn '.',
    (∀ c ∈ group, c.isDigit = true) ∧ Nat.ofDigitChars 10 group 0 ≤ 255
  /-- An endpoint has no quotation mark, no backslash and no control character. -/
  clean : mayBeEndpoint p address = true → Toml.Clean address
  /-- The host behind `h3://` stays the same when every further `h3://` is taken out. -/
  h3 : mayBeEndpoint p address = true → p.recognised address = true →
    ∀ rest, address = "h3://".toList ++ rest →
      hostPart (replace rest "h3://".toList []) = hostPart rest
  /-- An endpoint begins with `http://`, `h://` or `sdn://` only where ctrld takes `http`, `h` or
  `sdn` for its host. -/
  scheme : mayBeEndpoint p address = true → p.recognised address = true →
    ∀ scheme ∈ prefixed,
      (scheme ++ "://".toList).isPrefixOf address = true →
        ctrld.host (p.typeValue address) address = scheme

variable {p : Platform} {ctrld : Ctrld} {address : Text}

/-! ### Plain addresses -/

/-- A dotted text is an IPv4 address if its groups are octets. -/
theorem isSome_readQuad_of_ipPattern (hip : p.ipPattern address = true) :
    (readQuad address).isSome = true ↔ ∀ group ∈ address.splitOn '.',
      (∀ c ∈ group, c.isDigit = true) ∧ Nat.ofDigitChars 10 group 0 ≤ 255 := by
  unfold Platform.ipPattern at hip
  rw [Bool.and_eq_true, decide_eq_true_eq, List.all_eq_true] at hip
  rw [isSome_readQuad_iff hip.1]
  refine forall₂_congr fun group hgroup ↦ ?_
  have hne : group ≠ [] := by
    have hlength := hip.2 group hgroup
    rw [Bool.and_eq_true, Bool.and_eq_true, decide_eq_true_eq] at hlength
    exact List.length_pos_iff.mp hlength.1.1
  rw [readOctet]
  split_ifs with hoctet
  · exact iff_of_true rfl ⟨hoctet.2.1, Nat.le_of_lt_succ hoctet.2.2⟩
  · refine iff_of_false (by decide) fun hgroup ↦ hoctet ?_
    exact ⟨hne, hgroup.1, Nat.lt_succ_of_le hgroup.2⟩

/-! ### Hosts -/

section Hosts

variable {scheme rest : Text}

theorem prefixed_subset : ∀ scheme ∈ prefixed, scheme ∈ schemes := by decide

theorem ne_h3 (hscheme : scheme ∈ schemes) (hne : scheme ≠ "h3".toList) (rest' : Text) :
    scheme ++ ("://".toList ++ rest) ≠ "h3://".toList ++ rest' :=
  fun haddress ↦ hne (scheme_unique hscheme (by decide) haddress)

theorem not_prefixed (hscheme : scheme ∈ schemes) (hnot : scheme ∉ prefixed) :
    ∀ other ∈ prefixed,
      ¬ (other ++ "://".toList).isPrefixOf (scheme ++ ("://".toList ++ rest)) = true := by
  intro other hother hstarts
  have heq := scheme_eq_of_isPrefixOf hscheme (prefixed_subset other hother) hstarts
  exact hnot (heq ▸ hother)

/-- A scheme that becomes the host is right where ctrld takes it for the host. -/
theorem host_eq_iff_prefixed (hscheme : scheme ∈ prefixed)
    (haddress : address = scheme ++ ("://".toList ++ rest)) :
    urlHost (endpoint address) = ctrld.host (p.typeValue address) address ↔
      ∀ other ∈ prefixed, (other ++ "://".toList).isPrefixOf address = true →
        ctrld.host (p.typeValue address) address = other := by
  subst haddress
  rw [urlHost_endpoint_prefixed rest hscheme]
  constructor
  · intro hhost other hother hstarts
    rw [← hhost]
    exact scheme_eq_of_isPrefixOf (prefixed_subset scheme hscheme) (prefixed_subset other hother)
      hstarts
  · intro hall
    refine (hall scheme hscheme ?_).symm
    rw [← List.append_assoc]
    exact List.isPrefixOf_iff_prefix.mpr (List.prefix_append _ _)

/-- The host of an `h3://` URL is looked up where it is still there without further `h3://`. -/
theorem host_eq_iff_h3 (htype : p.typeValue address = .doh3)
    (haddress : address = "h3://".toList ++ rest) :
    urlHost (endpoint address) = ctrld.host (p.typeValue address) address ↔
      ∀ rest', address = "h3://".toList ++ rest' →
        hostPart (replace rest' "h3://".toList []) = hostPart rest' := by
  subst haddress
  rw [htype, urlHost_endpoint_h3, ctrld.host_doh3]
  constructor
  · intro hsame rest' hrest
    rwa [← List.append_cancel_left hrest]
  · exact fun hall ↦ hall rest rfl

/-- The host that is looked up for a recognised text other than a stamp. -/
theorem host_eq_iff (hrecognised : p.recognised address = true)
    (hsdns : "sdns://".toList.isPrefixOf address = false) :
    urlHost (endpoint address) = ctrld.host (p.typeValue address) address ↔
      (∀ rest, address = "h3://".toList ++ rest →
        hostPart (replace rest "h3://".toList []) = hostPart rest) ∧
      ∀ scheme ∈ prefixed, (scheme ++ "://".toList).isPrefixOf address = true →
        ctrld.host (p.typeValue address) address = scheme := by
  by_cases hbare : bareHost address = true
  · have hslash := not_mem_of_bareHost hbare
    rw [urlHost_endpoint_bare hbare, typeValue_of_bareHost hbare, ctrld.host_dot address hbare]
    refine iff_of_true rfl ⟨?_, ?_⟩
    · rintro rest rfl
      exact absurd (List.mem_append_left rest (by decide)) hslash
    · intro scheme _ hstarts
      exact absurd ((List.isPrefixOf_iff_prefix.mp hstarts).subset
        (List.mem_append_right scheme (by decide))) hslash
  rw [Platform.recognised, Bool.or_eq_true, decide_eq_true_eq] at hrecognised
  obtain ⟨scheme, hscheme, rest, haddress, hkinds⟩ :=
    exists_of_typeValue (hrecognised.resolve_right hbare)
  by_cases hput : scheme ∈ prefixed
  · have hne : scheme ≠ "h3".toList := by
      rintro rfl
      exact absurd hput (by decide)
    rw [host_eq_iff_prefixed hput haddress, haddress]
    exact (and_iff_right fun rest' hh3 ↦ absurd hh3 (ne_h3 hscheme hne rest')).symm
  · have hvacuous : ∀ other ∈ prefixed, (other ++ "://".toList).isPrefixOf address = true →
        ctrld.host (p.typeValue address) address = other := by
      intro other hother hstarts
      rw [haddress] at hstarts
      exact absurd hstarts (not_prefixed hscheme hput other hother)
    rw [and_iff_left hvacuous]
    simp only [List.mem_cons, List.not_mem_nil, or_false] at hkinds
    rcases hkinds with ⟨rfl | rfl, htype⟩ | ⟨rfl | rfl, -⟩ | ⟨rfl | rfl, htype⟩
    · exact absurd (by decide) hput
    · subst haddress
      refine iff_of_true ?_ fun rest' hh3 ↦ absurd hh3 (ne_h3 hscheme (by decide) rest')
      rw [htype]
      exact (ctrld.host_doh rest).symm
    · exact absurd (by decide) hput
    · have hstamp : "sdns://".toList.isPrefixOf address = true :=
        List.isPrefixOf_iff_prefix.mpr ⟨rest, haddress.symm⟩
      exact absurd (hstamp.symm.trans hsdns) (by decide)
    · exact absurd (by decide) hput
    · exact host_eq_iff_h3 htype haddress

end Hosts

/-! ### The table -/

theorem lookup_upstream (details : DNSDetails) :
    (upstream p details).lookup "endpoint".toList = some (.string (details.address.getD [])) ∧
      (upstream p details).lookup "bootstrap_ip".toList = some (.string (details.ip.getD [])) ∧
      (upstream p details).lookup "type".toList =
        some (.string (details.getTypeValue p).text) := ⟨rfl, rfl, rfl⟩

/-- The entries behind the endpoint. -/
def others (p : Platform) (details : DNSDetails) : Toml.Table :=
  [("timeout".toList, .integer 5000),
    ("type".toList, .string (details.getTypeValue p).text),
    ("ip_stack".toList, .string "v4".toList)]

theorem upstream_eq (p : Platform) (details : DNSDetails) :
    upstream p details = [("bootstrap_ip".toList, .string (details.ip.getD []))] ++
      ("endpoint".toList, .string (details.address.getD [])) ::
        ("name".toList, .string "Custom DNS".toList) :: others p details := rfl

theorem bare_upstream (details : DNSDetails) :
    ∀ entry ∈ upstream p details, Toml.Bare entry.1 := by
  have hnames : ∀ name ∈ ["bootstrap_ip".toList, "endpoint".toList, "name".toList,
      "timeout".toList, "type".toList, "ip_stack".toList], Toml.Bare name := by
    decide
  exact fun entry hmem ↦ hnames entry.1 (List.mem_map_of_mem (f := Prod.fst) hmem)

theorem clean_others (details : DNSDetails) : ∀ entry ∈ others p details, entry.2.Clean := by
  have htype : Toml.Clean (details.getTypeValue p).text := by
    cases details.getTypeValue p <;> decide
  have hstack : Toml.Clean "v4".toList := by decide
  simp only [others, List.forall_mem_cons]
  exact ⟨trivial, htype, hstack, fun _ hmem ↦ absurd hmem List.not_mem_nil⟩

/-- The table is read as what it is to say, if and only if the endpoint is clean. -/
theorem read_upstream_iff (details : DNSDetails) (hip : Toml.Clean (details.ip.getD [])) :
    (∃ table, Toml.read (Toml.paste (upstream p details)) = some table ∧
      table.lookup "endpoint".toList = some (.string (details.address.getD [])) ∧
      table.lookup "bootstrap_ip".toList = some (.string (details.ip.getD [])) ∧
      table.lookup "type".toList = some (.string (details.getTypeValue p).text)) ↔
        Toml.Clean (details.address.getD []) := by
  have hname : Toml.Clean "Custom DNS".toList := by decide
  have hnodup : ["bootstrap_ip".toList, "endpoint".toList, "name".toList,
      "timeout".toList, "type".toList, "ip_stack".toList].Nodup := by
    decide
  have hfirst : ["bootstrap_ip".toList, "endpoint".toList].Nodup := by decide
  obtain ⟨hbefore, hrest⟩ :=
    List.forall_mem_append.mp (upstream_eq p details ▸ bare_upstream details)
  obtain ⟨hbare, hafter⟩ := List.forall_mem_cons.mp hrest
  have hip' : ∀ entry ∈ [("bootstrap_ip".toList, Toml.Value.string (details.ip.getD []))],
      entry.2.Clean := by
    rw [List.forall_mem_singleton]
    exact hip
  have hafter' : ∀ entry ∈ ("name".toList, Toml.Value.string "Custom DNS".toList) ::
      others p details, entry.2.Clean := by
    rw [List.forall_mem_cons]
    exact ⟨hname, clean_others details⟩
  constructor
  · rintro ⟨table, hread, hendpoint, -, -⟩
    rw [upstream_eq] at hread
    refine Toml.clean_of_read_paste ?_ hbare (List.forall_mem_append.mpr ⟨hbefore, hafter⟩)
      (List.forall_mem_append.mpr ⟨hip', hafter'⟩) hread hendpoint
    exact hfirst
  · intro hclean
    refine ⟨upstream p details, Toml.read_paste hnodup (bare_upstream details) ?_,
      lookup_upstream details⟩
    rw [upstream_eq]
    exact List.forall_mem_append.mpr ⟨hip', List.forall_mem_cons.mpr ⟨hclean, hafter'⟩⟩

/-! ### When the promise is kept -/

theorem updateControlDConfig_proxy {details : DNSDetails} (htype : details.type = .proxy)
    (listenPort : ℕ) : updateControlDConfig p (some details) (some listenPort) =
      .ok (some (configData p details listenPort)) := if_pos htype

/-- What is written is the file for an endpoint. -/
theorem updateControlDConfig_some {details : DNSDetails} {port : Option ℕ} {text : Text}
    (hfile : updateControlDConfig p (some details) port = .ok (some text)) :
    details.type = .proxy ∧ ∃ listenPort, text = configData p details listenPort := by
  by_cases htype : details.type = .proxy
  · cases port with
    | none =>
      have hnone : updateControlDConfig p (some details) none = .error _ := if_pos htype
      cases hnone.symm.trans hfile
    | some listenPort =>
      rw [updateControlDConfig_proxy htype] at hfile
      exact ⟨htype, listenPort, (Option.some.inj (Except.ok.inj hfile)).symm⟩
  · have hnone : updateControlDConfig p (some details) port = .ok none := if_neg htype
    cases Except.ok.inj (hnone.symm.trans hfile)

/-- The table of an endpoint is read as what it is to say, if and only if the text is clean. -/
theorem table_iff (details : DNSDetails) (htype : details.type = .proxy)
    (hip : Toml.Clean (details.ip.getD [])) :
    (∀ port file, updateControlDConfig p (some details) port = .ok (some file) →
      ∃ table, Toml.readTable header file = some table ∧
        table.lookup "endpoint".toList = some (.string (details.address.getD [])) ∧
        table.lookup "bootstrap_ip".toList = some (.string (details.ip.getD [])) ∧
        table.lookup "type".toList = some (.string (details.getTypeValue p).text)) ↔
      Toml.Clean (details.address.getD []) := by
  rw [← read_upstream_iff (p := p) details hip]
  constructor
  · intro hread
    have hfile := hread (some 0) _ (updateControlDConfig_proxy htype 0)
    rwa [readTable_configData] at hfile
  · intro hread port file hfile
    obtain ⟨-, listenPort, hdata⟩ := updateControlDConfig_some hfile
    rwa [hdata, readTable_configData]

theorem clean_quad (ip : ℕ) : Toml.Clean (quad ip) := by
  intro c hmem
  rcases mem_quad hmem with rfl | hdigit
  · decide
  · exact Toml.isClean_of_isDigit hdigit

theorem mayBeEndpoint_iff : mayBeEndpoint p address = true ↔ p.ipPattern address = false ∧
    ("sdns://".toList.isPrefixOf address = true ∨ p.malformed (endpoint address) = false) := by
  rw [mayBeEndpoint, Bool.and_eq_true, Bool.or_eq_true, Bool.not_eq_true', Bool.not_eq_true']

/-- The promise for the details of an endpoint with an address. -/
theorem renders_proxy_iff (ip : Fin (2 ^ 32))
    (hsdns : "sdns://".toList.isPrefixOf address = false) :
    Renders p ctrld address (proxy address ip (urlHost (endpoint address))) ↔
      Toml.Clean address ∧ (p.recognised address = true →
        urlHost (endpoint address) = ctrld.host (p.typeValue address) address) := by
  have htable := table_iff (p := p) (proxy address ip (urlHost (endpoint address))).details rfl
    (clean_quad ip)
  constructor
  · intro hrenders
    exact ⟨htable.mp hrenders.table, fun hrecognised ↦
      Option.some.inj (hrenders.host rfl hsdns hrecognised)⟩
  · rintro ⟨hclean, hhost⟩
    refine ⟨fun hplain ↦ ?_, fun _ _ hrecognised ↦ ?_, htable.mpr hclean⟩
    · cases hplain
    · exact congrArg some (hhost hrecognised)

/-- The promise for a stamp. -/
theorem renders_sdns_iff (hsdns : "sdns://".toList.isPrefixOf address = true) :
    Renders p ctrld address ⟨{ address := some address, type := .proxy }, none⟩ ↔
      Toml.Clean address := by
  have htable := table_iff (p := p) { address := some address, type := .proxy } rfl
    fun _ hmem ↦ absurd hmem List.not_mem_nil
  constructor
  · exact fun hrenders ↦ htable.mp hrenders.table
  · intro hclean
    refine ⟨fun hplain ↦ ?_, fun _ hnot ↦ ?_, htable.mpr hclean⟩
    · cases hplain
    · exact absurd (hsdns.symm.trans hnot) (by decide)

/-- The promise for a plain address. -/
theorem renders_plain_iff :
    Renders p ctrld address
        ⟨{ address := some address, ip := some address, type := .plain }, none⟩ ↔
      (readQuad address).isSome = true := by
  constructor
  · exact fun hrenders ↦ hrenders.plain rfl
  · refine fun hquad ↦ ⟨fun _ ↦ hquad, fun hproxy ↦ ?_, fun port file hfile ↦ ?_⟩
    · cases hproxy
    · cases (updateControlDConfig_some hfile).1

/-- A stamp does not begin with another scheme. -/
theorem not_stamp {scheme : Text} (hscheme : scheme ∈ "h3".toList :: prefixed)
    (hstarts : (scheme ++ "://".toList).isPrefixOf address = true) :
    "sdns://".toList.isPrefixOf address = false := by
  have hall : ∀ other ∈ "h3".toList :: prefixed, other ∈ schemes ∧ "sdns".toList ≠ other := by
    decide
  obtain ⟨hmem, hne⟩ := hall scheme hscheme
  refine Bool.eq_false_of_not_eq_true fun hstamp ↦ hne ?_
  obtain ⟨rest, rfl⟩ := List.isPrefixOf_iff_prefix.mp hstamp
  exact scheme_eq_of_isPrefixOf (by decide) hmem hstarts

/-- The details of a text with a network that gives every host the same address show what is wrong
with it. -/
theorem meets_of_consistent (hconsistent : Consistent p ctrld address) :
    Meets p ctrld address := by
  have hendpoint : mayBeEndpoint p address = true →
      "sdns://".toList.isPrefixOf address = false →
        Toml.Clean address ∧ (p.recognised address = true →
          urlHost (endpoint address) = ctrld.host (p.typeValue address) address) := by
    intro hmay hsdns
    obtain ⟨hip, hor⟩ := mayBeEndpoint_iff.mp hmay
    have hmalformed := hor.resolve_left (by rw [hsdns]; decide)
    exact (renders_proxy_iff 0 hsdns).mp
      (hconsistent [] _ _ (getDNSDetails_inet4 _ hip hsdns hmalformed 0))
  refine ⟨fun hip ↦ ?_, fun hmay ↦ ?_, fun hmay hrecognised rest haddress ↦ ?_,
    fun hmay hrecognised scheme hscheme hstarts ↦ ?_⟩
  · exact (isSome_readQuad_of_ipPattern hip).mp (renders_plain_iff.mp
      (hconsistent [] (fun _ ↦ none) _ (getDNSDetails_plain _ hip _)))
  · by_cases hsdns : "sdns://".toList.isPrefixOf address = true
    · exact (renders_sdns_iff hsdns).mp (hconsistent [] (fun _ ↦ none) _
        (getDNSDetails_sdns _ (mayBeEndpoint_iff.mp hmay).1 hsdns _))
    · exact (hendpoint hmay (Bool.eq_false_of_not_eq_true hsdns)).1
  · have hstarts : ("h3".toList ++ "://".toList).isPrefixOf address = true :=
      List.isPrefixOf_iff_prefix.mpr ⟨rest, haddress.symm⟩
    have hsdns := not_stamp List.mem_cons_self hstarts
    have hhost := (hendpoint hmay hsdns).2 hrecognised
    exact ((host_eq_iff hrecognised hsdns).mp hhost).1 rest haddress
  · have hsdns := not_stamp (List.mem_cons_of_mem _ hscheme) hstarts
    have hhost := (hendpoint hmay hsdns).2 hrecognised
    exact ((host_eq_iff hrecognised hsdns).mp hhost).2 scheme hscheme hstarts

theorem consistent_of_meets (hmeets : Meets p ctrld address) : Consistent p ctrld address := by
  intro calls getAllByName resolved hok
  rcases getDNSDetails_ok (kept_saved p calls) hok with
    ⟨hip, rfl⟩ | ⟨hip, hsdns, rfl⟩ | ⟨hip, hsdns, hmalformed, ip, rfl⟩
  · exact renders_plain_iff.mpr ((isSome_readQuad_of_ipPattern hip).mpr (hmeets.octets hip))
  · exact (renders_sdns_iff hsdns).mpr
      (hmeets.clean (mayBeEndpoint_iff.mpr ⟨hip, Or.inl hsdns⟩))
  · have hmay := mayBeEndpoint_iff.mpr ⟨hip, Or.inr hmalformed⟩
    exact (renders_proxy_iff ip hsdns).mpr ⟨hmeets.clean hmay, fun hrecognised ↦
      (host_eq_iff hrecognised hsdns).mpr
        ⟨hmeets.h3 hmay hrecognised, hmeets.scheme hmay hrecognised⟩⟩

/-- The promise is kept for a text if and only if it meets the condition. -/
theorem consistent_iff (p : Platform) (ctrld : Ctrld) (address : Text) :
    Consistent p ctrld address ↔ Meets p ctrld address :=
  ⟨meets_of_consistent, consistent_of_meets⟩

/-- A platform with the digits of every script, for which no URL is malformed. -/
def icu : Platform where
  digit c := (digitOf c).isSome
  terminator c := c ∈ ['\n', '\r', '\u0085', '\u2028', '\u2029']
  malformed _ := false

/-- An octet that is too large, a scheme that becomes the host, a second `h3://` and a quotation
mark. -/
theorem not_consistent_texts :
    ¬ Consistent icu urlReader "999.1.1.1".toList ∧
      ¬ Consistent icu urlReader "http://dns.example".toList ∧
      ¬ Consistent icu urlReader "h3://dnsh3://example".toList ∧
      ¬ Consistent icu urlReader "dns.example\"".toList := by
  refine ⟨fun hconsistent ↦ ?_, fun hconsistent ↦ ?_, fun hconsistent ↦ ?_, fun hconsistent ↦ ?_⟩
  · have hoctets := (meets_of_consistent hconsistent).octets (by decide)
    exact absurd (hoctets "999".toList (by decide)).2 (by decide)
  · have hscheme := (meets_of_consistent hconsistent).scheme (by decide) (by decide)
    exact absurd (hscheme "http".toList (by decide) (by decide)) (by decide)
  · have hh3 := (meets_of_consistent hconsistent).h3 (by decide) (by decide)
    exact absurd (hh3 "dnsh3://example".toList (by decide)) (by decide)
  · exact absurd ((meets_of_consistent hconsistent).clean (by decide)) (by decide)

/-! ### The configuration that ctrld runs with -/

/-- The details as the builds hand them to the proxy. -/
def profileDetails (details : DNSDetails) : VPNProfileCreator.DNSDetails where
  address := details.address.map String.ofList
  ip := details.ip.map String.ofList
  type := details.type

theorem toList_getD (text : Option Text) :
    ((text.map String.ofList).getD "").toList = text.getD [] := by
  cases text with
  | none => rfl
  | some text => exact String.toList_ofList

/-- Of clean details ctrld reads the configuration of the proxy. -/
theorem exists_readTable_config (p : Platform) {details : DNSDetails}
    (haddress : Toml.Clean (details.address.getD [])) (hip : Toml.Clean (details.ip.getD []))
    (listenPort : ℕ) :
    let config := DnsProxy.config (profileDetails details) listenPort
    ∃ table, Toml.readTable header (configData p details listenPort) = some table ∧
      table.lookup "endpoint".toList = some (.string config.endpoint.toList) ∧
      table.lookup "bootstrap_ip".toList = some (.string config.bootstrapIp.toList) := by
  dsimp only
  obtain ⟨table, hread, hendpoint, hbootstrap, -⟩ := (read_upstream_iff (p := p) details hip).mpr
    haddress
  refine ⟨table, (readTable_configData p details listenPort).trans hread, ?_, ?_⟩
  · rw [hendpoint, DnsProxy.config, profileDetails, toList_getD]
  · rw [hbootstrap, DnsProxy.config, profileDetails, toList_getD]

end WindscribeVpn.Backend.ControlDConfig
