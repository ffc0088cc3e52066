import WindscribeVpn.Openvpn.ServerConfigSanitizer

/-!
# The config file of an OpenVPN connection

`VpnProfile.getConfigFile` puts the config of the server, sanitized, behind lines of its own, adds
the remote and the routes after the device, and leaves out or replaces some of the lines, which it
finds by a word in them. The engine reads the file. `admitted_or_own_of_getConfigFile` is what holds
of all that it is handed: it is admitted, or it is a line of the app. The app must not touch a line
of a block for that, and leaving out the tag that opens one is touching it.

`openVpnEscape` writes a text so that the engine reads it as one parameter, for the file and for the
management interface; `readable_iff` gives the texts that are read back.
-/

set_option autoImplicit false
set_option relaxedAutoImplicit false

namespace WindscribeVpn.Openvpn.VpnProfile

open Foundations.Texts Foundations.Utf8 OptionsParse ServerConfigSanitizer
open Backend.OpenVPNInspection (ParseState quotation apostrophe backslashChar isSpace mayFollow)

/-! ### Escaping -/

/-- The text of `openVpnEscape` with its three replacements. -/
def escapedString (unescaped : Text) : Text :=
  replace (replace (replace unescaped [backslashChar] [backslashChar, backslashChar]) [quotation]
    [backslashChar, quotation]) ['\n'] [backslashChar, 'n']

/-- The text is written as it is, without quotes. -/
def Bare (unescaped : Text) : Prop :=
  escapedString unescaped = unescaped ∧ ' ' ∉ escapedString unescaped ∧
    '#' ∉ escapedString unescaped ∧ ';' ∉ escapedString unescaped ∧ escapedString unescaped ≠ []

instance (unescaped : Text) : Decidable (Bare unescaped) := by
  unfold Bare
  infer_instance

/-- `openVpnEscape`. -/
def openVpnEscape (unescaped : Text) : Text :=
  if Bare unescaped then unescaped else quotation :: escapedString unescaped ++ [quotation]

/-! ### The file -/

/-- What a file is made of apart from the config of the server. -/
structure Launch where
  cacheDir : Text
  x509Name : Option Text
  configForOvpn3 : Bool
  versionEnv : Text
  versionString : Text
  excludedRoutes : Option Text
  serverIp : Text
  port : Text
  protocol : Text
  stunnelRoutingIp : Option Text

/-- A text is found in a line (`contains`). -/
def hasWord (line : Text) (word : String) : Bool :=
  line.tails.any (word.toList.isPrefixOf ·)

/-- `split` at a character: empty texts at the end are left out, unless the character is not
found. -/
def split (separator : Char) (text : Text) : List Text :=
  let parts := text.splitOn separator
  if parts.length = 1 then parts else parts.rdropWhile List.isEmpty

/-- A route that goes past the tunnel. -/
def netGateway (ip : Text) : Text := "route ".toList ++ ip ++ " 255.255.255.255 net_gateway".toList

/-- The lines in front of the config of the server. -/
def Launch.header (launch : Launch) : List Text :=
  ["# Enables connection to GUI".toList,
    "management ".toList ++ launch.cacheDir ++ "/mgmtsocket unix".toList,
    "management-client".toList, "management-query-passwords".toList, "management-hold".toList, []] ++
  (launch.x509Name.map fun name ↦ "verify-x509-name ".toList ++ name ++ " name ".toList).toList ++
  (if launch.configForOvpn3 then [] else
    ["setenv IV_GUI_VER ".toList ++ openVpnEscape launch.versionEnv ++ " ".toList,
      "setenv IV_PLAT_VER ".toList ++ openVpnEscape launch.versionString]) ++
  ["machine-readable-output".toList, "allow-recursive-routing".toList, "ifconfig-nowarn".toList,
    "resolv-retry infinite".toList] ++
  match launch.excludedRoutes with
  | none => []
  | some routes => (split ',' routes).map netGateway

/-- The lines after the device. -/
def Launch.endpoint (launch : Launch) : List Text :=
  ("remote ".toList ++ launch.serverIp ++ " ".toList ++ launch.port ++ " ".toList ++
    launch.protocol) :: (launch.stunnelRoutingIp.map netGateway).toList

/-- The lines after the direction of the key. -/
def routing : List Text :=
  ["route-ipv6 ::/0".toList, "route 0.0.0.0 0.0.0.0 vpn_gateway".toList, "nobind".toList,
    "remote-cert-tls server".toList, "persist-tun".toList, "preresolve".toList,
    "management-query-proxy".toList]

/-- What the loop of `getConfigFile` writes for a line of the server. -/
def Launch.rewrite (launch : Launch) (line : Text) : List Text :=
  if hasWord line "dev tun" then line :: launch.endpoint
  else if hasWord line "persist-tun" then []
  else if hasWord line "nobind" then []
  else if hasWord line "remote-cert-tls" then []
  else if hasWord line "key-direction" then line :: routing
  else [line]

/-- The lines of `getConfigFile`. -/
def configLines (launch : Launch) (windServerConfig : Text) : List Text :=
  launch.header ++ (split '\n' (sanitize windServerConfig).config).flatMap launch.rewrite

/-- `getConfigFile`, with a line feed after each line. -/
def getConfigFile (launch : Launch) (windServerConfig : Text) : Text :=
  unixLines (configLines launch windServerConfig)

/-- The lines that are the app's. -/
def Launch.own (launch : Launch) : List Text := launch.header ++ launch.endpoint ++ routing

variable {launch : Launch} {raw : Text}

/-! ### Lines of the file -/

theorem splitOn_line {line : Text} (hbreak : '\n' ∉ line) (rest : Text) :
    ((line ++ ['\n']) ++ rest).splitOn '\n' = line :: rest.splitOn '\n' := by
  induction line with
  | nil => simp [List.splitOn_cons_eq_if_modifyHead]
  | cons c line ih =>
    rw [List.mem_cons, not_or] at hbreak
    have hne : (c == '\n') = false := beq_eq_false_iff_ne.mpr (Ne.symm hbreak.1)
    rw [List.cons_append, List.cons_append, List.splitOn_cons_eq_if_modifyHead, hne, ih hbreak.2]
    rfl

theorem splitOn_unixLines {lines : List Text} (hbreak : ∀ line ∈ lines, '\n' ∉ line) :
    (unixLines lines).splitOn '\n' = lines ++ [[]] := by
  induction lines with
  | nil => rfl
  | cons line rest ih =>
    rw [List.forall_mem_cons] at hbreak
    rw [unixLines_cons, splitOn_line hbreak.1, ih hbreak.2, List.cons_append]

/-- Lines that are put together and split again are the lines, empty ones at the end apart. -/
theorem split_unixLines {lines : List Text} (hbreak : ∀ line ∈ lines, '\n' ∉ line) :
    split '\n' (unixLines lines) = [[]] ∨ split '\n' (unixLines lines) <+: lines := by
  simp only [split, splitOn_unixLines hbreak]
  cases lines with
  | nil => exact Or.inl rfl
  | cons line rest =>
    refine Or.inr ?_
    rw [if_neg (by simp), List.rdropWhile_concat_pos _ _ _ rfl]
    exact List.rdropWhile_prefix _ _

theorem adds_rewrite (launch : Launch) : Adds launch.own launch.rewrite := by
  intro line
  have hendpoint : ∀ added ∈ launch.endpoint, added ∈ launch.own := fun added hmem ↦
    List.mem_append_left _ (List.mem_append_right _ hmem)
  have hrouting : ∀ added ∈ routing, added ∈ launch.own := fun added hmem ↦
    List.mem_append_right _ hmem
  rw [Launch.rewrite]
  split_ifs
  · exact Or.inr ⟨_, rfl, hendpoint⟩
  · exact Or.inl rfl
  · exact Or.inl rfl
  · exact Or.inl rfl
  · exact Or.inr ⟨_, rfl, hrouting⟩
  · exact Or.inr ⟨[], rfl, fun _ hmem ↦ absurd hmem List.not_mem_nil⟩

/-- The directives of the lines that are written for the lines of the server. -/
theorem admitted_or_own_of_server (hown : Blockless launch.own)
    (hlegible : Legible (lines raw))
    (hblocks : ∀ line ∈ blockLines .directives (lines raw), launch.rewrite line = [line])
    {directive : Directive}
    (hmem : directive ∈ (runLines none
      (((split '\n' (sanitize raw).config).flatMap launch.rewrite).map utf8)).handed) :
    admitted directive.acting = true ∨ Own launch.own directive := by
  have hbreak : ∀ line ∈ (sanitizeLines .directives (lines raw)).1, '\n' ∉ line :=
    fun line hline ↦ (mem_of_mem_lines (mem_of_mem_sanitizeLines hline)).1
  rcases split_unixLines hbreak with hempty | ⟨after, hafter⟩
  · have hconfig : split '\n' (sanitize raw).config = [[]] := hempty
    rw [hconfig] at hmem
    cases hmem
  · have hconfig : split '\n' (sanitize raw).config =
        split '\n' (unixLines (sanitizeLines .directives (lines raw)).1) := rfl
    refine admitted_or_own (adds_rewrite launch) hown hlegible.step tagged_directives hblocks [] ?_
    rw [← hafter, List.flatMap_append, List.map_append]
    rw [hconfig] at hmem
    exact (prefix_handed none _ _).subset hmem

theorem fits_rewrite (hfits : ∀ line ∈ launch.own, Fits (utf8 line)) {line added : Text}
    (hline : Fits (utf8 line)) (hmem : added ∈ launch.rewrite line) : Fits (utf8 added) := by
  rcases adds_rewrite launch line with hnil | ⟨more, hmore, hown⟩
  · rw [hnil] at hmem
    cases hmem
  · rw [hmore, List.mem_cons] at hmem
    rcases hmem with rfl | hmem
    · exact hline
    · exact hfits added (hown added hmem)

theorem fits_configLines (hfits : ∀ line ∈ launch.own, Fits (utf8 line))
    (hlegible : Legible (lines raw)) :
    ∀ line ∈ (configLines launch raw).map utf8, Fits line := by
  intro bytes hmem
  obtain ⟨line, hline, rfl⟩ := List.mem_map.mp hmem
  rw [configLines, List.mem_append, List.mem_flatMap] at hline
  rcases hline with hheader | ⟨server, hserver, hline⟩
  · exact hfits line (List.mem_append_left _ (List.mem_append_left _ hheader))
  · refine fits_rewrite hfits ?_ hline
    have hbreak : ∀ line ∈ (sanitizeLines .directives (lines raw)).1, '\n' ∉ line :=
      fun line hline ↦ (mem_of_mem_lines (mem_of_mem_sanitizeLines hline)).1
    have hconfig : split '\n' (sanitize raw).config =
      split '\n' (unixLines (sanitizeLines .directives (lines raw)).1) := rfl
    rw [hconfig] at hserver
    rcases split_unixLines hbreak with hempty | hkept
    · rw [hempty, List.mem_singleton] at hserver
      rw [hserver]
      exact ⟨List.not_mem_nil, by decide⟩
    · exact hlegible.fits_utf8 (mem_of_mem_sanitizeLines (hkept.subset hserver))

/-- Whatever the server sends that is legible, each directive that the engine is handed is one that
the server may send or one of the app's, as long as the lines of the app fit and open no block and
the app leaves the lines of blocks as they are. -/
theorem admitted_or_own_of_getConfigFile (launch : Launch) (raw : Text)
    (hfits : ∀ line ∈ launch.own, Fits (utf8 line)) (hown : Blockless launch.own)
    (hlegible : Legible (lines raw))
    (hblocks : ∀ line ∈ blockLines .directives (lines raw), launch.rewrite line = [line]) :
    ∀ directive ∈ (readFile (utf8 (getConfigFile launch raw))).handed,
      admitted directive.acting = true ∨ Own launch.own directive := by
  intro directive hmem
  have hmark : byteOrderMark.isPrefixOf (unixLines ((configLines launch raw).map utf8)) = false :=
    rfl
  rw [getConfigFile, utf8_unixLines, readFile_unixLines (fits_configLines hfits hlegible) hmark,
    configLines, List.map_append] at hmem
  have hheader : ∀ line ∈ launch.header, line ∈ launch.own := fun line hline ↦
    List.mem_append_left _ (List.mem_append_left _ hline)
  rcases own_or_mem_runLines hown hheader hmem with hmine | hserver
  · exact Or.inr hmine
  · exact admitted_or_own_of_server hown hlegible hblocks hserver

/-- A launch without routes of its own, and a config with a command and a block. -/
theorem admitted_or_own_of_getConfigFile_command :
    let launch : Launch :=
      { cacheDir := "/cache".toList, x509Name := none, configForOvpn3 := false
        versionEnv := "com.windscribe.vpn 4".toList, versionString := "34".toList
        excludedRoutes := none, serverIp := "10.0.0.1".toList, port := "443".toList
        protocol := "udp".toList, stunnelRoutingIp := none }
    ∀ directive ∈ (readFile (utf8 (getConfigFile launch
        "dev tun\nup sh\n<ca>\nMII\n</ca>".toList))).handed,
      admitted directive.acting = true ∨ Own launch.own directive :=
  admitted_or_own_of_getConfigFile _ _ (by decide +kernel) (by decide +kernel) (by decide +kernel)
    (by decide +kernel)

/-! ### What is read of an escaped text -/

/-- What the three replacements make of a character. -/
def escapeChar (c : Char) : Text :=
  if c = backslashChar then [backslashChar, backslashChar]
  else if c = quotation then [backslashChar, quotation]
  else if c = '\n' then [backslashChar, 'n']
  else [c]

theorem replace_singleton (text : Text) (c : Char) (new : Text) :
    replace text [c] new = text.flatMap fun d ↦ if d = c then new else [d] := by
  unfold replace
  induction text with
  | nil => rfl
  | cons d rest ih =>
    rw [replaceFrom, List.flatMap_cons, ← ih]
    by_cases hd : d = c
    · subst hd
      simp
    · rw [if_neg (by simpa using Ne.symm hd), if_neg hd]
      rfl

theorem escapedString_eq (text : Text) : escapedString text = text.flatMap escapeChar := by
  rw [escapedString, replace_singleton, replace_singleton, replace_singleton, List.flatMap_assoc,
    List.flatMap_assoc]
  refine List.flatMap_congr fun c _ ↦ ?_
  rw [escapeChar]
  by_cases hbackslash : c = backslashChar
  · subst hbackslash
    rfl
  · by_cases hquotation : c = quotation
    · subst hquotation
      rfl
    · simp [hbackslash, hquotation]

theorem length_escapeChar (c : Char) : 1 ≤ (escapeChar c).length := by
  rw [escapeChar]
  split_ifs <;> simp

theorem length_le_flatMap_escapeChar (text : Text) :
    text.length ≤ (text.flatMap escapeChar).length := by
  induction text with
  | nil => rfl
  | cons c rest ih =>
    have hone := length_escapeChar c
    rw [List.flatMap_cons, List.length_append, List.length_cons]
    omega

/-- Only a text without the three characters stays as it is. -/
theorem escapedString_eq_self {text : Text} (hsame : escapedString text = text) :
    ∀ c ∈ text, c ≠ backslashChar ∧ c ≠ quotation ∧ c ≠ '\n' := by
  rw [escapedString_eq] at hsame
  induction text with
  | nil => exact fun _ hmem ↦ absurd hmem List.not_mem_nil
  | cons c rest ih =>
    have hrest := length_le_flatMap_escapeChar rest
    have hlength := congrArg List.length hsame
    rw [List.flatMap_cons, List.length_append, List.length_cons] at hlength
    have hone : (escapeChar c).length = 1 := by
      have hle := length_escapeChar c
      omega
    have hplain : c ≠ backslashChar ∧ c ≠ quotation ∧ c ≠ '\n' := by
      refine ⟨?_, ?_, ?_⟩
      all_goals
        rintro rfl
        exact absurd hone (by decide)
    have hsingle : escapeChar c = [c] := by
      rw [escapeChar, if_neg hplain.1, if_neg hplain.2.1, if_neg hplain.2.2]
    rw [List.flatMap_cons, hsingle, List.singleton_append, List.cons.injEq] at hsame
    rw [List.forall_mem_cons]
    exact ⟨hplain, ih hsame.2⟩

/-- Bytes that are stored, one after the other, as far as there is room. -/
theorem parseLoop_stored {n : ℕ} {bytes line parm : Text} {state : ParseState} {p : List Text}
    (hbytes : ∀ c ∈ bytes, startsEscape false c state = false ∧
      readChar false c state = .stored state ∧ c ≠ nul)
    (hroom : parm.length ≤ optionParmSize) :
    parseLoop n (bytes ++ line) state false parm p =
      if parm.length + bytes.length ≤ optionParmSize then
        parseLoop n line state false (parm ++ bytes) p
      else none := by
  induction bytes generalizing parm with
  | nil => rw [List.nil_append, List.length_nil, Nat.add_zero, if_pos hroom, List.append_nil]
  | cons c rest ih =>
    rw [List.forall_mem_cons] at hbytes
    obtain ⟨⟨hescape, hread, hnul⟩, hrest⟩ := hbytes
    have hstore : store parm c = parm ++ [c] := if_neg hnul
    have hbad : unstorable false parm c = decide (optionParmSize ≤ parm.length) := by
      rw [unstorable, bne_iff_ne.mpr hnul, Bool.false_and, Bool.false_or, Bool.true_and]
    rw [List.cons_append, parseLoop, hescape, if_neg Bool.false_ne_true, hread]
    simp only [hbad, decide_eq_true_eq, hstore]
    by_cases hfull : optionParmSize ≤ parm.length
    · rw [if_pos hfull, if_neg (by rw [List.length_cons]; omega)]
    · rw [if_neg hfull, ih hrest (by rw [List.length_append, List.length_singleton]; omega),
        List.length_append, List.length_singleton, List.append_assoc, List.singleton_append,
        List.length_cons, Nat.add_assoc, Nat.add_comm 1]

/-- The character behind a backslash, in quotes. -/
theorem parseLoop_escaped {n : ℕ} {c : Char} {line parm : Text} {p : List Text}
    (hc : c = backslashChar ∨ c = quotation) :
    parseLoop n (backslashChar :: c :: line) .quoted false parm p =
      if optionParmSize ≤ parm.length then none
      else parseLoop n line .quoted false (parm ++ [c]) p := by
  have hbad : unstorable true parm c = decide (optionParmSize ≤ parm.length) := by
    rcases hc with rfl | rfl <;> exact Bool.false_or _
  have hread : startsEscape true c .quoted = false ∧ readChar true c .quoted = .stored .quoted ∧
      store parm c = parm ++ [c] := by
    rcases hc with rfl | rfl <;> exact ⟨rfl, rfl, rfl⟩
  rw [parseLoop, if_pos (by decide), parseLoop, hread.1, if_neg Bool.false_ne_true, hread.2.1]
  simp only [hbad, decide_eq_true_eq, hread.2.2]

/-- Within quotes a text is read back as far as there is room, unless it has a line feed. -/
theorem parseLoop_quoted {n : ℕ} {text line parm : Text} {p : List Text} (hnul : nul ∉ text)
    (hroom : parm.length ≤ optionParmSize) :
    parseLoop n (utf8 (text.flatMap escapeChar) ++ line) .quoted false parm p =
      if '\n' ∉ text ∧ parm.length + (utf8 text).length ≤ optionParmSize then
        parseLoop n line .quoted false (parm ++ utf8 text) p
      else none := by
  induction text generalizing parm with
  | nil =>
    rw [List.flatMap_nil, utf8_nil, List.nil_append, List.append_nil,
      if_pos ⟨List.not_mem_nil, hroom⟩]
  | cons c rest ih =>
    rw [List.mem_cons, not_or] at hnul
    rw [List.flatMap_cons, utf8_append, utf8_cons, List.append_assoc]
    by_cases hspecial : c = backslashChar ∨ c = quotation
    · have hascii : isAscii c = true := by
        rcases hspecial with rfl | rfl <;> rfl
      have hbreak : c ≠ '\n' := by
        rcases hspecial with rfl | rfl <;> decide
      have hescaped : utf8 (escapeChar c) = [backslashChar, c] := by
        rcases hspecial with rfl | rfl <;> decide
      rw [hescaped, charBytes_of_isAscii hascii, List.cons_append, List.cons_append,
        List.nil_append, parseLoop_escaped hspecial]
      by_cases hfull : optionParmSize ≤ parm.length
      · rw [if_pos hfull, if_neg fun hboth ↦ ?_]
        have hle := hboth.2
        rw [List.length_append, List.length_singleton] at hle
        omega
      · rw [if_neg hfull, ih hnul.2 (by rw [List.length_append, List.length_singleton]; omega)]
        refine if_congr ?_ ?_ rfl
        · rw [List.mem_cons, not_or, List.length_append, List.length_append, List.length_singleton,
            Nat.add_assoc]
          exact ⟨fun hboth ↦ ⟨⟨Ne.symm hbreak, hboth.1⟩, hboth.2⟩,
            fun hboth ↦ ⟨hboth.1.2, hboth.2⟩⟩
        · rw [List.append_assoc]
    · rw [not_or] at hspecial
      by_cases hbreak : c = '\n'
      · -- The engine knows no escape for a line feed.
        subst hbreak
        rw [if_neg fun hboth ↦ hboth.1 List.mem_cons_self]
        rfl
      · have hescaped : escapeChar c = [c] := by
          rw [escapeChar, if_neg hspecial.1, if_neg hspecial.2, if_neg hbreak]
        have hbytes : ∀ byte ∈ charBytes c, startsEscape false byte .quoted = false ∧
            readChar false byte .quoted = .stored .quoted ∧ byte ≠ nul := by
          cases hascii : isAscii c with
          | true =>
            intro byte hmem
            rw [charBytes_of_isAscii hascii, List.mem_singleton] at hmem
            subst hmem
            refine ⟨?_, ?_, Ne.symm hnul.1⟩
            · simp [startsEscape, hspecial.1]
            · simp [readChar, hspecial.2]
          | false =>
            intro byte hmem
            have hbyte := isAscii_of_mem_charBytes hascii hmem
            refine ⟨startsEscape_of_not_ascii hbyte _ _, readChar_of_not_ascii hbyte _ _, ?_⟩
            rintro rfl
            cases hbyte
        rw [hescaped, utf8_cons, utf8_nil, List.append_nil, parseLoop_stored hbytes hroom]
        by_cases hfits : parm.length + (charBytes c).length ≤ optionParmSize
        · rw [if_pos hfits, ih hnul.2 (by rwa [List.length_append])]
          refine if_congr ?_ ?_ rfl
          · rw [List.mem_cons, not_or, List.length_append, List.length_append, Nat.add_assoc]
            exact ⟨fun hboth ↦ ⟨⟨Ne.symm hbreak, hboth.1⟩, hboth.2⟩,
              fun hboth ↦ ⟨hboth.1.2, hboth.2⟩⟩
          · rw [List.append_assoc]
        · rw [if_neg hfits, if_neg fun hboth ↦ ?_]
          have hle := hboth.2
          rw [List.length_append] at hle
          omega

/-- The texts that the engine reads back: without line feeds and zeros, as long as a parameter may
be, and where no quotes are put around them with no apostrophe in front and no blank of any kind. -/
structure Readable (text : Text) : Prop where
  unbroken : '\n' ∉ text
  noZero : nul ∉ text
  short : (utf8 text).length ≤ optionParmSize
  bare : Bare text → text.head? ≠ some apostrophe ∧ ∀ c ∈ text, isSpace c = false

theorem parseLine_of_noZero {text bytes : Text} (hnul : nul ∉ bytes) (htext : utf8 text = bytes) :
    parseLine (utf8 text) = parseLoop maxParms (bytes ++ [nul]) .initial false [] [] := by
  rw [parseLine, htext, cString_of_not_mem hnul]

/-- What is read of a text in quotes. -/
theorem parseLine_quoted {text : Text} (hnul : nul ∉ text) :
    parseLine (utf8 (quotation :: escapedString text ++ [quotation])) =
      if '\n' ∉ text ∧ (utf8 text).length ≤ optionParmSize then some [utf8 text] else none := by
  have hbytes : utf8 (quotation :: escapedString text ++ [quotation]) =
      quotation :: (utf8 (text.flatMap escapeChar) ++ [quotation]) := by
    rw [escapedString_eq, utf8_append, utf8_cons]
    rfl
  have hzero : nul ∉ quotation :: (utf8 (text.flatMap escapeChar) ++ [quotation]) := by
    have hescaped : nul ∉ utf8 (text.flatMap escapeChar) := by
      rw [mem_utf8 (by decide), List.mem_flatMap]
      rintro ⟨c, hc, hmem⟩
      have hne : c ≠ nul := fun heq ↦ hnul (heq ▸ hc)
      rw [escapeChar] at hmem
      split_ifs at hmem
      · exact absurd hmem (by decide)
      · exact absurd hmem (by decide)
      · exact absurd hmem (by decide)
      · exact hne (List.mem_singleton.mp hmem).symm
    rw [List.mem_cons, List.mem_append, List.mem_singleton]
    rintro (hquotation | hmem | hquotation)
    · exact absurd hquotation (by decide)
    · exact hescaped hmem
    · exact absurd hquotation (by decide)
  have hquoted : parseLoop maxParms
      ((quotation :: (utf8 (text.flatMap escapeChar) ++ [quotation])) ++ [nul]) .initial false [] [] =
      parseLoop maxParms (utf8 (text.flatMap escapeChar) ++ [quotation, nul]) .quoted false [] [] := by
    rw [List.cons_append, List.append_assoc]
    rfl
  rw [parseLine_of_noZero hzero hbytes, hquoted, parseLoop_quoted hnul (Nat.zero_le _),
    List.length_nil, Nat.zero_add, List.nil_append]
  rfl

/-- The first parameter of a text without quotes and escapes, up to its first blank. -/
theorem head?_parameters_unquoted {bytes parm : Text} (hbackslash : backslashChar ∉ bytes)
    (hnul : nul ∉ bytes) :
    (parameters (bytes ++ [nul]) .unquoted false parm).head? =
      some (parm ++ bytes.takeWhile (!isSpace ·)) := by
  induction bytes generalizing parm with
  | nil => simp [parameters, startsEscape, readChar, space, nul, backslashChar]
  | cons c rest ih =>
    rw [List.mem_cons, not_or] at hbackslash hnul
    have hescape : startsEscape false c .unquoted = false := by
      simp [startsEscape, Ne.symm hbackslash.1]
    rw [List.cons_append, parameters, hescape, if_neg Bool.false_ne_true]
    have hspace : space c = isSpace c := by
      rw [space, beq_eq_false_iff_ne.mpr (Ne.symm hnul.1), Bool.false_or]
    cases hc : isSpace c with
    | true =>
      have hread : readChar false c .unquoted = .done := by simp [readChar, hspace, hc]
      rw [hread, List.takeWhile_cons_of_neg (by simp [hc])]
      simp
    | false =>
      have hread : readChar false c .unquoted = .stored .unquoted := by
        simp [readChar, hspace, hc]
      have hstore : store parm c = parm ++ [c] := if_neg (Ne.symm hnul.1)
      rw [hread, List.takeWhile_cons_of_pos (by simp [hc])]
      simp only [hstore]
      rw [ih hbackslash.2 hnul.2, List.append_assoc, List.singleton_append]

/-- What is read of a text without quotes. -/
theorem parseLine_bare {bytes : Text} (hne : bytes ≠ []) (hnul : nul ∉ bytes)
    (hplain : ∀ c ∈ bytes, c ≠ backslashChar ∧ c ≠ quotation ∧ c ≠ '#' ∧ c ≠ ';') :
    parseLoop maxParms (bytes ++ [nul]) .initial false [] [] = some [bytes] ↔
      bytes.length ≤ optionParmSize ∧ bytes.head? ≠ some apostrophe ∧
        ∀ c ∈ bytes, isSpace c = false := by
  have hbackslash : backslashChar ∉ bytes := fun hmem ↦ (hplain _ hmem).1 rfl
  constructor
  · intro hparse
    have hstorable := storable_of_parseLoop (fun _ hmem ↦ absurd hmem List.not_mem_nil)
      ⟨List.not_mem_nil, Nat.zero_le _⟩ hparse bytes (List.mem_singleton_self _)
    have hall : [bytes] = (parameters (bytes ++ [nul]) .initial false []).take maxParms :=
      (eq_take_of_parseLoop (by decide) hparse).trans (List.nil_append _)
    have hhead : (parameters (bytes ++ [nul]) .initial false []).head? = some bytes := by
      have htake := congrArg List.head? hall
      rw [List.head?_take, if_neg (by decide)] at htake
      exact htake.symm
    cases hbytes : bytes with
    | nil => exact absurd hbytes hne
    | cons c rest =>
      rw [hbytes] at hhead hnul hbackslash hplain hstorable
      rw [List.mem_cons, not_or] at hnul hbackslash
      obtain ⟨hc, -⟩ := List.forall_mem_cons.mp hplain
      -- A first character that is not stored leaves too few for the parameter.
      have hskipped : ∀ state, ¬ (parameters (rest ++ [nul]) state false []).head? =
          some (c :: rest) := by
        intro state hfirst
        have hle := length_le_of_mem_parameters (List.mem_of_head? hfirst)
        rw [List.length_nil, List.length_cons] at hle
        omega
      have hescape : startsEscape false c .initial = false := by
        simp [startsEscape, hc.1]
      have hspace : space c = isSpace c := by
        rw [space, beq_eq_false_iff_ne.mpr (Ne.symm hnul.1), Bool.false_or]
      rw [List.cons_append, parameters, hescape, if_neg Bool.false_ne_true] at hhead
      have hfirst : isSpace c = false := by
        by_contra hblank
        have hread : readChar false c .initial = .skipped .initial := by
          simp [readChar, hspace, hblank]
        rw [hread] at hhead
        exact hskipped _ hhead
      have hnoApostrophe : c ≠ apostrophe := by
        rintro rfl
        exact hskipped .squoted hhead
      have hread : readChar false c .initial = .stored .unquoted := by
        simp [readChar, hspace, hfirst, hc.2.1, hc.2.2.1, hc.2.2.2, hnoApostrophe]
      have hstore : store [] c = [c] := if_neg (Ne.symm hnul.1)
      rw [hread] at hhead
      simp only [hstore] at hhead
      rw [head?_parameters_unquoted hbackslash.2 hnul.2, List.singleton_append, Option.some.injEq,
        List.cons.injEq] at hhead
      refine ⟨hstorable.2, ?_, ?_⟩
      · rw [List.head?_cons, Ne, Option.some.injEq]
        exact hnoApostrophe
      · rw [List.forall_mem_cons]
        refine ⟨hfirst, fun d hd ↦ ?_⟩
        have hwhile := List.mem_takeWhile_imp (hhead.2.symm ▸ hd)
        simpa using hwhile
  · rintro ⟨hshort, hnoApostrophe, hspaces⟩
    cases hbytes : bytes with
    | nil => exact absurd hbytes hne
    | cons c rest =>
      rw [hbytes] at hnul hbackslash hplain hshort hnoApostrophe hspaces
      rw [List.head?_cons, Ne, Option.some.injEq] at hnoApostrophe
      have hstep : ∀ d ∈ c :: rest, startsEscape false d .unquoted = false ∧
          readChar false d .unquoted = .stored .unquoted ∧ d ≠ nul := by
        intro d hd
        have hne : d ≠ nul := fun heq ↦ hnul (heq ▸ hd)
        refine ⟨?_, ?_, hne⟩
        · simp [startsEscape, (hplain d hd).1]
        · simp [readChar, space, hne, hspaces d hd]
      have hfirst : parseLoop maxParms ((c :: rest) ++ [nul]) .initial false [] [] =
          parseLoop maxParms ((c :: rest) ++ [nul]) .unquoted false [] [] := by
        obtain ⟨hescape, hread, hne⟩ := hstep c List.mem_cons_self
        obtain ⟨hc, -⟩ := List.forall_mem_cons.mp hplain
        have hinitial : readChar false c .initial = .stored .unquoted := by
          simp [readChar, space, hne, hspaces c List.mem_cons_self, hc.2.1, hc.2.2.1, hc.2.2.2,
            hnoApostrophe]
        have hescape' : startsEscape false c .initial = false := by
          simp [startsEscape, hc.1]
        rw [List.cons_append, parseLoop, parseLoop, hescape, hescape', hread, hinitial]
        rfl
      rw [hfirst, parseLoop_stored hstep (Nat.zero_le _), List.length_nil, Nat.zero_add,
        if_pos hshort, List.nil_append]
      rfl

theorem forall_isSpace_utf8 {text : Text} :
    (∀ c ∈ utf8 text, isSpace c = false) ↔ ∀ c ∈ text, isSpace c = false := by
  have hmem : ∀ {c : Char}, isSpace c = true → (c ∈ utf8 text ↔ c ∈ text) := fun hspace ↦
    mem_utf8 (isAscii_of_space (by rw [space, hspace, Bool.or_true]))
  constructor
  · intro hall c hc
    by_contra hspace
    rw [Bool.not_eq_false] at hspace
    rw [hall c ((hmem hspace).mpr hc)] at hspace
    cases hspace
  · intro hall c hc
    by_contra hspace
    rw [Bool.not_eq_false] at hspace
    rw [hall c ((hmem hspace).mp hc)] at hspace
    cases hspace

theorem head?_utf8 {c : Char} (hascii : isAscii c = true) {text : Text} :
    (utf8 text).head? = some c ↔ text.head? = some c := by
  have hstarts : ∀ other : Text, [c].isPrefixOf other = true ↔ other.head? = some c := by
    intro other
    cases other with
    | nil => simp
    | cons d rest =>
      rw [List.isPrefixOf_cons_cons, List.isPrefixOf_nil_left, Bool.and_true, beq_iff_eq,
        List.head?_cons, Option.some.injEq, eq_comm]
  have hword : ∀ d ∈ [c], isAscii d = true := fun d hd ↦ by rwa [List.mem_singleton.mp hd]
  rw [← hstarts, ← hstarts, isPrefixOf_utf8 hword]

/-- A text is read back as one parameter exactly when it is readable. -/
theorem readable_iff (text : Text) :
    parseLine (utf8 (openVpnEscape text)) = some [utf8 text] ↔ Readable text := by
  have hzero : parseLine (utf8 (openVpnEscape text)) = some [utf8 text] → nul ∉ text := by
    intro hparse hmem
    have hstorable := storable_of_parseLoop (fun _ hmem ↦ absurd hmem List.not_mem_nil)
      ⟨List.not_mem_nil, Nat.zero_le _⟩ hparse (utf8 text) (List.mem_singleton_self _)
    exact hstorable.1 ((mem_utf8 (by decide)).mpr hmem)
  by_cases hbare : Bare text
  · have hsame : openVpnEscape text = text := if_pos hbare
    have hplain := escapedString_eq_self hbare.1
    obtain ⟨hself, hblank, hhash, hsemicolon, hne⟩ := hbare
    rw [hself] at hblank hhash hsemicolon hne
    have hmem : ∀ {c : Char}, isAscii c = true → c ∉ text → ∀ d ∈ utf8 text, d ≠ c :=
      fun hascii hnot d hd heq ↦ hnot ((mem_utf8 hascii).mp (heq ▸ hd))
    have hbytes : ∀ c ∈ utf8 text, c ≠ backslashChar ∧ c ≠ quotation ∧ c ≠ '#' ∧ c ≠ ';' :=
      fun c hc ↦ ⟨hmem rfl (fun hin ↦ (hplain _ hin).1 rfl) c hc,
        hmem rfl (fun hin ↦ (hplain _ hin).2.1 rfl) c hc, hmem rfl hhash c hc,
        hmem rfl hsemicolon c hc⟩
    have hnonempty : utf8 text ≠ [] := fun hnil ↦ hne (utf8_eq_nil_iff.mp hnil)
    have hline : nul ∉ text → (parseLine (utf8 text) = some [utf8 text] ↔
        (utf8 text).length ≤ optionParmSize ∧ (utf8 text).head? ≠ some apostrophe ∧
          ∀ c ∈ utf8 text, isSpace c = false) := by
      intro hnul
      have hnone : nul ∉ utf8 text := by rwa [mem_utf8 (by decide)]
      rw [parseLine_of_noZero hnone rfl]
      exact parseLine_bare hnonempty hnone hbytes
    rw [hsame] at hzero ⊢
    have hheads : (utf8 text).head? ≠ some apostrophe ↔ text.head? ≠ some apostrophe :=
      not_congr (head?_utf8 (by decide))
    constructor
    · intro hparse
      have hnul := hzero hparse
      obtain ⟨hshort, hfirst, hspaces⟩ := (hline hnul).mp hparse
      exact ⟨fun hin ↦ (hplain _ hin).2.2 rfl, hnul, hshort,
        fun _ ↦ ⟨hheads.mp hfirst, forall_isSpace_utf8.mp hspaces⟩⟩
    · intro hreadable
      obtain ⟨hfirst, hspaces⟩ := hreadable.bare ⟨hself, by rwa [hself], by rwa [hself],
        by rwa [hself], by rwa [hself]⟩
      exact (hline hreadable.noZero).mpr
        ⟨hreadable.short, hheads.mpr hfirst, forall_isSpace_utf8.mpr hspaces⟩
  · have hquoted : openVpnEscape text = quotation :: escapedString text ++ [quotation] :=
      if_neg hbare
    constructor
    · intro hparse
      have hnul := hzero hparse
      rw [hquoted, parseLine_quoted hnul] at hparse
      split_ifs at hparse with hread
      exact ⟨hread.1, hnul, hread.2, fun hyes ↦ absurd hyes hbare⟩
    · intro hreadable
      rw [hquoted, parseLine_quoted hreadable.noZero, if_pos ⟨hreadable.unbroken, hreadable.short⟩]

end WindscribeVpn.Openvpn.VpnProfile
