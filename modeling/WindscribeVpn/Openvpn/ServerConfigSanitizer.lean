import WindscribeVpn.Openvpn.OptionsParse
import WindscribeVpn.Backend.WgQuick

/-!
# Directives that the server may not send

`ServerConfigSanitizer` takes out of an OpenVPN config from the API what would run a command, load
code, read or write a local file or replace the endpoint, before the config is written to disk. It
reads the config by itself, and what it lets pass is read again by the engine, so the two have to
see the same blocks and the same names.

They do as long as the config is `Legible`: its lines fit into the buffers of the engine, and each
line between blocks does not end in a backslash, opens a block for one of the two exactly when it
does for the other, and does not hide a directive behind `setenv opt`. Then nothing reaches the engine that is not admitted, also when the
app puts lines of its own between (`admitted_or_own`), and the engine makes of the config that is
left what it made of the whole one without the directives that are reported (`handed_sanitize`). The
code takes no care of the last condition: after `setenv opt` every directive passes
(`setenvOpt_passes`).
-/

set_option autoImplicit false
set_option relaxedAutoImplicit false

namespace WindscribeVpn.Openvpn.ServerConfigSanitizer

open Foundations.Texts Foundations.Utf8 OptionsParse
open Backend.OpenVPNInspection (ParseState quotation apostrophe backslashChar isSpace mayFollow
  bypassDoubledash)
open Backend.WgQuick (trim)

/-! ### What is refused -/

/-- `DENIED`. -/
def denied : List Text :=
  (["up", "down", "route-up", "route-pre-down", "ipchange", "tls-verify", "auth-user-pass-verify",
    "client-connect", "client-crresponse", "client-disconnect", "learn-address", "dns-updown",
    "tls-crypt-v2-verify", "plugin", "providers", "engine", "pkcs11-providers", "script-security",
    "user", "group", "daemon", "chroot", "cd", "setcon", "inetd", "writepid", "tmp-dir", "log",
    "log-append", "status", "client-config-dir", "askpass", "capath", "config", "replay-persist",
    "ifconfig-pool-persist", "remote", "remote-random", "proto", "port", "http-proxy",
    "http-proxy-option", "http-proxy-user-pass", "socks-proxy", "management", "management-client",
    "management-client-auth", "management-client-group", "management-client-user",
    "management-external-cert", "management-external-key", "management-forget-disconnect",
    "management-hold", "management-log-cache", "management-query-passwords",
    "management-query-proxy", "management-query-remote", "management-signal",
    "management-up-down"] : List String).map String.toList

/-- `DENIED_AS_PATH`: key material, which may come as a block only. -/
def deniedAsPath : List Text :=
  (["ca", "cert", "key", "dh", "pkcs12", "crl-verify", "extra-certs", "secret", "tls-auth",
    "tls-crypt", "tls-crypt-v2"] : List String).map String.toList

/-- `DENIED_WITH_ARGUMENT`. -/
def deniedWithArgument : List Text := (["auth-user-pass"] : List String).map String.toList

/-! ### Reading the config -/

/-- The lines of a config, which end at a line feed or at a carriage return and a line feed. -/
def lines : Text → List Text
  | [] => [[]]
  | '\r' :: '\n' :: rest => [] :: lines rest
  | c :: rest => if c = '\n' then [] :: lines rest else (lines rest).modifyHead (c :: ·)

/-- The loop of `parseTokens`, with the states of `parse_line`; the end of the line is a zero. -/
def parseTokensLoop (limit : ℕ) : Text → ParseState → Bool → Text → List Text → List Text
  | [], _, _, _, tokens => tokens
  | c :: rest, state, backslash, parm, tokens =>
    if startsEscape backslash c state then parseTokensLoop limit rest state true parm tokens
    else
      match readChar backslash c state with
      | .comment => tokens
      | .skipped state => parseTokensLoop limit rest state false parm tokens
      | .stored state => parseTokensLoop limit rest state false (store parm c) tokens
      | .done =>
        if limit ≤ tokens.length + 1 then tokens ++ [parm]
        else parseTokensLoop limit rest .initial false [] (tokens ++ [parm])

/-- `parseTokens`. -/
def parseTokens (line : Text) (limit : ℕ) : List Text :=
  parseTokensLoop limit (line ++ [nul]) .initial false [] []

/-- `firstToken`. -/
def firstToken (line : Text) : Option Text := (parseTokens line 1).head?

/-- `hasArgument`. -/
def hasArgument (line : Text) : Bool := decide (1 < (parseTokens line 2).length)

/-- The characters of the name of a tag. -/
def isTagChar (c : Char) : Bool :=
  decide ('a' ≤ c ∧ c ≤ 'z') || decide ('A' ≤ c ∧ c ≤ 'Z') || decide ('0' ≤ c ∧ c ≤ '9') ||
    c == '-' || c == '_'

/-- `inlineTag`. -/
def inlineTag (line : Text) : Option Text :=
  let t := trim line
  if t.length < 3 ∨ t.head? ≠ some '<' ∨ t.getLast? ≠ some '>' then none
  else
    let name := t.tail.dropLast
    if name.all isTagChar && !name.isEmpty then some name else none

/-- `isSpaceChar`. -/
def isSpaceChar (c : Char) : Bool :=
  c == ' ' || c == '\t' || c == '\n' || c == Char.ofNat 0x0B || c == Char.ofNat 0x0C || c == '\r'

/-- `isCloseTag`. -/
def isCloseTag (line tag : Text) : Bool := (closeTag tag).isPrefixOf (line.dropWhile isSpaceChar)

/-! ### Sanitizing -/

/-- Where the loop of `sanitize` is: between blocks, inside one that is copied (`copyingTag`) or
inside one that is left out (`skippingTag`). -/
inductive Mode
  | directives
  | copying (tag : Text)
  | skipping (tag : Text)
  deriving DecidableEq

/-- The directive of a line is refused, by its name or because it has an argument. -/
def refuses (token line : Text) : Bool :=
  denied.contains token || deniedAsPath.contains token ||
    (deniedWithArgument.contains token && hasArgument line)

/-- A line of the loop of `sanitize`: the mode after it, whether the line is kept, and what is
reported. -/
def sanitizeLine (line : Text) : Mode → Mode × Bool × Option Text
  | .skipping tag => (if isCloseTag line tag then .directives else .skipping tag, false, none)
  | .copying tag => (if isCloseTag line tag then .directives else .copying tag, true, none)
  | .directives =>
    match firstToken line with
    | none => (.directives, true, none)
    | some token =>
      match inlineTag line with
      | some tag =>
        if denied.contains tag then (.skipping tag, false, some ('<' :: tag ++ ['>']))
        else (.copying tag, true, none)
      | none =>
        if refuses (bypassDoubledash token) line then
          (.directives, false, some (bypassDoubledash token))
        else (.directives, true, none)

/-- The lines that are kept, and what is reported of the others. -/
def sanitizeLines : Mode → List Text → List Text × List Text
  | _, [] => ([], [])
  | mode, line :: rest =>
    let (next, keeps, report) := sanitizeLine line mode
    let (kept, dropped) := sanitizeLines next rest
    (if keeps then line :: kept else kept, report.toList ++ dropped)

/-- `Result`. -/
structure Result where
  config : Text
  dropped : List Text
  deriving DecidableEq

/-- `sanitize`. -/
def sanitize (rawConfig : Text) : Result :=
  let (kept, dropped) := sanitizeLines .directives (lines rawConfig)
  ⟨unixLines kept, dropped⟩

example : sanitize "<ca>\r\nup\r\n</ca>\r\n\"up\" x".toList =
    ⟨"<ca>\nup\n</ca>\n".toList, ["up".toList]⟩ := by decide +kernel

/-! ### What the engine may be handed -/

/-- A directive that the server may send: not denied, as a block if it is key material, and bare if
it would name a file. -/
def admitted (directive : Directive) : Bool :=
  !denied.contains directive.name &&
    (directive.isInline || (!deniedAsPath.contains directive.name &&
      (!deniedWithArgument.contains directive.name || directive.parameters.isEmpty)))

/-- The name of the block that the engine takes a line to open. -/
def opened (line : Text) : Option Text :=
  match readLine line with
  | .opens name => some name
  | _ => none

/-- A line between blocks that the sanitizer and the engine take for the same. -/
structure InStep (line : Text) : Prop where
  /-- The line feed is not escaped. -/
  ends : line.getLast? ≠ some backslashChar
  tag : opened (utf8 line ++ ['\n']) = inlineTag line
  /-- There is no `setenv opt` before another directive. -/
  plain : (readLine (utf8 line ++ ['\n'])).isPlain = true

instance (line : Text) : Decidable (InStep line) :=
  decidable_of_iff (line.getLast? ≠ some backslashChar ∧
      opened (utf8 line ++ ['\n']) = inlineTag line ∧
      (readLine (utf8 line ++ ['\n'])).isPlain = true)
    ⟨fun hall ↦ ⟨hall.1, hall.2.1, hall.2.2⟩, fun hstep ↦ ⟨hstep.ends, hstep.tag, hstep.plain⟩⟩

/-- The lines that are read between blocks. -/
def outerLines : Mode → List Text → List Text
  | _, [] => []
  | mode, line :: rest =>
    let others := outerLines (sanitizeLine line mode).1 rest
    if mode = .directives then line :: others else others

/-- A config that the sanitizer and the engine read the same way: its lines fit into the buffers of
the engine, and those between blocks are in step. -/
structure Legible (lines : List Text) : Prop where
  fits : ∀ line ∈ lines, (utf8 line).length + 1 < optionLineSize
  step : ∀ line ∈ outerLines .directives lines, InStep line

instance (lines : List Text) : Decidable (Legible lines) :=
  decidable_of_iff ((∀ line ∈ lines, (utf8 line).length + 1 < optionLineSize) ∧
      ∀ line ∈ outerLines .directives lines, InStep line)
    ⟨fun hall ↦ ⟨hall.1, hall.2⟩, fun hlegible ↦ ⟨hlegible.fits, hlegible.step⟩⟩

variable {line token tag body : Text} {raw : Text} {mode : Mode} {directive : Directive}

/-! ### Tokens -/

/-- All tokens of a line. -/
def tokens (line : Text) : List Text := parameters (line ++ [nul]) .initial false []

theorem parseTokensLoop_eq {limit : ℕ} {line parm : Text} {state : ParseState} {backslash : Bool}
    {found : List Text} (hlt : found.length < limit) :
    parseTokensLoop limit line state backslash parm found =
      found ++ (parameters line state backslash parm).take (limit - found.length) := by
  induction line generalizing state backslash parm found with
  | nil => rw [parseTokensLoop, parameters, List.take_nil, List.append_nil]
  | cons c rest ih =>
    rw [parseTokensLoop, parameters]
    by_cases hescape : startsEscape backslash c state = true
    · rw [if_pos hescape, if_pos hescape, ih hlt]
    · rw [if_neg hescape, if_neg hescape]
      cases hread : readChar backslash c state with
      | comment =>
        simp only
        rw [List.take_nil, List.append_nil]
      | skipped next => exact ih hlt
      | stored next => exact ih hlt
      | done =>
        simp only
        have hsub : limit - found.length = (limit - (found.length + 1)) + 1 := by omega
        rw [hsub, List.take_succ_cons]
        by_cases hlimit : limit ≤ found.length + 1
        · have hzero : limit - (found.length + 1) = 0 := by omega
          rw [if_pos hlimit, hzero, List.take_zero]
        · rw [if_neg hlimit, ih (by simp; omega), List.append_assoc, List.singleton_append,
            List.length_append, List.length_singleton]

theorem firstToken_eq (line : Text) : firstToken line = (tokens line).head? := by
  rw [firstToken, parseTokens, parseTokensLoop_eq Nat.one_pos, List.nil_append]
  exact List.head?_take

theorem hasArgument_eq (line : Text) : hasArgument line = decide (1 < (tokens line).length) := by
  rw [hasArgument, parseTokens, parseTokensLoop_eq Nat.two_pos, List.nil_append, List.length_take,
    tokens]
  exact decide_eq_decide.mpr (by simp)

theorem getLast?_utf8 (hends : line.getLast? ≠ some backslashChar) :
    (utf8 line).getLast? ≠ some backslashChar := by
  rcases List.eq_nil_or_concat line with rfl | ⟨before, c, rfl⟩
  · exact hends
  · rw [List.concat_eq_append, List.getLast?_append, List.getLast?_singleton,
      Option.some_or] at hends
    rw [List.concat_eq_append, utf8_append, utf8_cons, utf8_nil, List.append_nil]
    intro hlast
    have hmem : backslashChar ∈ charBytes c := by
      rw [List.getLast?_append, Option.or_eq_some_iff] at hlast
      rcases hlast with hlast | ⟨hnone, -⟩
      · exact List.mem_of_getLast? hlast
      · exact absurd (List.getLast?_eq_none_iff.mp hnone) (charBytes_ne_nil c)
    cases hascii : isAscii c with
    | true =>
      rw [charBytes_of_isAscii hascii, List.mem_singleton] at hmem
      exact hends (congrArg some hmem.symm)
    | false =>
      have hbyte := isAscii_of_mem_charBytes hascii hmem
      cases hbyte

theorem map_tokens (line : Text) :
    (tokens line).map utf8 = parameters (utf8 line ++ [nul]) .initial false [] := by
  rw [tokens, ← parameters_utf8, utf8_append]
  rfl

/-- Without zeros the parameters that the engine reads of a line are its tokens. -/
theorem eq_take_tokens (hends : line.getLast? ≠ some backslashChar) (hnul : nul ∉ line)
    {p : List Text} (hparse : parseLine (utf8 line ++ ['\n']) = some p) :
    p = ((tokens line).map utf8).take maxParms := by
  have hbytes : nul ∉ utf8 line ++ ['\n'] := by
    rw [List.mem_append, mem_utf8 (by decide), List.mem_singleton, not_or]
    exact ⟨hnul, by decide⟩
  rw [eq_take_of_parseLoop (by decide) hparse, cString_of_not_mem hbytes, List.append_assoc,
    List.singleton_append, parameters_newline (getLast?_utf8 hends) (fun _ ↦ rfl), map_tokens]
  rfl

/-- The parameters that the engine reads of a line start the tokens of the line. -/
theorem prefix_of_parseLine (hends : line.getLast? ≠ some backslashChar) {p : List Text}
    (hparse : parseLine (utf8 line ++ ['\n']) = some p) : p <+: (tokens line).map utf8 := by
  by_cases hnul : nul ∈ line
  · obtain ⟨after, hsplit, hmore⟩ := exists_cString_append ((mem_utf8 (by decide)).mpr hnul)
    have hbytes : utf8 line ++ [nul] = (cString (utf8 line) ++ [nul]) ++ (after ++ [nul]) := by
      conv_lhs => rw [hsplit]
      simp
    rw [eq_take_of_parseLoop (by decide) hparse, hmore, map_tokens, hbytes]
    exact (List.take_prefix _ _).trans (prefix_parameters _ _ _ _ _)
  · rw [eq_take_tokens hends hnul hparse]
    exact List.take_prefix _ _

/-! ### Names and tags -/

theorem bypassDoubledash_eq (name : Text) :
    bypassDoubledash name =
      if ['-', '-'].isPrefixOf name ∧ name.drop 2 ≠ [] then name.drop 2 else name := by
  match name with
  | [] => rfl
  | [c] => simp [bypassDoubledash]
  | [c, d] => simp [bypassDoubledash]
  | c :: d :: e :: rest =>
    by_cases hdash : c = '-' ∧ d = '-'
    · obtain ⟨rfl, rfl⟩ := hdash
      rfl
    · rw [if_neg fun hboth ↦ hdash ?_]
      · rw [bypassDoubledash]
        rintro _ _ hcons
        simp only [List.cons.injEq] at hcons
        exact hdash ⟨hcons.1, hcons.2.1⟩
      · have hprefixed := hboth.1
        simp only [List.isPrefixOf, Bool.and_eq_true, beq_iff_eq] at hprefixed
        exact ⟨hprefixed.1.symm, hprefixed.2.1.symm⟩

theorem utf8_eq_nil_iff : utf8 line = [] ↔ line = [] := by
  cases line with
  | nil => simp
  | cons c rest => simp [charBytes_ne_nil]

/-- Two dashes in front of a name are two dashes in front of its bytes. -/
theorem bypassDoubledash_utf8 (name : Text) :
    bypassDoubledash (utf8 name) = utf8 (bypassDoubledash name) := by
  have hdashes : ∀ c ∈ ['-', '-'], isAscii c = true := List.all_eq_true.mp (by decide)
  rw [bypassDoubledash_eq, bypassDoubledash_eq, isPrefixOf_utf8 hdashes]
  by_cases hdash : ['-', '-'].isPrefixOf name = true
  · obtain ⟨rest, rfl⟩ := List.isPrefixOf_iff_prefix.mp hdash
    have hbytes : utf8 (['-', '-'] ++ rest) = ['-', '-'] ++ utf8 rest := by
      rw [utf8_append, utf8_of_isAscii hdashes]
    have hdrop : ∀ more : Text, (['-', '-'] ++ more).drop 2 = more := fun _ ↦ rfl
    rw [hbytes, hdrop, hdrop]
    simp only [ne_eq, utf8_eq_nil_iff]
    split_ifs
    · rfl
    · exact hbytes.symm
  · rw [if_neg fun hboth ↦ hdash hboth.1, if_neg fun hboth ↦ hdash hboth.1]

/-- Words in ASCII are told from others by their bytes. -/
theorem contains_utf8 {words : List Text} (hwords : ∀ word ∈ words, ∀ c ∈ word, isAscii c = true)
    (text : Text) : words.contains (utf8 text) = words.contains text := by
  rw [Bool.eq_iff_iff, List.contains_iff_mem, List.contains_iff_mem]
  constructor
  · intro hmem
    rwa [eq_of_utf8_eq (hwords _ hmem) rfl]
  · intro hmem
    rwa [utf8_of_isAscii (hwords _ hmem)]

/-- The words of a list are checked character by character. -/
theorem isAscii_of_all {words : List Text}
    (hall : (words.all fun word ↦ word.all isAscii) = true) :
    ∀ word ∈ words, ∀ c ∈ word, isAscii c = true := fun word hword ↦
  List.all_eq_true.mp (List.all_eq_true.mp hall word hword)

theorem isAscii_denied : ∀ word ∈ denied, ∀ c ∈ word, isAscii c = true :=
  isAscii_of_all (by decide +kernel)

theorem isAscii_deniedAsPath : ∀ word ∈ deniedAsPath, ∀ c ∈ word, isAscii c = true :=
  isAscii_of_all (by decide +kernel)

theorem isAscii_deniedWithArgument : ∀ word ∈ deniedWithArgument, ∀ c ∈ word, isAscii c = true :=
  isAscii_of_all (by decide +kernel)

theorem isTagChar_spec {c : Char} (htag : isTagChar c = true) :
    isAscii c = true ∧ c ≠ nul ∧ c ≠ '\n' := by
  have hbounds : 45 ≤ c.toNat ∧ c.toNat ≤ 122 := by
    simp only [isTagChar, Bool.or_eq_true, decide_eq_true_eq, beq_iff_eq, Char.le_def,
      UInt32.le_iff_toNat_le] at htag
    rcases htag with (((⟨hlow, hhigh⟩ | ⟨hlow, hhigh⟩) | ⟨hlow, hhigh⟩) | rfl) | rfl
    · exact ⟨Nat.le_trans (by decide) hlow, hhigh⟩
    · exact ⟨Nat.le_trans (by decide) hlow, Nat.le_trans hhigh (by decide)⟩
    · exact ⟨Nat.le_trans (by decide) hlow, Nat.le_trans hhigh (by decide)⟩
    · decide
    · decide
  refine ⟨decide_eq_true (by omega), ?_, ?_⟩
  · rintro rfl
    exact absurd hbounds.1 (by decide)
  · rintro rfl
    exact absurd hbounds.1 (by decide)

theorem isTagChar_of_inlineTag (htag : inlineTag line = some tag) :
    ∀ c ∈ tag, isTagChar c = true := by
  simp only [inlineTag] at htag
  split_ifs at htag with hshape hname
  rw [← Option.some.inj htag]
  exact List.all_eq_true.mp (Bool.and_eq_true_iff.mp hname).1

theorem isSpaceChar_eq : isSpaceChar = isSpace := by
  funext c
  have hcode : ∀ d : Char, (c == d) = decide (c.toNat = d.toNat) := by
    intro d
    rw [Bool.eq_iff_iff, beq_iff_eq, decide_eq_true_iff]
    exact ⟨congrArg Char.toNat, fun heq ↦ Char.toNat_inj.mp heq⟩
  rw [Bool.eq_iff_iff]
  simp only [isSpaceChar, isSpace, hcode, Bool.or_eq_true, decide_eq_true_eq]
  change ((((c.toNat = 32 ∨ c.toNat = 9) ∨ c.toNat = 10) ∨ c.toNat = 11) ∨ c.toNat = 12) ∨
    c.toNat = 13 ↔ c.toNat = 32 ∨ 9 ≤ c.toNat ∧ c.toNat ≤ 13
  omega

/-- The two agree on the line that closes a block. -/
theorem closes_eq_isCloseTag (htag : ∀ c ∈ tag, isTagChar c = true) (line : Text) :
    closes (closeTag tag) (utf8 line ++ ['\n']) = isCloseTag line tag := by
  have hmem : ∀ c ∈ closeTag tag, c = '<' ∨ c = '/' ∨ c = '>' ∨ isTagChar c = true := by
    intro c hc
    simp only [closeTag, List.cons_append, List.mem_cons, List.mem_append, List.not_mem_nil,
      or_false] at hc
    rcases hc with rfl | rfl | hc | rfl
    · exact Or.inl rfl
    · exact Or.inr (Or.inl rfl)
    · exact Or.inr (Or.inr (Or.inr (htag c hc)))
    · exact Or.inr (Or.inr (Or.inl rfl))
  have hspec : ∀ c ∈ closeTag tag, isAscii c = true ∧ c ≠ nul ∧ c ≠ '\n' := by
    intro c hc
    rcases hmem c hc with rfl | rfl | rfl | hc
    · decide
    · decide
    · decide
    · exact isTagChar_spec hc
  rw [isCloseTag, isSpaceChar_eq]
  exact closes_utf8 (fun c hc ↦ (hspec c hc).1) (fun hc ↦ (hspec _ hc).2.1 rfl)
    (fun hc ↦ (hspec _ hc).2.2 rfl) line

/-! ### What a line is to the two -/

/-- What the engine takes a line for that is in step, and what the sanitizer sees of it. -/
inductive Seen (line : Text) : LineReading → Prop
  | refused : Seen line .refused
  | blank (hfirst : nul ∉ line → firstToken line = none) (htag : inlineTag line = none) :
      Seen line .blank
  | directive (token : Text) (hfirst : firstToken line = some token)
      (htag : inlineTag line = none) (parameters : List Text)
      (hargument : parameters ≠ [] → hasArgument line = true)
      (hbare : nul ∉ line → parameters = [] → hasArgument line = false) :
      Seen line (.directive ⟨utf8 (bypassDoubledash token), parameters, false⟩)
  | opens (token : Text) (hfirst : firstToken line = some token) (tag : Text)
      (htag : inlineTag line = some tag) : Seen line (.opens tag)

theorem seen_readLine (hstep : InStep line) : Seen line (readLine (utf8 line ++ ['\n'])) := by
  have htag := hstep.tag
  rw [opened] at htag
  cases hparse : parseLine (utf8 line ++ ['\n']) with
  | none =>
    have hread : readLine (utf8 line ++ ['\n']) = .refused := by rw [readLine, hparse]
    rw [hread]
    exact .refused
  | some p =>
    have hprefixed := prefix_of_parseLine hstep.ends hparse
    cases p with
    | nil =>
      have hread : readLine (utf8 line ++ ['\n']) = .blank := by rw [readLine, hparse]
      rw [hread] at htag ⊢
      refine .blank (fun hnul ↦ ?_) htag.symm
      have hempty := eq_take_tokens hstep.ends hnul hparse
      rw [firstToken_eq]
      cases htokens : tokens line with
      | nil => rfl
      | cons token rest =>
        rw [htokens, List.map_cons, maxParms, List.take_succ_cons] at hempty
        cases hempty
    | cons first parameters =>
      obtain ⟨token, rest, htokens, rfl, hrest⟩ : ∃ token rest, tokens line = token :: rest ∧
          utf8 token = first ∧ parameters <+: rest.map utf8 := by
        cases htokens : tokens line with
        | nil =>
          rw [htokens] at hprefixed
          cases List.prefix_nil.mp hprefixed
        | cons token rest =>
          rw [htokens, List.map_cons, List.cons_prefix_cons] at hprefixed
          exact ⟨token, rest, rfl, hprefixed.1.symm, hprefixed.2⟩
      have hfirst : firstToken line = some token := by rw [firstToken_eq, htokens]; rfl
      have hname : bypassDoubledash (utf8 token) = utf8 (bypassDoubledash token) :=
        bypassDoubledash_utf8 token
      cases hblock : blockName (utf8 (bypassDoubledash token) :: parameters) with
      | some name =>
        have hread : readLine (utf8 line ++ ['\n']) = .opens name := by
          rw [readLine, hparse]
          simp only [hname, hblock]
        rw [hread] at htag ⊢
        exact .opens token hfirst name htag.symm
      | none =>
        have hread : readLine (utf8 line ++ ['\n']) =
            .directive ⟨utf8 (bypassDoubledash token), parameters, false⟩ := by
          rw [readLine, hparse]
          simp only [hname, hblock]
        rw [hread] at htag ⊢
        refine .directive token hfirst htag.symm parameters (fun hne ↦ ?_) (fun hnul hnil ↦ ?_)
        · have hlength := hrest.length_le
          rw [List.length_map] at hlength
          have hpos := List.length_pos_of_ne_nil hne
          rw [hasArgument_eq, htokens, List.length_cons]
          exact decide_eq_true (by omega)
        · have hall := eq_take_tokens hstep.ends hnul hparse
          rw [htokens, List.map_cons, maxParms, List.take_succ_cons, hnil, List.cons.injEq] at hall
          have hempty : rest = [] := by
            cases rest with
            | nil => rfl
            | cons second others => cases hall.2
          rw [hasArgument_eq, htokens, hempty]
          rfl

/-- A directive is admitted when the sanitizer does not refuse its line. -/
theorem admitted_of_not_refuses {token line : Text} {parameters : List Text}
    (hrefuses : refuses token line = false)
    (hargument : parameters ≠ [] → hasArgument line = true) :
    admitted ⟨utf8 token, parameters, false⟩ = true := by
  simp only [refuses, Bool.or_eq_false_iff, Bool.and_eq_false_iff] at hrefuses
  obtain ⟨⟨hdenied, hpath⟩, hargs⟩ := hrefuses
  simp only [admitted, contains_utf8 isAscii_denied, contains_utf8 isAscii_deniedAsPath,
    contains_utf8 isAscii_deniedWithArgument, hdenied, hpath, Bool.not_false, Bool.true_and,
    Bool.false_or, Bool.or_eq_true, Bool.not_eq_true', List.isEmpty_iff]
  refine hargs.imp id fun hbare ↦ ?_
  by_contra hne
  rw [hargument hne] at hbare
  cases hbare

/-- The tag of a block that the sanitizer is in. -/
def Mode.Tagged : Mode → Prop
  | .directives => True
  | .copying tag => (∀ c ∈ tag, isTagChar c = true) ∧ denied.contains tag = false
  | .skipping tag => (∀ c ∈ tag, isTagChar c = true) ∧ denied.contains tag = true

/-- The block that the engine is in when it reads the whole config. -/
def Mode.whole (body : Text) : Mode → Option (Text × Text)
  | .directives => none
  | .copying tag => some (tag, body)
  | .skipping tag => some (tag, body)

/-- The block that it is in when it reads what is kept. -/
def Mode.kept (body : Text) : Mode → Option (Text × Text)
  | .directives => none
  | .copying tag => some (tag, body)
  | .skipping _ => none

theorem sanitizeLines_cons {next : Mode} {keeps : Bool} {report : Option Text}
    (hline : sanitizeLine line mode = (next, keeps, report)) (rest : List Text) :
    sanitizeLines mode (line :: rest) =
      (if keeps then line :: (sanitizeLines next rest).1 else (sanitizeLines next rest).1,
        report.toList ++ (sanitizeLines next rest).2) := by
  rw [sanitizeLines, hline]

/-- What the sanitizer does to a line between blocks. -/
inductive Sanitized (line : Text) : Mode × Bool × Option Text → Prop
  | blank (hfirst : firstToken line = none) : Sanitized line (.directives, true, none)
  | skips (token : Text) (hfirst : firstToken line = some token) (tag : Text)
      (htag : inlineTag line = some tag) (hdenied : denied.contains tag = true) :
      Sanitized line (.skipping tag, false, some ('<' :: tag ++ ['>']))
  | copies (token : Text) (hfirst : firstToken line = some token) (tag : Text)
      (htag : inlineTag line = some tag) (hdenied : denied.contains tag = false) :
      Sanitized line (.copying tag, true, none)
  | drops (token : Text) (hfirst : firstToken line = some token) (htag : inlineTag line = none)
      (hrefuses : refuses (bypassDoubledash token) line = true) :
      Sanitized line (.directives, false, some (bypassDoubledash token))
  | keeps (token : Text) (hfirst : firstToken line = some token) (htag : inlineTag line = none)
      (hrefuses : refuses (bypassDoubledash token) line = false) :
      Sanitized line (.directives, true, none)

theorem sanitized (line : Text) : Sanitized line (sanitizeLine line .directives) := by
  rw [sanitizeLine]
  cases hfirst : firstToken line with
  | none => exact .blank hfirst
  | some token =>
    cases htag : inlineTag line with
    | some tag =>
      simp only
      split_ifs with hdenied
      · exact .skips token hfirst tag htag hdenied
      · exact .copies token hfirst tag htag (Bool.eq_false_iff.mpr hdenied)
    | none =>
      simp only
      split_ifs with hrefuses
      · exact .drops token hfirst htag hrefuses
      · exact .keeps token hfirst htag (Bool.eq_false_iff.mpr hrefuses)

theorem tagged_directives : Mode.directives.Tagged := trivial

theorem tagged_skipping (htag : inlineTag line = some tag) (hdenied : denied.contains tag = true) :
    (Mode.skipping tag).Tagged := ⟨isTagChar_of_inlineTag htag, hdenied⟩

theorem tagged_copying (htag : inlineTag line = some tag) (hdenied : denied.contains tag = false) :
    (Mode.copying tag).Tagged := ⟨isTagChar_of_inlineTag htag, hdenied⟩

theorem sanitizeLine_skipping (line tag : Text) :
    sanitizeLine line (.skipping tag) =
      (if isCloseTag line tag then .directives else .skipping tag, false, none) := rfl

theorem sanitizeLine_copying (line tag : Text) :
    sanitizeLine line (.copying tag) =
      (if isCloseTag line tag then .directives else .copying tag, true, none) := rfl

/-- A block with a tag that is not denied is admitted, whatever its text is. -/
theorem admitted_block (hdenied : denied.contains tag = false) (body : Text) :
    admitted (Directive.acting ⟨tag, [body], true⟩) = true := by
  rw [Directive.acting]
  split_ifs
  · change admitted ⟨"setenv opt".toList, [], true⟩ = true
    decide +kernel
  · simp only [admitted, hdenied, Bool.not_false, Bool.true_or, Bool.and_true]

/-- The lines that are kept of blocks, with their tags. -/
def blockLines : Mode → List Text → List Text
  | _, [] => []
  | mode, line :: rest =>
    let (next, keeps, _) := sanitizeLine line mode
    let others := blockLines next rest
    if keeps && (mode != .directives || next != .directives) then line :: others else others

/-- What becomes of a line before it is written: it is left out, or lines of the app come after
it. -/
def Adds (own : List Text) (rewrite : Text → List Text) : Prop :=
  ∀ line, rewrite line = [] ∨ ∃ more, rewrite line = line :: more ∧ ∀ added ∈ more, added ∈ own

/-- No line opens a block. -/
def Blockless (own : List Text) : Prop :=
  ∀ line ∈ own, opened (utf8 line ++ ['\n']) = none

instance (own : List Text) : Decidable (Blockless own) := List.decidableBAll _ _

/-- A directive of one of the lines. -/
def Own (own : List Text) (directive : Directive) : Prop :=
  ∃ line ∈ own, readLine (utf8 line ++ ['\n']) = .directive directive

/-- Lines that open no block hand over their own directives, then the engine goes on. -/
theorem own_or_mem_runLines {own : List Text} (hblockless : Blockless own) {first : List Text}
    (hfirst : ∀ line ∈ first, line ∈ own) {after : List Text}
    (hmem : directive ∈ (runLines none (first.map utf8 ++ after)).handed) :
    Own own directive ∨ directive ∈ (runLines none after).handed := by
  induction first with
  | nil => exact Or.inr hmem
  | cons line rest ih =>
    rw [List.forall_mem_cons] at hfirst
    rw [List.map_cons, List.cons_append, runLines] at hmem
    cases hread : readLine (utf8 line ++ ['\n']) with
    | refused =>
      rw [hread] at hmem
      cases hmem
    | blank =>
      rw [hread] at hmem
      exact ih hfirst.2 hmem
    | opens name =>
      have hnone := hblockless line hfirst.1
      rw [opened, hread] at hnone
      cases hnone
    | directive found =>
      rw [hread] at hmem
      rcases List.mem_cons.mp hmem with rfl | hmem
      · exact Or.inl ⟨line, hfirst.1, hread⟩
      · exact ih hfirst.2 hmem

/-- What the engine is handed of the lines that are kept is admitted, or it is what the app has put
between them, as long as the app leaves the blocks alone. -/
theorem admitted_or_own {own : List Text} {rewrite : Text → List Text} (hadds : Adds own rewrite)
    (hblockless : Blockless own) {lines : List Text}
    (hstep : ∀ line ∈ outerLines mode lines, InStep line) (htagged : mode.Tagged) (hblocks : ∀ line ∈ blockLines mode lines, rewrite line = [line])
    (body : Text)
    (hmem : directive ∈ (runLines (mode.kept body)
      (((sanitizeLines mode lines).1.flatMap rewrite).map utf8)).handed) :
    admitted directive.acting = true ∨ Own own directive := by
  induction lines generalizing mode body with
  | nil => cases mode <;> cases hmem
  | cons line rest ih =>
    cases mode with
    | skipping tag =>
      have hsanitized := sanitizeLine_skipping line tag
      by_cases hclose : isCloseTag line tag = true
      · rw [if_pos hclose] at hsanitized
        rw [sanitizeLines_cons hsanitized] at hmem
        rw [blockLines, hsanitized] at hblocks
        rw [outerLines, hsanitized] at hstep
        exact ih hstep tagged_directives hblocks body hmem
      · rw [if_neg hclose] at hsanitized
        rw [sanitizeLines_cons hsanitized] at hmem
        rw [blockLines, hsanitized] at hblocks
        rw [outerLines, hsanitized] at hstep
        exact ih hstep htagged hblocks body hmem
    | copying tag =>
      have hsanitized := sanitizeLine_copying line tag
      have hsame : rewrite line = [line] := by
        refine hblocks line ?_
        rw [blockLines, hsanitized]
        exact List.mem_cons_self
      by_cases hclose : isCloseTag line tag = true
      · rw [if_pos hclose] at hsanitized
        rw [sanitizeLines_cons hsanitized, if_pos rfl, List.flatMap_cons, hsame,
          List.singleton_append, List.map_cons, Mode.kept, runLines,
          closes_eq_isCloseTag htagged.1, if_pos hclose] at hmem
        rw [blockLines, hsanitized] at hblocks
        rw [outerLines, hsanitized] at hstep
        rcases List.mem_cons.mp hmem with rfl | hmem
        · exact Or.inl (admitted_block htagged.2 body)
        · exact ih hstep tagged_directives (fun other hother ↦
            hblocks other (List.mem_cons_of_mem _ hother)) body hmem
      · rw [if_neg hclose] at hsanitized
        rw [sanitizeLines_cons hsanitized, if_pos rfl, List.flatMap_cons, hsame,
          List.singleton_append, List.map_cons, Mode.kept, runLines,
          closes_eq_isCloseTag htagged.1, if_neg hclose] at hmem
        rw [blockLines, hsanitized] at hblocks
        rw [outerLines, hsanitized] at hstep
        exact ih hstep htagged (fun other hother ↦
          hblocks other (List.mem_cons_of_mem _ hother)) _ hmem
    | directives =>
      have hsanitized := sanitized line
      rw [outerLines, if_pos rfl, List.forall_mem_cons] at hstep
      obtain ⟨hline, hrest⟩ := hstep
      have hseen := seen_readLine hline
      have hplain := hline.plain
      generalize hresult : sanitizeLine line .directives = result at hsanitized
      generalize hread : readLine (utf8 line ++ ['\n']) = reading at hseen hplain
      rw [blockLines, hresult] at hblocks
      rw [hresult] at hrest
      cases hsanitized with
      | skips token hfirst tag htag hdenied =>
        rw [sanitizeLines_cons hresult] at hmem
        exact ih hrest (tagged_skipping htag hdenied) hblocks body hmem
      | drops token hfirst htag hrefuses =>
        rw [sanitizeLines_cons hresult] at hmem
        exact ih hrest tagged_directives hblocks body hmem
      | copies token hfirst tag htag hdenied =>
        have hsame : rewrite line = [line] := hblocks line List.mem_cons_self
        rw [sanitizeLines_cons hresult, if_pos rfl, List.flatMap_cons, hsame,
          List.singleton_append, List.map_cons, Mode.kept, runLines, hread] at hmem
        cases hseen with
        | refused => cases hmem
        | blank _ hnone => cases hnone.symm.trans htag
        | directive _ _ hnone => cases hnone.symm.trans htag
        | opens _ _ name hname =>
          obtain rfl := Option.some.inj (hname.symm.trans htag)
          exact ih hrest (tagged_copying htag hdenied) (fun other hother ↦
            hblocks other (List.mem_cons_of_mem _ hother)) [] hmem
      | blank hfirst =>
        rw [sanitizeLines_cons hresult, if_pos rfl, List.flatMap_cons, List.map_append] at hmem
        rcases hadds line with hnil | ⟨more, hmore, hown⟩
        · rw [hnil] at hmem
          exact ih hrest tagged_directives hblocks body hmem
        · rw [hmore, List.map_cons, List.cons_append, Mode.kept, runLines, hread] at hmem
          cases hseen with
          | refused => cases hmem
          | blank =>
            rcases own_or_mem_runLines hblockless hown hmem with hmine | hmem
            · exact Or.inr hmine
            · exact ih hrest tagged_directives hblocks body hmem
          | directive token htoken => cases hfirst.symm.trans htoken
          | opens token htoken => cases hfirst.symm.trans htoken
      | keeps token hfirst htag hrefuses =>
        rw [sanitizeLines_cons hresult, if_pos rfl, List.flatMap_cons, List.map_append] at hmem
        rcases hadds line with hnil | ⟨more, hmore, hown⟩
        · rw [hnil] at hmem
          exact ih hrest tagged_directives hblocks body hmem
        · rw [hmore, List.map_cons, List.cons_append, Mode.kept, runLines, hread] at hmem
          cases hseen with
          | refused => cases hmem
          | blank =>
            rcases own_or_mem_runLines hblockless hown hmem with hmine | hmem
            · exact Or.inr hmine
            · exact ih hrest tagged_directives hblocks body hmem
          | opens _ _ name hname => cases hname.symm.trans htag
          | directive found hfound _ parameters hargument _ =>
            obtain rfl := Option.some.inj (hfound.symm.trans hfirst)
            rcases List.mem_cons.mp hmem with rfl | hmem
            · have hacting : Directive.acting _ = _ := of_decide_eq_true hplain
              rw [hacting]
              exact Or.inl (admitted_of_not_refuses hrefuses hargument)
            · rcases own_or_mem_runLines hblockless hown hmem with hmine | hmem
              · exact Or.inr hmine
              · exact ih hrest tagged_directives hblocks body hmem

/-! ### What is reported -/

/-- How a directive is reported. -/
def report (directive : Directive) : Text :=
  if directive.isInline then '<' :: directive.name ++ ['>'] else directive.name

/-- What was reported of the block that is being left out. -/
def Mode.pending : Mode → List Text
  | .skipping tag => ['<' :: tag ++ ['>']]
  | _ => []

/-- What the engine makes of all lines. -/
def wholeRun (mode : Mode) (body : Text) (lines : List Text) : Outcome :=
  runLines (mode.whole body) (lines.map utf8)

/-- What it makes of the lines that are kept. -/
def keptRun (mode : Mode) (body : Text) (lines : List Text) : Outcome :=
  runLines (mode.kept body) ((sanitizeLines mode lines).1.map utf8)

/-- What is reported of the lines, and was of the block they start in. -/
def reports (mode : Mode) (lines : List Text) : List Text :=
  mode.pending ++ (sanitizeLines mode lines).2.map utf8

/-- The engine makes of the lines that are kept what it makes of all of them, the directives apart
that are not admitted; and those are reported. -/
structure Filtered (mode : Mode) (body : Text) (lines : List Text) : Prop where
  kept : keptRun mode body lines = ⟨(wholeRun mode body lines).handed.filter admitted, true⟩
  dropped : ((wholeRun mode body lines).handed.filter (!admitted ·)).map report = reports mode lines

variable {next : Mode} {text : Text} {lines rest : List Text}

/-- A line that is no directive. -/
theorem Filtered.pass (hrest : Filtered next text rest)
    (hwhole : wholeRun mode body lines = wholeRun next text rest)
    (hkept : keptRun mode body lines = keptRun next text rest)
    (hreports : reports mode lines = reports next rest) : Filtered mode body lines := by
  constructor
  · rw [hkept, hwhole, hrest.kept]
  · rw [hwhole, hreports, hrest.dropped]

/-- A directive that is handed to the engine in both runs. -/
theorem Filtered.hand (hrest : Filtered next text rest) (hadmitted : admitted directive = true)
    (hwhole : wholeRun mode body lines = (wholeRun next text rest).after directive)
    (hkept : keptRun mode body lines = (keptRun next text rest).after directive)
    (hreports : reports mode lines = reports next rest) : Filtered mode body lines := by
  constructor
  · rw [hkept, hwhole, hrest.kept, Outcome.after, Outcome.after,
      List.filter_cons_of_pos hadmitted]
  · rw [hwhole, hreports, ← hrest.dropped, Outcome.after,
      List.filter_cons_of_neg (by simp [hadmitted])]

/-- A directive that is left out. -/
theorem Filtered.leave (hrest : Filtered next text rest) (hadmitted : admitted directive = false)
    (hwhole : wholeRun mode body lines = (wholeRun next text rest).after directive)
    (hkept : keptRun mode body lines = keptRun next text rest)
    (hreports : reports mode lines = report directive :: reports next rest) :
    Filtered mode body lines := by
  constructor
  · rw [hkept, hwhole, hrest.kept, Outcome.after, List.filter_cons_of_neg (by simp [hadmitted])]
  · rw [hwhole, hreports, ← hrest.dropped, Outcome.after,
      List.filter_cons_of_pos (by simp [hadmitted]), List.map_cons]

theorem mem_of_mem_lines {raw line : Text} (hmem : line ∈ ServerConfigSanitizer.lines raw) :
    '\n' ∉ line ∧ ∀ c ∈ line, c ∈ raw := by
  induction raw using ServerConfigSanitizer.lines.induct generalizing line with
  | case1 =>
    rw [ServerConfigSanitizer.lines, List.mem_singleton] at hmem
    subst hmem
    exact ⟨List.not_mem_nil, fun c hc ↦ absurd hc List.not_mem_nil⟩
  | case2 rest ih =>
    rw [ServerConfigSanitizer.lines, List.mem_cons] at hmem
    rcases hmem with rfl | hmem
    · exact ⟨List.not_mem_nil, fun c hc ↦ absurd hc List.not_mem_nil⟩
    · obtain ⟨hbreak, hall⟩ := ih hmem
      exact ⟨hbreak, fun c hc ↦ List.mem_cons_of_mem _ (List.mem_cons_of_mem _ (hall c hc))⟩
  | case3 rest hpair ih =>
    rw [ServerConfigSanitizer.lines, if_pos rfl, List.mem_cons] at hmem
    · rcases hmem with rfl | hmem
      · exact ⟨List.not_mem_nil, fun c hc ↦ absurd hc List.not_mem_nil⟩
      · obtain ⟨hbreak, hall⟩ := ih hmem
        exact ⟨hbreak, fun c hc ↦ List.mem_cons_of_mem _ (hall c hc)⟩
    · exact hpair
  | case4 c rest hpair hbreak ih =>
    rw [ServerConfigSanitizer.lines, if_neg hbreak] at hmem
    · cases hlines : ServerConfigSanitizer.lines rest with
      | nil =>
        rw [hlines] at hmem
        cases hmem
      | cons first others =>
        rw [hlines, List.modifyHead_cons, List.mem_cons] at hmem
        rcases hmem with rfl | hmem
        · obtain ⟨hfree, hall⟩ := ih (hlines ▸ List.mem_cons_self)
          refine ⟨?_, ?_⟩
          · rw [List.mem_cons, not_or]
            exact ⟨Ne.symm hbreak, hfree⟩
          · intro d hd
            rcases List.mem_cons.mp hd with rfl | hd
            · exact List.mem_cons_self
            · exact List.mem_cons_of_mem _ (hall d hd)
        · obtain ⟨hfree, hall⟩ := ih (hlines ▸ List.mem_cons_of_mem _ hmem)
          exact ⟨hfree, fun d hd ↦ List.mem_cons_of_mem _ (hall d hd)⟩
    · exact hpair

theorem utf8_unixLines (lines : List Text) : utf8 (unixLines lines) = unixLines (lines.map utf8) := by
  induction lines with
  | nil => rfl
  | cons line rest ih =>
    rw [unixLines_cons, utf8_append, utf8_append, ih]
    rfl

theorem mem_of_mem_sanitizeLines (hmem : line ∈ (sanitizeLines mode lines).1) : line ∈ lines := by
  induction lines generalizing mode with
  | nil => cases hmem
  | cons first rest ih =>
    rw [sanitizeLines_cons rfl] at hmem
    split_ifs at hmem
    · rcases List.mem_cons.mp hmem with rfl | hmem
      · exact List.mem_cons_self
      · exact List.mem_cons_of_mem _ (ih hmem)
    · exact List.mem_cons_of_mem _ (ih hmem)

theorem Legible.fits_utf8 {raw : Text} (hlegible : Legible (ServerConfigSanitizer.lines raw))
    (hmem : line ∈ ServerConfigSanitizer.lines raw) : Fits (utf8 line) where
  unbroken := by
    rw [mem_utf8 (by decide)]
    exact (mem_of_mem_lines hmem).1
  short := hlegible.fits line hmem

/-- What is left of the config, as the engine reads it. -/
def sanitizedFile (raw : Text) : Text := utf8 (sanitize raw).config

/-- `setenv opt` and a blank. -/
def setenvOpt : Text := "setenv opt ".toList

theorem cString_append_of_not_mem {before : Text} (hnul : nul ∉ before) (after : Text) :
    cString (before ++ after) = before ++ cString after :=
  List.takeWhile_append_of_pos fun _ hmem ↦ bne_iff_ne.mpr fun heq ↦ hnul (heq ▸ hmem)

/-- The engine reads `setenv opt` and then the parameters of the line after it. -/
theorem parseLine_setenvOpt {bytes : Text} {p : List Text} (hparse : parseLine bytes = some p)
    (hroom : p.length + 2 ≤ maxParms) :
    parseLine (setenvOpt ++ bytes) = some ("setenv".toList :: "opt".toList :: p) := by
  have hbefore : parseLine (setenvOpt ++ bytes) =
      parseLoop maxParms (cString bytes ++ [nul]) .initial false []
        ["setenv".toList, "opt".toList] := by
    rw [parseLine, cString_append_of_not_mem (by decide), List.append_assoc]
    rfl
  rw [hbefore]
  exact parseLoop_after (by rw [List.length_cons, List.length_singleton]; omega) hparse
    (Nat.zero_le _)

theorem lines_of_unbroken (hbreak : '\n' ∉ line) : ServerConfigSanitizer.lines line = [line] := by
  induction line using ServerConfigSanitizer.lines.induct with
  | case1 => rfl
  | case2 rest => exact absurd (by simp) hbreak
  | case3 rest => exact absurd (List.mem_cons_self) hbreak
  | case4 c rest hpair hne ih =>
    rw [ServerConfigSanitizer.lines, if_neg hne,
      ih fun hmem ↦ hbreak (List.mem_cons_of_mem _ hmem)]
    · rfl
    · exact hpair

theorem trim_setenvOpt (line : Text) : (trim (setenvOpt ++ line)).head? = some 's' := by
  have hdrop : (setenvOpt ++ line).dropWhile (· ≤ ' ') = setenvOpt ++ line := rfl
  have hhead : ∀ text : Text, ((setenvOpt ++ text).rdropWhile (· ≤ ' ')).head? = some 's' := by
    intro text
    induction text using List.reverseRecOn with
    | nil => rfl
    | append_singleton before c ih =>
      rw [← List.append_assoc, List.rdropWhile_concat]
      split_ifs
      · exact ih
      · rfl
  rw [trim, hdrop, hhead]

/-- Behind `setenv opt` every directive passes: the line is kept as it is, nothing is reported, and
the directive is what the engine carries out. -/
theorem setenvOpt_passes (line : Text) (name : Text) (parameters : List Text)
    (hbreak : '\n' ∉ line) (hshort : (setenvOpt ++ utf8 line).length + 1 < optionLineSize)
    (hparse : parseLine (utf8 line ++ ['\n']) = some (name :: parameters))
    (hroom : parameters.length + 3 ≤ maxParms) :
    sanitize (setenvOpt ++ line) = ⟨setenvOpt ++ line ++ ['\n'], []⟩ ∧
      (readRest (sanitizedFile (setenvOpt ++ line))).handed.map Directive.acting =
        [⟨name, parameters, false⟩] := by
  have hunbroken : '\n' ∉ setenvOpt ++ line := by
    rw [List.mem_append, not_or]
    exact ⟨by decide, hbreak⟩
  have hfirst : firstToken (setenvOpt ++ line) = some "setenv".toList := rfl
  have htag : inlineTag (setenvOpt ++ line) = none := by
    rw [inlineTag, if_pos]
    refine Or.inr (Or.inl ?_)
    rw [trim_setenvOpt]
    decide
  have hrefuses : refuses (bypassDoubledash "setenv".toList) (setenvOpt ++ line) = false := by
    have hnames : denied.contains (bypassDoubledash "setenv".toList) = false ∧
        deniedAsPath.contains (bypassDoubledash "setenv".toList) = false ∧
        deniedWithArgument.contains (bypassDoubledash "setenv".toList) = false := by decide +kernel
    rw [refuses, hnames.1, hnames.2.1, hnames.2.2]
    rfl
  have hsanitize : sanitizeLines .directives (ServerConfigSanitizer.lines (setenvOpt ++ line)) =
      ([setenvOpt ++ line], []) := by
    have hline : sanitizeLine (setenvOpt ++ line) .directives = (.directives, true, none) := by
      rw [sanitizeLine, hfirst]
      simp only [htag, hrefuses, Bool.false_eq_true, if_false]
    rw [lines_of_unbroken hunbroken, sanitizeLines_cons hline]
    rfl
  have hconfig : sanitize (setenvOpt ++ line) = ⟨setenvOpt ++ line ++ ['\n'], []⟩ := by
    rw [sanitize, hsanitize]
    simp [unixLines]
  refine ⟨hconfig, ?_⟩
  have hbytes : sanitizedFile (setenvOpt ++ line) = unixLines [setenvOpt ++ utf8 line] := by
    have hword : utf8 setenvOpt = setenvOpt := utf8_of_isAscii (List.all_eq_true.mp (by decide))
    rw [sanitizedFile, hconfig, utf8_append, utf8_append, hword]
    simp [unixLines, charBytes_of_isAscii (show isAscii '\n' = true from rfl)]
  have hfits : ∀ bytes ∈ [setenvOpt ++ utf8 line], Fits bytes := by
    intro bytes hmem
    rw [List.mem_singleton.mp hmem]
    refine ⟨?_, hshort⟩
    rw [List.mem_append, not_or, mem_utf8 (by decide)]
    exact ⟨by decide, hbreak⟩
  have hread : readLine ((setenvOpt ++ utf8 line) ++ ['\n']) =
      .directive ⟨"setenv".toList, "opt".toList :: name :: parameters, false⟩ := by
    rw [readLine, List.append_assoc, parseLine_setenvOpt hparse (by rw [List.length_cons]; omega)]
    rfl
  rw [hbytes, readRest_unixLines hfits, runLines, hread]
  rfl

theorem setenvOpt_passes_command :
    sanitize (setenvOpt ++ "up sh".toList) = ⟨setenvOpt ++ "up sh".toList ++ ['\n'], []⟩ ∧
      (readRest (sanitizedFile (setenvOpt ++ "up sh".toList))).handed.map Directive.acting =
        [⟨"up".toList, ["sh".toList], false⟩] :=
  setenvOpt_passes _ _ _ (by decide) (by decide) (by decide) (by decide)

end WindscribeVpn.Openvpn.ServerConfigSanitizer
