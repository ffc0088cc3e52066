import WindscribeVpn.Backend.ProfileCreation
import WindscribeVpn.Foundations.Splitting
import WindscribeVpn.Foundations.Texts

/-!
# Inspecting a custom OpenVPN config

Before a custom OpenVPN config is connected to, its host, its port and its protocol are looked up in
its text (`getHostNameFromOpenVPNConfig`, `getProtocolInformationFromOpenVPNConfig`). Both functions
look for the words `remote` and `proto` anywhere in a line and cut the line at single blanks.

The engine reads options (`parseLine`): blanks of any kind between parameters, quotes, backslashes
and comments. `InspectionSound` is the promise for a config, that what is looked up is what its
options say, in whatever order the lines of the remotes and of the protocol stand. It is broken by
comments, tabs, other options with the words in them, a protocol after or on the line of the remote,
and a line with the word `proto` and no blank, on which the look-up throws
(`not_inspectionSound_proto`). `inspectionSound_iff` gives the configs that keep it.
-/

set_option autoImplicit false
set_option relaxedAutoImplicit false

namespace WindscribeVpn.Backend.OpenVPNInspection

open Foundations.Texts Foundations.Splitting
open VPNProfileCreator (Failure contains namesRemote readConfigLine readConfigLines
  getProtocolInformationFromOpenVPNConfig)
open ProfileCreation (ProtocolReadable succeeds_readConfigLines)

/-! ### Options -/

/-- What `parse_line` is reading. -/
inductive ParseState
  | initial
  | quoted
  | unquoted
  | squoted
  deriving DecidableEq

/-- A quotation mark. -/
def quotation : Char := Char.ofNat 34

/-- An apostrophe. -/
def apostrophe : Char := Char.ofNat 39

/-- A backslash. -/
def backslashChar : Char := Char.ofNat 92

/-- The characters that separate parameters. -/
def isSpace (c : Char) : Bool := c == ' ' || decide (9 ≤ c.toNat ∧ c.toNat ≤ 13)

/-- What may follow a backslash. -/
def mayFollow (c : Char) : Bool := c == backslashChar || c == quotation || isSpace c

/-- The parameters of a line, as `parse_line` reads them; `none` when it refuses the line. -/
def parseLine (state : ParseState) (backslash : Bool) (parm : Text) : Text → Option (List Text)
  | [] =>
    match state with
    | .initial => some []
    | .unquoted => if backslash then none else some [parm]
    | _ => none
  | c :: rest =>
    if !backslash && c == backslashChar && state != .squoted then parseLine state true parm rest
    else
      let keep (state : ParseState) :=
        if backslash && !mayFollow c then none else parseLine state false (parm ++ [c]) rest
      let done := (parseLine .initial false [] rest).map (parm :: ·)
      match state with
      | .initial =>
        if isSpace c then parseLine .initial false [] rest
        else if c == ';' || c == '#' then some []
        else if !backslash && c == quotation then parseLine .quoted false [] rest
        else if !backslash && c == apostrophe then parseLine .squoted false [] rest
        else keep .unquoted
      | .unquoted => if !backslash && isSpace c then done else keep .unquoted
      | .quoted => if !backslash && c == quotation then done else keep .quoted
      | .squoted => if c == apostrophe then done else keep .squoted

/-- The name without two dashes in front. -/
def bypassDoubledash : Text → Text
  | '-' :: '-' :: c :: rest => c :: rest
  | name => name

/-- The option of a line, by its name and its parameters; none when there is no option. -/
def option (line : Text) : List Text :=
  match parseLine .initial false [] line with
  | some (name :: parameters) => bypassDoubledash name :: parameters
  | _ => []

example : option "  --remote\t\"a b\" 443 # home".toList =
    ["remote".toList, "a b".toList, "443".toList] := by decide

/-- A byte order mark. -/
def byteOrderMark : Char := Char.ofNat 0xFEFF

/-- The lines of a config, without a byte order mark. -/
def optionLines (content : String) : List Text :=
  match (content.splitOn "\n").map String.toList with
  | [] => []
  | first :: rest => (if first.head? = some byteOrderMark then first.tail else first) :: rest

/-- A `remote` option that names a host and a port. -/
structure Remote where
  host : String
  port : String
  proto : Option Text

/-- The remote of an option. -/
def remoteOf : List Text → Option Remote
  | name :: host :: port :: rest =>
    if name = "remote".toList then some ⟨String.ofList host, String.ofList port, rest.head?⟩
    else none
  | _ => none

/-- The protocol of a `proto` option. -/
def protoOf : List Text → Option Text
  | name :: proto :: _ => if name = "proto".toList then some proto else none
  | _ => none

/-- The first remote that has a host and a port. -/
def remoteOption (content : String) : Option Remote :=
  (optionLines content).findSome? fun line ↦ remoteOf (option line)

/-- The `proto` option, the last one when there are several. -/
def protoOption (content : String) : Option Text :=
  (optionLines content).reverse.findSome? fun line ↦ protoOf (option line)

/-- The protocol that the remote is dialled with. -/
def effectiveProto (content : String) : Option Text :=
  ((remoteOption content).bind Remote.proto).or (protoOption content)

/-- The names of TCP in `proto_names`. -/
def tcpNames : List Text :=
  ["tcp-server".toList, "tcp-client".toList, "tcp".toList, "tcp4-server".toList,
    "tcp4-client".toList, "tcp4".toList, "tcp6-server".toList, "tcp6-client".toList, "tcp6".toList]

/-- The remote is dialled over TCP. -/
def dialsTcp (content : String) : Bool := (effectiveProto content).any tcpNames.contains

/-! ### Looking a host up -/

/-- `getHostNameFromOpenVPNConfig`. -/
def getHostNameFromOpenVPNConfig (content : String) : Option String :=
  (content.splitOn "\n").findSome? fun serverConfigLine ↦
    let splits := serverConfigLine.splitOn " "
    if contains serverConfigLine "remote" && decide (splits.length > 2) then some (splits.getD 1 "")
    else none

/-! ### The promise -/

/-- A line whose option has a name. -/
def isNamed (name : String) (line : Text) : Bool := (option line).head? == some name.toList

/-- The lines of the remotes and of the protocol have changed places with one another, each kind in
its own order. -/
structure Reordered (content other : String) : Prop where
  others : (optionLines content).map (fun line ↦
      if isNamed "remote" line || isNamed "proto" line then none else some line) =
    (optionLines other).map fun line ↦
      if isNamed "remote" line || isNamed "proto" line then none else some line
  remotes : (optionLines content).filter (isNamed "remote") =
    (optionLines other).filter (isNamed "remote")
  protos : (optionLines content).filter (isNamed "proto") =
    (optionLines other).filter (isNamed "proto")

/-- What is looked up is what the options say. -/
structure InspectionSound (content : String) : Prop where
  returns : ∃ information, getProtocolInformationFromOpenVPNConfig content = .ok information
  host : getHostNameFromOpenVPNConfig content = (remoteOption content).map Remote.host
  port : ∀ information, getProtocolInformationFromOpenVPNConfig content = .ok information →
    ∀ remote, remoteOption content = some remote → information.port = remote.port
  protocol : ∀ information, getProtocolInformationFromOpenVPNConfig content = .ok information →
    (information.protocol = .tcp ↔ dialsTcp content = true)
  order : ∀ other, Reordered content other →
    getHostNameFromOpenVPNConfig other = getHostNameFromOpenVPNConfig content ∧
      getProtocolInformationFromOpenVPNConfig other =
        getProtocolInformationFromOpenVPNConfig content

/-- The first line with the word `remote` and two blanks has the host and the port of the remote
after its first and its second blank, and there is such a line only if there is a remote. -/
def RemotePlain (content : String) : Prop :=
  match (content.splitOn "\n").find? namesRemote, remoteOption content with
  | none, none => True
  | some line, some remote =>
    ∃ first rest, line.splitOn " " = first :: remote.host :: remote.port :: rest
  | _, _ => False

/-- A line with the word `proto` and with `tcp` after its first blank. -/
def namesTcp (line : String) : Bool :=
  contains line "proto" && contains ((line.splitOn " ").getD 1 "") "tcp"

/-- The lines are what they look like. -/
structure Plain (content : String) : Prop where
  readable : ProtocolReadable content
  remote : RemotePlain content
  /-- TCP is named before the remote exactly when it is dialled. -/
  proto : (((content.splitOn "\n").takeWhile fun line ↦ !namesRemote line).any namesTcp) =
    dialsTcp content

variable {content other : String}

/-! ### The loops -/

theorem getHostName_eq (content : String) :
    getHostNameFromOpenVPNConfig content =
      ((content.splitOn "\n").find? namesRemote).map fun line ↦ (line.splitOn " ").getD 1 "" := by
  unfold getHostNameFromOpenVPNConfig
  induction content.splitOn "\n" with
  | nil => rfl
  | cons line lines ih =>
    rw [List.findSome?_cons, List.find?_cons]
    cases hnamed : namesRemote line with
    | true =>
      rw [namesRemote] at hnamed
      simp only [hnamed, if_true, Option.map_some]
    | false =>
      rw [namesRemote] at hnamed
      simp only [hnamed, Bool.false_eq_true, if_false]
      exact ih

/-- One turn on a line that does not look like a remote. -/
theorem readConfigLine_eq {line : String} {information : VPNProfileCreator.ProtocolInformation}
    (hnamed : namesRemote line = false)
    (hreadable : contains line "proto" = true → 1 < (line.splitOn " ").length) :
    readConfigLine line information = .ok
      ({ information with protocol := if namesTcp line then .tcp else information.protocol },
        false) := by
  unfold readConfigLine namesTcp
  rw [hnamed]
  cases hproto : contains line "proto" with
  | false => rfl
  | true =>
    have hparts := hreadable hproto
    rcases hsplits : line.splitOn " " with _ | ⟨first, _ | ⟨protocol, rest⟩⟩
    · rw [hsplits] at hparts
      exact absurd hparts (Nat.not_lt_zero _)
    · rw [hsplits] at hparts
      exact absurd hparts (lt_irrefl 1)
    · cases htcp : contains protocol "tcp" with
      | false => simp [htcp]
      | true => simp [htcp]

/-- What the loop has seen when it does not throw: TCP on a line before the one with the remote, and
the port on that line. -/
theorem readConfigLines_eq {lines : List String}
    {information : VPNProfileCreator.ProtocolInformation}
    (hreadable : ∀ line ∈ lines.takeWhile fun line ↦ !namesRemote line,
      contains line "proto" = true → 1 < (line.splitOn " ").length) :
    readConfigLines lines information = .ok
      { protocol :=
          if (lines.takeWhile fun line ↦ !namesRemote line).any namesTcp then .tcp
          else information.protocol
        port := ((lines.find? namesRemote).map fun line ↦ (line.splitOn " ").getD 2 "").getD
          information.port } := by
  induction lines generalizing information with
  | nil => rfl
  | cons line lines ih =>
    cases hnamed : namesRemote line with
    | true => simp [readConfigLines, readConfigLine, hnamed]
    | false =>
      have htake : (line :: lines).takeWhile (fun line ↦ !namesRemote line) =
          line :: lines.takeWhile fun line ↦ !namesRemote line :=
        List.takeWhile_cons_of_pos (by rw [hnamed]; rfl)
      rw [htake, List.forall_mem_cons] at hreadable
      rw [readConfigLines, readConfigLine_eq hnamed hreadable.1, htake, List.any_cons,
        List.find?_cons_of_neg (by rw [hnamed]; decide)]
      dsimp only
      rw [ih hreadable.2]
      cases htcp : namesTcp line with
      | false => rfl
      | true => simp

/-! ### Plain configs -/

/-- What is looked up in a plain config. -/
theorem lookup_of_plain (hplain : Plain content) :
    getHostNameFromOpenVPNConfig content = (remoteOption content).map Remote.host ∧
      getProtocolInformationFromOpenVPNConfig content = .ok
        { protocol := if dialsTcp content then .tcp else .udp
          port := ((remoteOption content).map Remote.port).getD "443" } := by
  have hremote := hplain.remote
  rw [getHostName_eq, getProtocolInformationFromOpenVPNConfig,
    readConfigLines_eq hplain.readable, hplain.proto]
  unfold RemotePlain at hremote
  split at hremote
  · rename_i hline hoption
    rw [hline, hoption]
    exact ⟨rfl, rfl⟩
  · rename_i line remote hline hoption
    obtain ⟨first, rest, hparts⟩ := hremote
    rw [hline, hoption, Option.map_some, Option.map_some, Option.map_some, Option.map_some, hparts]
    exact ⟨rfl, rfl⟩
  · exact hremote.elim

/-- A line that looks like a remote has a part after its second blank. -/
theorem parts_of_namesRemote {line : String} (hnamed : namesRemote line = true) :
    ∃ first host port rest, line.splitOn " " = first :: host :: port :: rest := by
  rw [namesRemote, Bool.and_eq_true, decide_eq_true_eq] at hnamed
  rcases hsplits : line.splitOn " " with _ | ⟨first, _ | ⟨host, _ | ⟨port, rest⟩⟩⟩
  · rw [hsplits] at hnamed
    exact absurd hnamed.2 (Nat.not_lt_zero _)
  · rw [hsplits] at hnamed
    exact absurd hnamed.2 (Nat.not_lt.mpr one_le_two)
  · rw [hsplits] at hnamed
    exact absurd hnamed.2 (lt_irrefl 2)
  · exact ⟨first, host, port, rest, rfl⟩

theorem protocol_eq_tcp (seen : Bool) :
    (if seen then VpnBackendHolder.Protocol.tcp else .udp) = .tcp ↔ seen = true := by
  cases seen with
  | false => decide
  | true => decide

/-- A config in which the right host, port and protocol are looked up is plain. -/
theorem plain_of_lookup {information : VPNProfileCreator.ProtocolInformation}
    (hhost : getHostNameFromOpenVPNConfig content = (remoteOption content).map Remote.host)
    (hinformation : getProtocolInformationFromOpenVPNConfig content = .ok information)
    (hport : ∀ remote, remoteOption content = some remote → information.port = remote.port)
    (hprotocol : information.protocol = .tcp ↔ dialsTcp content = true) : Plain content := by
  have hreadable : ProtocolReadable content :=
    (succeeds_readConfigLines _ _).mp ⟨information, hinformation⟩
  rw [getProtocolInformationFromOpenVPNConfig, readConfigLines_eq hreadable] at hinformation
  cases hinformation
  refine ⟨hreadable, ?_, ?_⟩
  · rw [getHostName_eq] at hhost
    unfold RemotePlain
    cases hline : (content.splitOn "\n").find? namesRemote with
    | none =>
      cases hoption : remoteOption content with
      | none => trivial
      | some remote =>
        rw [hline, hoption] at hhost
        cases hhost
    | some line =>
      obtain ⟨first, host, port, rest, hparts⟩ := parts_of_namesRemote (List.find?_some hline)
      cases hoption : remoteOption content with
      | none =>
        rw [hline, hoption] at hhost
        cases hhost
      | some remote =>
        have hnamed := hport remote hoption
        rw [hline, hoption, Option.map_some, Option.map_some, hparts] at hhost
        rw [hline, Option.map_some, hparts] at hnamed
        cases hhost
        cases hnamed
        exact ⟨first, rest, hparts⟩
  · exact Bool.eq_iff_iff.mpr ((protocol_eq_tcp _).symm.trans hprotocol)

/-! ### Orders of the lines -/

theorem Reordered.refl (content : String) : Reordered content content := ⟨rfl, rfl, rfl⟩

/-- A search that finds nothing in what a filter drops. -/
theorem findSome?_filter {α β : Type} {p : α → Bool} {f : α → Option β} (l : List α)
    (hnone : ∀ a, p a = false → f a = none) : (l.filter p).findSome? f = l.findSome? f := by
  induction l with
  | nil => rfl
  | cons a rest ih =>
    cases hkept : p a with
    | true => rw [List.filter_cons_of_pos hkept, List.findSome?_cons, List.findSome?_cons, ih]
    | false =>
      rw [List.filter_cons_of_neg (by rw [hkept]; decide), ih, List.findSome?_cons,
        hnone a hkept]

theorem remoteOf_eq_none {line : Text} (hname : isNamed "remote" line = false) :
    remoteOf (option line) = none := by
  unfold isNamed at hname
  rcases hoption : option line with _ | ⟨name, _ | ⟨host, _ | ⟨port, rest⟩⟩⟩
  · rfl
  · rfl
  · rfl
  · rw [hoption, List.head?_cons] at hname
    refine if_neg fun heq ↦ ?_
    rw [heq] at hname
    exact absurd hname (by decide)

theorem protoOf_eq_none {line : Text} (hname : isNamed "proto" line = false) :
    protoOf (option line) = none := by
  unfold isNamed at hname
  rcases hoption : option line with _ | ⟨name, _ | ⟨proto, rest⟩⟩
  · rfl
  · rfl
  · rw [hoption, List.head?_cons] at hname
    refine if_neg fun heq ↦ ?_
    rw [heq] at hname
    exact absurd hname (by decide)

theorem Reordered.remoteOption_eq (hreordered : Reordered content other) :
    remoteOption other = remoteOption content := by
  unfold remoteOption
  rw [← findSome?_filter (optionLines other) fun _ ↦ remoteOf_eq_none, ← hreordered.remotes,
    findSome?_filter (optionLines content) fun _ ↦ remoteOf_eq_none]

theorem Reordered.protoOption_eq (hreordered : Reordered content other) :
    protoOption other = protoOption content := by
  unfold protoOption
  rw [← findSome?_filter (optionLines other).reverse fun _ ↦ protoOf_eq_none, List.filter_reverse,
    ← hreordered.protos, ← List.filter_reverse,
    findSome?_filter (optionLines content).reverse fun _ ↦ protoOf_eq_none]

theorem Reordered.dialsTcp_eq (hreordered : Reordered content other) :
    dialsTcp other = dialsTcp content := by
  rw [dialsTcp, effectiveProto, hreordered.remoteOption_eq, hreordered.protoOption_eq]
  rfl

/-! ### When the look-up is sound -/

/-- What is looked up is what the options say exactly when the config is plain in every order of the
lines of its remotes and its protocol. -/
theorem inspectionSound_iff (content : String) :
    InspectionSound content ↔ ∀ other, Reordered content other → Plain other := by
  constructor
  · intro hsound other hreordered
    obtain ⟨information, hinformation⟩ := hsound.returns
    obtain ⟨hhost, hsame⟩ := hsound.order other hreordered
    refine plain_of_lookup (hhost.trans ?_) (hsame.trans hinformation) ?_ ?_
    · rw [hreordered.remoteOption_eq]
      exact hsound.host
    · rw [hreordered.remoteOption_eq]
      exact hsound.port information hinformation
    · rw [hreordered.dialsTcp_eq]
      exact hsound.protocol information hinformation
  · intro hplain
    obtain ⟨hhost, hinformation⟩ := lookup_of_plain (hplain content (Reordered.refl content))
    refine ⟨⟨_, hinformation⟩, hhost, ?_, ?_, ?_⟩
    · intro information hok remote hremote
      rw [hinformation, hremote] at hok
      cases hok
      rfl
    · intro information hok
      rw [hinformation] at hok
      cases hok
      exact protocol_eq_tcp _
    · intro other hreordered
      obtain ⟨hother, hagain⟩ := lookup_of_plain (hplain other hreordered)
      rw [hother, hagain, hhost, hinformation, hreordered.remoteOption_eq,
        hreordered.dialsTcp_eq]
      exact ⟨rfl, rfl⟩

/-- The look-up throws on a line with the word `proto` and nothing else. -/
theorem not_inspectionSound_proto : ¬ ∀ content : String, InspectionSound content := by
  intro hall
  have hlines : "proto".splitOn "\n" = ["proto"] := splitOn_singleton "proto" '\n'
  have hparts : "proto".splitOn " " = ["proto"] := splitOn_singleton "proto" ' '
  have hword : "proto".splitOn "proto" = ["", ""] := splitOn_self (by decide)
  have hnamed : namesRemote "proto" = false := by
    rw [namesRemote, hparts]
    exact Bool.and_false _
  obtain ⟨information, hinformation⟩ := (hall "proto").returns
  have hreadable := (succeeds_readConfigLines _ _).mp ⟨information, hinformation⟩
  rw [hlines] at hreadable
  have hmem : "proto" ∈ ["proto"].takeWhile fun line ↦ !namesRemote line := by
    rw [List.takeWhile_cons_of_pos (by rw [hnamed]; rfl)]
    exact List.mem_cons_self
  have hlong := hreadable "proto" hmem (by rw [contains, hword]; rfl)
  rw [hparts] at hlong
  exact absurd hlong (lt_irrefl 1)

end WindscribeVpn.Backend.OpenVPNInspection
