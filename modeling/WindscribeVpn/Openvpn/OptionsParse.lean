import WindscribeVpn.Backend.OpenVPNInspection
import WindscribeVpn.Foundations.Utf8

/-!
# How the engine reads a config file

`options_parse.c` of the OpenVPN engine. A file is read with `fgets` into a buffer, a line at a
time; `parse_line` takes a line apart, and one parameter in angle brackets opens a block that lasts
until its closing tag (`read_inline_file`, whose buffer is shorter by one byte). What comes out of
the file are the directives that `add_option` is called with, in order, and whether the file was
read to its end: the engine exits at a line that it cannot read, at one that is too long, and at a
block that is not closed.

A file is a list of bytes. `readConfigFile_unixLines` says what the engine makes of a file of lines
that fit into its buffers: the lines one after the other, as `runLines` reads them.
-/

set_option autoImplicit false
set_option relaxedAutoImplicit false

namespace WindscribeVpn.Openvpn.OptionsParse

open Foundations.Texts Foundations.Utf8
open Backend.OpenVPNInspection (ParseState quotation apostrophe backslashChar isSpace mayFollow
  bypassDoubledash)

/-! ### Lines -/

/-- The character that ends a string in C. -/
def nul : Char := Char.ofNat 0

/-- What a function of C sees of a line: the bytes before the first zero. -/
def cString (line : Text) : Text := line.takeWhile (· != nul)

theorem cString_nul (rest : Text) : cString (nul :: rest) = [] := rfl

theorem cString_cons {c : Char} (hc : c ≠ nul) (rest : Text) :
    cString (c :: rest) = c :: cString rest :=
  List.takeWhile_cons_of_pos (bne_iff_ne.mpr hc)

theorem cString_of_not_mem {text : Text} (hnul : nul ∉ text) : cString text = text :=
  List.takeWhile_eq_self_iff.mpr fun _ hmem ↦ bne_iff_ne.mpr fun heq ↦ hnul (heq ▸ hmem)

/-- A string ends at the first zero, whatever comes after it. -/
theorem exists_cString_append {text : Text} (hnul : nul ∈ text) :
    ∃ after, text = cString text ++ nul :: after ∧
      ∀ more, cString (text ++ more) = cString text := by
  induction text with
  | nil => cases hnul
  | cons c rest ih =>
    by_cases hc : c = nul
    · subst hc
      exact ⟨rest, rfl, fun more ↦ rfl⟩
    · obtain ⟨after, hrest, hmore⟩ := ih ((List.mem_cons.mp hnul).resolve_left (Ne.symm hc))
      refine ⟨after, ?_, fun more ↦ ?_⟩
      · rw [cString_cons hc, List.cons_append, ← hrest]
      · rw [List.cons_append, cString_cons hc, cString_cons hc, hmore]

/-- `space`. -/
def space (c : Char) : Bool := c == nul || isSpace c

/-- What a character does to the parameter that is being read: the line ends in a comment, the
character belongs to no parameter, it belongs to one, or it ends one. -/
inductive Reading
  | comment
  | skipped (state : ParseState)
  | stored (state : ParseState)
  | done
  deriving DecidableEq

/-- The states of `parse_line` and their transitions, for a character that does not start an
escape. -/
def readChar (backslash : Bool) (c : Char) : ParseState → Reading
  | .initial =>
    if space c then .skipped .initial
    else if c == ';' || c == '#' then .comment
    else if !backslash && c == quotation then .skipped .quoted
    else if !backslash && c == apostrophe then .skipped .squoted
    else .stored .unquoted
  | .unquoted => if !backslash && space c then .done else .stored .unquoted
  | .quoted => if !backslash && c == quotation then .done else .stored .quoted
  | .squoted => if c == apostrophe then .done else .stored .squoted

/-- A backslash that escapes the character after it. -/
def startsEscape (backslash : Bool) (c : Char) (state : ParseState) : Bool :=
  !backslash && c == backslashChar && state != .squoted

/-- The parameter with one more character; a zero is not stored. -/
def store (parm : Text) (c : Char) : Text := if c = nul then parm else parm ++ [c]

/-- `OPTION_PARM_SIZE`. -/
def optionParmSize : ℕ := 256

/-- A character that `parse_line` refuses to store: an escape that is none, or one too many. -/
def unstorable (backslash : Bool) (parm : Text) (c : Char) : Bool :=
  c != nul && ((backslash && !mayFollow c) || decide (optionParmSize ≤ parm.length))

/-- The loop of `parse_line`, for at most `n` parameters; `none` when the line is refused. -/
def parseLoop (n : ℕ) : Text → ParseState → Bool → Text → List Text → Option (List Text)
  | [], state, _, _, p => if state = .initial then some p else none
  | c :: rest, state, backslash, parm, p =>
    if startsEscape backslash c state then parseLoop n rest state true parm p
    else
      match readChar backslash c state with
      | .comment => some p
      | .skipped state => parseLoop n rest state false parm p
      | .stored state =>
        if unstorable backslash parm c then none
        else parseLoop n rest state false (store parm c) p
      | .done =>
        if n ≤ p.length + 1 then some (p ++ [parm])
        else parseLoop n rest .initial false [] (p ++ [parm])

/-- `MAX_PARMS`. -/
def maxParms : ℕ := 16

/-- `parse_line`. -/
def parseLine (line : Text) : Option (List Text) :=
  parseLoop maxParms (cString line ++ [nul]) .initial false [] []

/-- `OPTION_LINE_SIZE`. -/
def optionLineSize : ℕ := 256

/-- What `fgets` reads into a buffer with room for `room` bytes, and what it leaves. -/
def fgets : ℕ → Text → Text × Text
  | 0, content => ([], content)
  | _ + 1, [] => ([], [])
  | room + 1, c :: rest =>
    if c = '\n' then ([c], rest)
    else ((fgets room rest).map (c :: ·) id)

/-! ### Blocks -/

/-- The name of the block that a line of parameters opens. -/
def blockName : List Text → Option Text
  | [arg] => if arg.head? = some '<' ∧ arg.getLast? = some '>' then some arg.tail.dropLast else none
  | _ => none

/-- The line that closes a block. -/
def closeTag (name : Text) : Text := '<' :: '/' :: name ++ ['>']

/-- A line starts with a tag, blanks before it apart. -/
def closes (tag line : Text) : Bool := tag.isPrefixOf ((cString line).dropWhile isSpace)

/-- `read_inline_file`: the text of a block and what is left of the file; `none` when the block is
not closed. -/
def readInlineFile (tag : Text) : ℕ → Text → Text → Option (Text × Text)
  | 0, _, _ => none
  | fuel + 1, content, body =>
    if content = [] then none
    else
      let (line, rest) := fgets (optionLineSize - 1) content
      if closes tag line then some (body, rest)
      else readInlineFile tag fuel rest (body ++ cString line)

/-! ### Directives -/

/-- What `add_option` is called with. -/
structure Directive where
  name : Text
  parameters : List Text
  isInline : Bool
  deriving DecidableEq

/-- The directive that `add_option` carries out: what comes after `setenv opt` is one of its own. -/
def Directive.acting (directive : Directive) : Directive :=
  if directive.name = "setenv".toList ∧ directive.parameters.head? = some "opt".toList then
    match directive.parameters.tail with
    | [] => { directive with name := "setenv opt".toList, parameters := [] }
    | name :: parameters => { directive with name := name, parameters := parameters }
  else directive

/-- What a line is to the engine. -/
inductive LineReading
  | refused
  | blank
  | directive (directive : Directive)
  | opens (name : Text)
  deriving DecidableEq

/-- The directive of the line, if there is one, is not hidden behind `setenv opt`. -/
def LineReading.isPlain : LineReading → Bool
  | .directive found => decide (found.acting = found)
  | _ => true

/-- A line of the file, taken apart. -/
def readLine (line : Text) : LineReading :=
  match parseLine line with
  | none => .refused
  | some [] => .blank
  | some (first :: parameters) =>
    let name := bypassDoubledash first
    match blockName (name :: parameters) with
    | some block => .opens block
    | none => .directive ⟨name, parameters, false⟩

/-- The directives of a file, and whether it was read to its end. -/
structure Outcome where
  handed : List Directive
  finished : Bool
  deriving DecidableEq

/-- The outcome with one more directive in front. -/
def Outcome.after (directive : Directive) (outcome : Outcome) : Outcome :=
  { outcome with handed := directive :: outcome.handed }

/-- The byte order mark. -/
def byteOrderMark : Text := [Char.ofNat 0xEF, Char.ofNat 0xBB, Char.ofNat 0xBF]

/-- `read_config_file`, with a turn for each byte at most; a mark in front of the first line is not
read. -/
def readConfigFile : ℕ → Bool → Text → Outcome
  | 0, _, content => ⟨[], content = []⟩
  | fuel + 1, first, content =>
    if content = [] then ⟨[], true⟩
    else
      let (line, rest) := fgets optionLineSize content
      if (cString line).length = optionLineSize then ⟨[], false⟩
      else
        let marked := first && byteOrderMark.isPrefixOf line
        match readLine (if marked then line.drop 3 else line) with
        | .refused => ⟨[], false⟩
        | .blank => readConfigFile fuel false rest
        | .directive directive => (readConfigFile fuel false rest).after directive
        | .opens name =>
          match readInlineFile (closeTag name) rest.length rest [] with
          | none => ⟨[], false⟩
          | some (body, rest) =>
            (readConfigFile fuel false rest).after ⟨name, [body], true⟩

/-- What the engine makes of a file. -/
def readFile (content : Text) : Outcome := readConfigFile content.length true content

/-- What it makes of the part of a file that comes after other lines. -/
def readRest (content : Text) : Outcome := readConfigFile content.length false content

example : readFile "up \"a b\" # x\n<ca>\nMII\n </ca>\n--verb 3\n".toList =
    ⟨[⟨"up".toList, ["a b".toList], false⟩, ⟨"ca".toList, ["MII\n".toList], true⟩,
      ⟨"verb".toList, ["3".toList], false⟩], true⟩ := by decide +kernel

/-! ### A file of lines -/

/-- The lines, each with a line feed after it. -/
def unixLines (lines : List Text) : Text := lines.flatMap (· ++ ['\n'])

/-- A line that every buffer of the engine has room for, its line feed included. -/
structure Fits (line : Text) : Prop where
  unbroken : '\n' ∉ line
  short : line.length + 1 < optionLineSize

instance (line : Text) : Decidable (Fits line) :=
  decidable_of_iff ('\n' ∉ line ∧ line.length + 1 < optionLineSize)
    ⟨fun hall ↦ ⟨hall.1, hall.2⟩, fun hfits ↦ ⟨hfits.unbroken, hfits.short⟩⟩

/-- The directives of lines, read one after the other; a block that is open has a name and the text
that was read of it. -/
def runLines : Option (Text × Text) → List Text → Outcome
  | none, [] => ⟨[], true⟩
  | some _, [] => ⟨[], false⟩
  | none, line :: rest =>
    match readLine (line ++ ['\n']) with
    | .refused => ⟨[], false⟩
    | .blank => runLines none rest
    | .directive directive => (runLines none rest).after directive
    | .opens name => runLines (some (name, [])) rest
  | some (name, body), line :: rest =>
    if closes (closeTag name) (line ++ ['\n']) then (runLines none rest).after ⟨name, [body], true⟩
    else runLines (some (name, body ++ cString (line ++ ['\n']))) rest

variable {line name body : Text} {lines : List Text}

@[simp] theorem unixLines_nil : unixLines [] = [] := rfl

@[simp] theorem unixLines_cons (line : Text) (rest : List Text) :
    unixLines (line :: rest) = (line ++ ['\n']) ++ unixLines rest := rfl

theorem unixLines_append (first second : List Text) :
    unixLines (first ++ second) = unixLines first ++ unixLines second := List.flatMap_append

/-- A line that there is room for is read whole. -/
theorem fgets_line {room : ℕ} (hunbroken : '\n' ∉ line) (hshort : line.length < room)
    (rest : Text) : fgets room ((line ++ ['\n']) ++ rest) = (line ++ ['\n'], rest) := by
  induction line generalizing room with
  | nil =>
    obtain ⟨room, rfl⟩ := Nat.exists_eq_succ_of_ne_zero (Nat.ne_of_gt hshort)
    rfl
  | cons c line ih =>
    obtain ⟨room, rfl⟩ := Nat.exists_eq_succ_of_ne_zero (Nat.ne_of_gt (Nat.zero_lt_of_lt hshort))
    rw [List.mem_cons, not_or] at hunbroken
    have hrest := ih hunbroken.2 (Nat.lt_of_succ_lt_succ hshort)
    rw [List.cons_append, List.cons_append, fgets, if_neg (Ne.symm hunbroken.1), hrest]
    rfl

theorem fgets_fits {room : ℕ} (hfits : Fits line) (hroom : optionLineSize - 1 ≤ room)
    (rest : Text) : fgets room ((line ++ ['\n']) ++ rest) = (line ++ ['\n'], rest) := by
  have hshort := hfits.short
  exact fgets_line hfits.unbroken (by omega) rest

theorem length_cString_lt (hfits : Fits line) :
    (cString (line ++ ['\n'])).length < optionLineSize := by
  have hle := (List.takeWhile_sublist (· != nul) (l := line ++ ['\n'])).length_le
  have hshort := hfits.short
  rw [List.length_append, List.length_singleton] at hle
  exact Nat.lt_of_le_of_lt hle hshort

/-- A block is read line by line: it is not closed, or what comes after its closing tag is left. -/
theorem readInlineFile_unixLines (name : Text) (hfits : ∀ line ∈ lines, Fits line) {fuel : ℕ}
    (hfuel : (unixLines lines).length ≤ fuel) (body : Text) :
    (readInlineFile (closeTag name) fuel (unixLines lines) body = none ∧
        runLines (some (name, body)) lines = ⟨[], false⟩) ∨
      ∃ text rest, rest <:+ lines ∧
        readInlineFile (closeTag name) fuel (unixLines lines) body = some (text, unixLines rest) ∧
          runLines (some (name, body)) lines = (runLines none rest).after ⟨name, [text], true⟩ := by
  induction lines generalizing fuel body with
  | nil =>
    refine Or.inl ⟨?_, rfl⟩
    cases fuel with
    | zero => rfl
    | succ fuel => rfl
  | cons line lines ih =>
    have hline := hfits line (List.mem_cons_self)
    have hrest : ∀ line ∈ lines, Fits line := fun other hmem ↦ hfits other (List.mem_cons_of_mem _ hmem)
    obtain ⟨fuel, rfl⟩ : ∃ turns, fuel = turns + 1 := by
      refine Nat.exists_eq_succ_of_ne_zero fun hzero ↦ ?_
      simp [hzero] at hfuel
    have hfuel : (unixLines lines).length ≤ fuel := by
      simp only [unixLines_cons, List.length_append, List.length_singleton] at hfuel
      omega
    have hne : unixLines (line :: lines) ≠ [] := by simp
    have hread : readInlineFile (closeTag name) (fuel + 1) (unixLines (line :: lines)) body =
        if closes (closeTag name) (line ++ ['\n']) then some (body, unixLines lines)
        else readInlineFile (closeTag name) fuel (unixLines lines)
          (body ++ cString (line ++ ['\n'])) := by
      rw [readInlineFile, if_neg hne, unixLines_cons, fgets_fits hline (Nat.le_refl _)]
    rw [hread, runLines]
    by_cases hcloses : closes (closeTag name) (line ++ ['\n']) = true
    · rw [if_pos hcloses, if_pos hcloses]
      exact Or.inr ⟨body, lines, List.suffix_cons _ _, rfl, rfl⟩
    · rw [if_neg hcloses, if_neg hcloses]
      refine (ih hrest hfuel _).imp id ?_
      rintro ⟨text, rest, hsuffix, hread, hrun⟩
      exact ⟨text, rest, hsuffix.trans (List.suffix_cons _ _), hread, hrun⟩

/-- A file of lines that fit is read line by line. -/
theorem readConfigFile_unixLines (hfits : ∀ line ∈ lines, Fits line) {fuel : ℕ}
    (hfuel : (unixLines lines).length ≤ fuel) :
    readConfigFile fuel false (unixLines lines) = runLines none lines := by
  induction hlength : lines.length using Nat.strongRecOn generalizing lines fuel with
  | _ length ih =>
    cases lines with
    | nil =>
      cases fuel with
      | zero => rfl
      | succ fuel => rfl
    | cons line lines =>
      have hline := hfits line (List.mem_cons_self)
      have hrest : ∀ line ∈ lines, Fits line :=
        fun other hmem ↦ hfits other (List.mem_cons_of_mem _ hmem)
      obtain ⟨fuel, rfl⟩ : ∃ turns, fuel = turns + 1 := by
        refine Nat.exists_eq_succ_of_ne_zero fun hzero ↦ ?_
        simp [hzero] at hfuel
      have hfuel : (unixLines lines).length ≤ fuel := by
        simp only [unixLines_cons, List.length_append, List.length_singleton] at hfuel
        omega
      rw [List.length_cons] at hlength
      have hnext : readConfigFile fuel false (unixLines lines) = runLines none lines :=
        ih lines.length (by omega) hrest hfuel rfl
      rw [readConfigFile, if_neg (by simp), unixLines_cons, fgets_fits hline (by decide), runLines]
      simp only [Bool.false_and, Bool.false_eq_true, if_false]
      rw [if_neg (Nat.ne_of_lt (length_cString_lt hline))]
      cases hread : readLine (line ++ ['\n']) with
      | refused => rfl
      | blank => exact hnext
      | directive directive => exact congrArg (Outcome.after directive) hnext
      | opens name =>
        simp only
        rcases readInlineFile_unixLines name hrest (Nat.le_refl _) [] with
          ⟨hnone, hrun⟩ | ⟨text, rest, hsuffix, hsome, hrun⟩
        · rw [hnone, hrun]
        · have hle := hsuffix.length_le
          have hfits : ∀ line ∈ rest, Fits line := fun other hmem ↦ hrest other (hsuffix.subset hmem)
          have hshort : (unixLines rest).length ≤ fuel := by
            obtain ⟨before, rfl⟩ := hsuffix
            rw [unixLines_append, List.length_append] at hfuel
            omega
          rw [hsome, hrun]
          exact congrArg (Outcome.after _) (ih rest.length (by omega) hfits hshort rfl)

theorem readRest_unixLines (hfits : ∀ line ∈ lines, Fits line) :
    readRest (unixLines lines) = runLines none lines :=
  readConfigFile_unixLines hfits (Nat.le_refl _)

/-- A mark is looked for at the start of the first line only. -/
theorem readFile_unixLines (hfits : ∀ line ∈ lines, Fits line)
    (hmark : byteOrderMark.isPrefixOf (unixLines lines) = false) :
    readFile (unixLines lines) = runLines none lines := by
  rw [← readRest_unixLines hfits, readFile, readRest]
  cases lines with
  | nil => rfl
  | cons line rest =>
    obtain ⟨fuel, hfuel⟩ : ∃ fuel, (unixLines (line :: rest)).length = fuel + 1 :=
      Nat.exists_eq_succ_of_ne_zero (by simp)
    have hline : byteOrderMark.isPrefixOf (line ++ ['\n']) = false := by
      rw [Bool.eq_false_iff, Ne, List.isPrefixOf_iff_prefix] at hmark ⊢
      exact fun hprefixed ↦ hmark (hprefixed.trans (List.prefix_append _ _))
    rw [hfuel, readConfigFile, readConfigFile, unixLines_cons,
      fgets_fits (hfits line List.mem_cons_self) (by decide)]
    simp only [hline, Bool.and_false, Bool.false_eq_true, if_false]

/-- What is handed over of some lines is handed over of more lines. -/
theorem prefix_handed (block : Option (Text × Text)) (first after : List Text) :
    (runLines block first).handed <+: (runLines block (first ++ after)).handed := by
  induction first generalizing block with
  | nil => cases block <;> exact List.nil_prefix
  | cons line rest ih =>
    cases block with
    | none =>
      rw [List.cons_append, runLines, runLines]
      cases readLine (line ++ ['\n']) with
      | refused => exact List.prefix_rfl
      | blank => exact ih none
      | directive directive => exact (List.prefix_cons_inj _).mpr (ih none)
      | opens name => exact ih _
    | some opened =>
      rw [List.cons_append, runLines, runLines]
      split_ifs
      · exact (List.prefix_cons_inj _).mpr (ih none)
      · exact ih _

/-! ### The parameters of a line -/

/-- All parameters that are read up to the end of a text, errors apart. -/
def parameters : Text → ParseState → Bool → Text → List Text
  | [], _, _, _ => []
  | c :: rest, state, backslash, parm =>
    if startsEscape backslash c state then parameters rest state true parm
    else
      match readChar backslash c state with
      | .comment => []
      | .skipped state => parameters rest state false parm
      | .stored state => parameters rest state false (store parm c)
      | .done => parm :: parameters rest .initial false []

/-- A line that is not refused has the parameters that are read of it, up to the limit. -/
theorem eq_take_of_parseLoop {n : ℕ} {line parm : Text} {state : ParseState} {backslash : Bool}
    {p q : List Text} (hlt : p.length < n)
    (hparse : parseLoop n line state backslash parm p = some q) :
    q = p ++ (parameters line state backslash parm).take (n - p.length) := by
  induction line generalizing state backslash parm p with
  | nil =>
    rw [parseLoop] at hparse
    split_ifs at hparse
    rw [← Option.some.inj hparse, parameters, List.take_nil, List.append_nil]
  | cons c rest ih =>
    rw [parseLoop] at hparse
    rw [parameters]
    by_cases hescape : startsEscape backslash c state = true
    · rw [if_pos hescape] at hparse ⊢
      exact ih hlt hparse
    · rw [if_neg hescape] at hparse ⊢
      cases hread : readChar backslash c state with
      | comment =>
        simp only [hread] at hparse ⊢
        rw [← Option.some.inj hparse, List.take_nil, List.append_nil]
      | skipped next =>
        simp only [hread] at hparse ⊢
        exact ih hlt hparse
      | stored next =>
        simp only [hread] at hparse ⊢
        split_ifs at hparse
        exact ih hlt hparse
      | done =>
        simp only [hread] at hparse ⊢
        have hsub : n - p.length = (n - (p.length + 1)) + 1 := by omega
        rw [hsub, List.take_succ_cons]
        split_ifs at hparse with hlimit
        · have hzero : n - (p.length + 1) = 0 := by omega
          rw [← Option.some.inj hparse, hzero, List.take_zero]
        · have hnext := ih (p := p ++ [parm]) (by simp; omega) hparse
          rw [hnext, List.append_assoc, List.singleton_append, List.length_append,
            List.length_singleton]

/-- What is read of a text is read of a longer one first. -/
theorem prefix_parameters (line more parm : Text) (state : ParseState) (backslash : Bool) :
    parameters line state backslash parm <+: parameters (line ++ more) state backslash parm := by
  induction line generalizing state backslash parm with
  | nil => exact List.nil_prefix
  | cons c rest ih =>
    rw [List.cons_append, parameters, parameters]
    split_ifs with hescape
    · exact ih _ _ _
    · cases hread : readChar backslash c state with
      | comment => exact List.nil_prefix
      | skipped next => exact ih _ _ _
      | stored next => exact ih _ _ _
      | done => exact (List.prefix_cons_inj _).mpr (ih _ _ _)

/-- A line feed before the zero changes no parameter of a line that does not end in a backslash. -/
theorem parameters_newline {line parm : Text} {state : ParseState} {backslash : Bool}
    (hends : line.getLast? ≠ some backslashChar) (hfree : line = [] → backslash = false) :
    parameters (line ++ ['\n', nul]) state backslash parm =
      parameters (line ++ [nul]) state backslash parm := by
  induction line generalizing state backslash parm with
  | nil =>
    obtain rfl := hfree rfl
    cases state <;> rfl
  | cons c rest ih =>
    have hrest : rest.getLast? ≠ some backslashChar := by
      intro hlast
      refine hends ?_
      rw [List.getLast?_cons, hlast, Option.getD_some]
    have hescape : startsEscape backslash c state = true → rest ≠ [] := by
      rintro hstarts rfl
      simp only [startsEscape, Bool.and_eq_true, beq_iff_eq] at hstarts
      exact hends (congrArg some hstarts.1.2)
    rw [List.cons_append, List.cons_append, parameters, parameters]
    split_ifs with hstarts
    · exact ih hrest fun hnil ↦ absurd hnil (hescape hstarts)
    · cases hread : readChar backslash c state with
      | comment => rfl
      | skipped next => exact ih hrest fun _ ↦ rfl
      | stored next => exact ih hrest fun _ ↦ rfl
      | done => exact congrArg (parm :: ·) (ih hrest fun _ ↦ rfl)

/-- Parameters that were read before take up room only. -/
theorem parseLoop_after {n : ℕ} {line parm : Text} {state : ParseState} {backslash : Bool}
    {before p q : List Text} (hroom : before.length + q.length ≤ n)
    (hparse : parseLoop n line state backslash parm p = some (p ++ q))
    (hle : p.length ≤ before.length) :
    parseLoop n line state backslash parm before = some (before ++ q) := by
  induction line generalizing state backslash parm before p q with
  | nil =>
    rw [parseLoop] at hparse ⊢
    split_ifs at hparse ⊢ with hinitial
    have hempty : q = [] := List.self_eq_append_right.mp (Option.some.inj hparse)
    rw [hempty, List.append_nil]
  | cons c rest ih =>
    rw [parseLoop] at hparse ⊢
    by_cases hescape : startsEscape backslash c state = true
    · rw [if_pos hescape] at hparse ⊢
      exact ih hroom hparse hle
    · rw [if_neg hescape] at hparse ⊢
      cases hread : readChar backslash c state with
      | comment =>
        simp only [hread] at hparse ⊢
        have hempty : q = [] := List.self_eq_append_right.mp (Option.some.inj hparse)
        rw [hempty, List.append_nil]
      | skipped next =>
        simp only [hread] at hparse ⊢
        exact ih hroom hparse hle
      | stored next =>
        simp only [hread] at hparse ⊢
        by_cases hbad : unstorable backslash parm c = true
        · rw [if_pos hbad] at hparse
          cases hparse
        · rw [if_neg hbad] at hparse ⊢
          exact ih hroom hparse hle
      | done =>
        simp only [hread] at hparse ⊢
        by_cases hlimit : n ≤ p.length + 1
        · rw [if_pos hlimit] at hparse
          have hone : [parm] = q := List.append_cancel_left (Option.some.inj hparse)
          rw [if_pos (by omega), hone]
        · rw [if_neg hlimit] at hparse
          -- The parameter that ends here is the first of those that are still to be read.
          obtain ⟨more, hmore⟩ : ∃ more, q = parm :: more := by
            have htake := eq_take_of_parseLoop (by simp; omega) hparse
            rw [List.append_assoc] at htake
            exact ⟨_, List.append_cancel_left htake⟩
          subst hmore
          rw [List.length_cons] at hroom
          have hrest : parseLoop n rest .initial false [] (p ++ [parm]) =
              some ((p ++ [parm]) ++ more) := by
            rw [hparse, List.append_assoc, List.singleton_append]
          by_cases hfull : n ≤ before.length + 1
          · have hnone : more = [] := List.eq_nil_of_length_eq_zero (by omega)
            rw [if_pos hfull, hnone]
          · rw [if_neg hfull, ih (by simp; omega) hrest (by simp; omega), List.append_assoc,
              List.singleton_append]

/-- A parameter has no zero in it and fits into its buffer. -/
def Storable (parm : Text) : Prop := nul ∉ parm ∧ parm.length ≤ optionParmSize

theorem Storable.store {parm : Text} {c : Char} {backslash : Bool} (hparm : Storable parm)
    (hstorable : unstorable backslash parm c = false) : Storable (store parm c) := by
  rw [OptionsParse.store]
  split_ifs with hc
  · exact hparm
  · have hroom : parm.length < optionParmSize := by
      simp only [unstorable, Bool.and_eq_false_iff, Bool.or_eq_false_iff, bne_eq_false_iff_eq,
        decide_eq_false_iff_not] at hstorable
      rcases hstorable with hnul | ⟨-, hlt⟩
      · exact absurd hnul hc
      · exact Nat.not_le.mp hlt
    refine ⟨?_, ?_⟩
    · rw [List.mem_append, List.mem_singleton, not_or]
      exact ⟨hparm.1, Ne.symm hc⟩
    · rw [List.length_append, List.length_singleton]
      exact hroom

/-- All parameters of a line that is not refused are storable. -/
theorem storable_of_parseLoop {n : ℕ} {line parm : Text} {state : ParseState} {backslash : Bool}
    {p q : List Text} (hread : ∀ text ∈ p, Storable text) (hparm : Storable parm)
    (hparse : parseLoop n line state backslash parm p = some q) : ∀ text ∈ q, Storable text := by
  induction line generalizing state backslash parm p with
  | nil =>
    rw [parseLoop] at hparse
    split_ifs at hparse
    rwa [← Option.some.inj hparse]
  | cons c rest ih =>
    have hdone : ∀ text ∈ p ++ [parm], Storable text := by
      intro text hmem
      rcases List.mem_append.mp hmem with hmem | hmem
      · exact hread text hmem
      · rwa [List.mem_singleton.mp hmem]
    rw [parseLoop] at hparse
    by_cases hescape : startsEscape backslash c state = true
    · rw [if_pos hescape] at hparse
      exact ih hread hparm hparse
    · rw [if_neg hescape] at hparse
      cases hchar : readChar backslash c state with
      | comment =>
        simp only [hchar] at hparse
        rwa [← Option.some.inj hparse]
      | skipped next =>
        simp only [hchar] at hparse
        exact ih hread hparm hparse
      | stored next =>
        simp only [hchar] at hparse
        split_ifs at hparse with hbad
        exact ih hread (hparm.store (Bool.eq_false_iff.mpr hbad)) hparse
      | done =>
        simp only [hchar] at hparse
        split_ifs at hparse
        · rwa [← Option.some.inj hparse]
        · exact ih hdone ⟨List.not_mem_nil, Nat.zero_le _⟩ hparse

theorem length_store_le (parm : Text) (c : Char) : (store parm c).length ≤ parm.length + 1 := by
  rw [store]
  split_ifs <;> simp

/-- A parameter is no longer than what was read for it. -/
theorem length_le_of_mem_parameters {line parm text : Text} {state : ParseState} {backslash : Bool}
    (hmem : text ∈ parameters (line ++ [nul]) state backslash parm) :
    text.length ≤ parm.length + line.length := by
  induction line generalizing state backslash parm with
  | nil =>
    have hend : parameters [nul] state backslash parm = [] ∨
        parameters [nul] state backslash parm = [parm] := by
      cases state <;> cases backslash <;> simp [parameters, readChar, startsEscape, space, nul,
        backslashChar, quotation, apostrophe]
    rw [List.nil_append] at hmem
    rcases hend with hnone | hone
    · rw [hnone] at hmem
      cases hmem
    · rw [hone, List.mem_singleton] at hmem
      rw [hmem]
      exact Nat.le_add_right _ _
  | cons c rest ih =>
    rw [List.cons_append, parameters] at hmem
    rw [List.length_cons]
    have hnext : ∀ {next : ParseState} {escaped : Bool} {more : Text},
        more.length ≤ parm.length + 1 → text ∈ parameters (rest ++ [nul]) next escaped more →
        text.length ≤ parm.length + (rest.length + 1) := by
      intro next escaped more hle hmem
      have hlength := ih hmem
      omega
    split_ifs at hmem
    · exact hnext (Nat.le_succ _) hmem
    · cases hread : readChar backslash c state with
      | comment =>
        simp only [hread] at hmem
        cases hmem
      | skipped next =>
        simp only [hread] at hmem
        exact hnext (Nat.le_succ _) hmem
      | stored next =>
        simp only [hread] at hmem
        exact hnext (length_store_le parm c) hmem
      | done =>
        simp only [hread] at hmem
        rcases List.mem_cons.mp hmem with rfl | hmem
        · exact Nat.le_add_right _ _
        · exact hnext (Nat.zero_le _) hmem

/-! ### Bytes -/

theorem isAscii_of_space {c : Char} (hspace : space c = true) : isAscii c = true := by
  simp only [space, isSpace, nul, Bool.or_eq_true, beq_iff_eq, decide_eq_true_eq] at hspace
  rcases hspace with rfl | rfl | ⟨-, hle⟩
  · decide
  · decide
  · exact decide_eq_true (by omega)

/-- A byte of a character that is not in ASCII is stored, whatever is being read. -/
theorem readChar_of_not_ascii {c : Char} (hascii : isAscii c = false) (backslash : Bool)
    (state : ParseState) :
    readChar backslash c state = .stored (if state = .initial then .unquoted else state) := by
  have hspace : space c = false := by
    by_contra hspace
    rw [isAscii_of_space (Bool.not_eq_false _ ▸ hspace)] at hascii
    cases hascii
  have hne : ∀ d : Char, isAscii d = true → (c == d) = false := by
    rintro d hd
    refine beq_eq_false_iff_ne.mpr ?_
    rintro rfl
    rw [hd] at hascii
    cases hascii
  have hsemicolon := hne ';' (by decide)
  have hhash := hne '#' (by decide)
  have hquotation := hne quotation (by decide)
  have happostrophe := hne apostrophe (by decide)
  cases state <;> simp [readChar, hspace, hsemicolon, hhash, hquotation, happostrophe]

theorem startsEscape_of_not_ascii {c : Char} (hascii : isAscii c = false) (backslash : Bool)
    (state : ParseState) : startsEscape backslash c state = false := by
  have hne : (c == backslashChar) = false := by
    refine beq_eq_false_iff_ne.mpr ?_
    rintro rfl
    cases hascii
  simp [startsEscape, hne]

theorem store_of_not_ascii {c : Char} (hascii : isAscii c = false) (parm : Text) :
    store parm c = parm ++ [c] := by
  refine if_neg ?_
  rintro rfl
  cases hascii

/-- Bytes of characters that are not in ASCII go into the parameter together. -/
theorem parameters_bytes {bytes : Text} (hbytes : ∀ byte ∈ bytes, isAscii byte = false)
    (hne : bytes ≠ []) (line parm : Text) (state : ParseState) (backslash : Bool) :
    parameters (bytes ++ line) state backslash parm =
      parameters line (if state = .initial then .unquoted else state) false (parm ++ bytes) := by
  induction bytes generalizing state backslash parm with
  | nil => exact absurd rfl hne
  | cons byte rest ih =>
    rw [List.forall_mem_cons] at hbytes
    rw [List.cons_append, parameters, startsEscape_of_not_ascii hbytes.1]
    simp only [Bool.false_eq_true, if_false, readChar_of_not_ascii hbytes.1,
      store_of_not_ascii hbytes.1]
    cases hrest : rest with
    | nil => rfl
    | cons next others =>
      rw [← hrest, ih hbytes.2 (by simp [hrest]), List.append_assoc, List.singleton_append]
      cases state <;> rfl

theorem utf8_store (parm : Text) {c : Char} (hascii : isAscii c = true) :
    utf8 (store parm c) = store (utf8 parm) c := by
  rw [store, store]
  split_ifs
  · rfl
  · rw [utf8_append, utf8_cons, utf8_nil, charBytes_of_isAscii hascii, List.append_nil]

/-- The parameters of the bytes of a line are the bytes of its parameters. -/
theorem parameters_utf8 (line parm : Text) (state : ParseState) (backslash : Bool) :
    parameters (utf8 line) state backslash (utf8 parm) =
      (parameters line state backslash parm).map utf8 := by
  induction line generalizing state backslash parm with
  | nil => rfl
  | cons c rest ih =>
    rw [utf8_cons]
    cases hascii : isAscii c with
    | true =>
      rw [charBytes_of_isAscii hascii, List.singleton_append, parameters, parameters]
      split_ifs
      · exact ih _ _ _
      · cases hread : readChar backslash c state with
        | comment => rfl
        | skipped next => exact ih _ _ _
        | stored next =>
          simp only
          rw [← utf8_store parm hascii]
          exact ih _ _ _
        | done => exact congrArg (utf8 parm :: ·) (ih [] _ _)
    | false =>
      have hbytes : ∀ byte ∈ charBytes c, isAscii byte = false :=
        fun byte hmem ↦ isAscii_of_mem_charBytes hascii hmem
      rw [parameters_bytes hbytes (charBytes_ne_nil c), parameters,
        startsEscape_of_not_ascii hascii]
      simp only [Bool.false_eq_true, if_false, readChar_of_not_ascii hascii,
        store_of_not_ascii hascii]
      rw [← ih, utf8_append, utf8_cons, utf8_nil, List.append_nil]

theorem dropWhile_isSpace_utf8 (line : Text) :
    (utf8 line).dropWhile isSpace = utf8 (line.dropWhile isSpace) := by
  induction line with
  | nil => rfl
  | cons c rest ih =>
    cases hspace : isSpace c with
    | true =>
      have hascii := isAscii_of_space (c := c) (by rw [space, hspace, Bool.or_true])
      rw [utf8_cons, charBytes_of_isAscii hascii, List.singleton_append,
        List.dropWhile_cons_of_pos hspace, List.dropWhile_cons_of_pos hspace, ih]
    | false =>
      rw [List.dropWhile_cons_of_neg (by simp [hspace]), utf8_cons]
      obtain ⟨byte, bytes, hbytes⟩ := List.exists_cons_of_ne_nil (charBytes_ne_nil c)
      have hbyte : isSpace byte = false := by
        by_contra hbyte
        rw [Bool.not_eq_false] at hbyte
        have hascii := isAscii_of_space (c := byte) (by rw [space, hbyte, Bool.or_true])
        cases hc : isAscii c with
        | true =>
          rw [charBytes_of_isAscii hc, List.cons.injEq] at hbytes
          rw [hbytes.1, hbyte] at hspace
          cases hspace
        | false =>
          rw [isAscii_of_mem_charBytes hc (hbytes ▸ List.mem_cons_self)] at hascii
          cases hascii
      rw [hbytes, List.cons_append, List.dropWhile_cons_of_neg (by simp [hbyte])]

/-- A word in ASCII is in front of the bytes of a text exactly when it is in front of the text. -/
theorem isPrefixOf_utf8 {word : Text} (hword : ∀ c ∈ word, isAscii c = true) (text : Text) :
    word.isPrefixOf (utf8 text) = word.isPrefixOf text := by
  induction word generalizing text with
  | nil => rfl
  | cons c word ih =>
    rw [List.forall_mem_cons] at hword
    cases text with
    | nil => rfl
    | cons d text =>
      rw [utf8_cons]
      cases hascii : isAscii d with
      | true =>
        rw [charBytes_of_isAscii hascii, List.singleton_append, List.isPrefixOf_cons_cons,
          List.isPrefixOf_cons_cons, ih hword.2]
      | false =>
        have hne : ∀ byte ∈ d :: charBytes d, (c == byte) = false := by
          intro byte hmem
          refine beq_eq_false_iff_ne.mpr ?_
          rintro rfl
          rcases List.mem_cons.mp hmem with rfl | hmem
          · rw [hword.1] at hascii
            cases hascii
          · rw [isAscii_of_mem_charBytes hascii hmem] at hword
            cases hword.1
        obtain ⟨byte, bytes, hbytes⟩ := List.exists_cons_of_ne_nil (charBytes_ne_nil d)
        have hbyte := hne byte (List.mem_cons_of_mem _ (hbytes ▸ List.mem_cons_self))
        rw [hbytes, List.cons_append, List.isPrefixOf_cons_cons, List.isPrefixOf_cons_cons, hbyte,
          hne d List.mem_cons_self]
        rfl

/-- What a word without zeros and line feeds starts does not depend on where the string ends. -/
theorem isPrefixOf_cString {word : Text} (hnul : nul ∉ word) (hbreak : '\n' ∉ word) (text : Text) :
    word.isPrefixOf (cString (text ++ ['\n'])) = word.isPrefixOf text := by
  induction word generalizing text with
  | nil => simp
  | cons c word ih =>
    rw [List.mem_cons, not_or] at hnul hbreak
    cases text with
    | nil =>
      have hne : (c == '\n') = false := beq_eq_false_iff_ne.mpr (Ne.symm hbreak.1)
      change (c :: word).isPrefixOf ['\n'] = false
      rw [List.isPrefixOf_cons_cons, hne, Bool.false_and]
    | cons d text =>
      rw [List.cons_append]
      by_cases hd : d = nul
      · have hne : (c == d) = false := beq_eq_false_iff_ne.mpr fun heq ↦ hnul.1 (heq.trans hd).symm
        rw [List.isPrefixOf_cons_cons, hne, hd, cString_nul]
        rfl
      · rw [cString_cons hd, List.isPrefixOf_cons_cons, List.isPrefixOf_cons_cons,
          ih hnul.2 hbreak.2]

theorem dropWhile_isSpace_cString (text : Text) :
    (cString text).dropWhile isSpace = cString (text.dropWhile isSpace) := by
  induction text with
  | nil => rfl
  | cons c rest ih =>
    by_cases hc : c = nul
    · have hspace : isSpace c = false := by rw [hc]; rfl
      rw [List.dropWhile_cons_of_neg (by simp [hspace]), hc, cString_nul]
      rfl
    · rw [cString_cons hc]
      cases hspace : isSpace c with
      | true => rw [List.dropWhile_cons_of_pos hspace, List.dropWhile_cons_of_pos hspace, ih]
      | false =>
        rw [List.dropWhile_cons_of_neg (by simp [hspace]),
          List.dropWhile_cons_of_neg (by simp [hspace]), cString_cons hc]

/-- The bytes of a line close a block exactly when the line starts with the closing tag, blanks
before it apart. -/
theorem closes_utf8 {tag : Text} (hascii : ∀ c ∈ tag, isAscii c = true) (hnul : nul ∉ tag)
    (hbreak : '\n' ∉ tag) (line : Text) :
    closes tag (utf8 line ++ ['\n']) = tag.isPrefixOf (line.dropWhile isSpace) := by
  rw [closes, dropWhile_isSpace_cString]
  by_cases hall : ∀ c ∈ utf8 line, isSpace c = true
  · have hempty : (utf8 line).dropWhile isSpace = [] := List.dropWhile_eq_nil_iff.mpr hall
    rw [List.dropWhile_append, hempty, List.isEmpty_nil, if_pos rfl,
      ← isPrefixOf_utf8 hascii (line.dropWhile isSpace), ← dropWhile_isSpace_utf8, hempty]
    rfl
  · have hmore : ((utf8 line).dropWhile isSpace).isEmpty = false := by
      rw [List.isEmpty_eq_false_iff, Ne, List.dropWhile_eq_nil_iff]
      exact hall
    rw [List.dropWhile_append, hmore, if_neg Bool.false_ne_true, isPrefixOf_cString hnul hbreak,
      dropWhile_isSpace_utf8, isPrefixOf_utf8 hascii]

end WindscribeVpn.Openvpn.OptionsParse
