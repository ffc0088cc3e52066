import WindscribeVpn.Foundations.Runs
import WindscribeVpn.Foundations.Texts

/-!
# TOML

A reader of one table of a TOML document: keys without quotation marks, and for values decimal
numbers and the strings that begin with a quotation mark, on one line or on several. It goes through
the text character by character (`Reader.step`), and the table ends with the text or where the next
one begins. Lines end with a line feed.

`paste` writes a table as a program does that puts its texts between quotation marks as they are.
What is pasted is read back if the texts are clean, without quotation marks, backslashes and control
characters (`read_paste`). No other text is: a string is never longer than what it is read from, and
shorter if there is an escape in it, so that the reader of an unclean text falls behind and stays
behind (`clean_of_read`).
-/

set_option autoImplicit false
set_option relaxedAutoImplicit false

namespace WindscribeVpn.Foundations.Toml

open Runs Texts

/-! ### Characters -/

/-- Whitespace within a line. -/
def isBlank (c : Char) : Bool := c == ' ' || c == '\t'

/-- The control characters that a string may not have in it. -/
def isControl (c : Char) : Bool := (decide (c.toNat < 0x20) && c != '\t') || c.toNat == 0x7F

/-- The characters of a key without quotation marks. -/
def isKeyChar (c : Char) : Bool := c.isAlphanum || c == '-' || c == '_'

/-- What a character behind a backslash stands for. -/
def unescape : Char → Option Char
  | 'b' => some '\x08'
  | 't' => some '\t'
  | 'n' => some '\n'
  | 'f' => some '\x0C'
  | 'r' => some '\r'
  | '"' => some '"'
  | '\\' => some '\\'
  | _ => none

/-- A character that stands for itself in a string. -/
def isClean (c : Char) : Bool := c != '"' && c != '\\' && !isControl c

/-- Every character of the text stands for itself in a string. -/
def Clean (text : Text) : Prop := ∀ c ∈ text, isClean c = true

instance (text : Text) : Decidable (Clean text) := List.decidableBAll _ _

/-! ### Strings -/

/-- Where the reader is in a string. -/
inductive Quoted
  /-- Behind one quotation mark. -/
  | opened
  /-- Behind two. -/
  | doubled
  /-- In a string on one line. -/
  | line (text : Text)
  /-- Behind three quotation marks, where a line feed does not count. -/
  | tripled
  /-- In a string on several lines, behind a number of quotation marks. -/
  | block (text : Text) (quotes : ℕ)
  /-- Behind a backslash; `several` is set in a string on several lines. -/
  | escape (several : Bool) (text : Text)
  /-- In the number of a character, with digits left to come. -/
  | unicode (several : Bool) (text : Text) (left code : ℕ)
  /-- Behind a backslash that joins lines; `broken` is set once the line has ended. -/
  | joining (text : Text) (broken : Bool)
  deriving DecidableEq, Repr

/-- What a character does to a string. -/
inductive Progress
  | inside (quoted : Quoted)
  /-- It ends the string. -/
  | closed (text : Text)
  /-- The string has ended before it. -/
  | closedBefore (text : Text)
  | failed
  deriving DecidableEq, Repr

namespace Quoted

/-- A string on one line reads a character. -/
def lineStep (text : Text) (c : Char) : Progress :=
  if c = '"' then .closed text
  else if c = '\\' then .inside (.escape false text)
  else if isControl c then .failed
  else .inside (.line (text ++ [c]))

/-- A string on several lines reads a character. Up to two quotation marks may stand before the
three that end it. -/
def blockStep (text : Text) (quotes : ℕ) (c : Char) : Progress :=
  if c = '"' then if quotes < 5 then .inside (.block text (quotes + 1)) else .failed
  else if 3 ≤ quotes then .closedBefore (text ++ List.replicate (quotes - 3) '"')
  else if c = '\\' then .inside (.escape true (text ++ List.replicate quotes '"'))
  else if isControl c && c != '\n' then .failed
  else .inside (.block (text ++ List.replicate quotes '"' ++ [c]) 0)

/-- Behind an escape. -/
def resume (several : Bool) (text : Text) : Quoted :=
  if several then .block text 0 else .line text

/-- A character behind a backslash. -/
def escapeStep (several : Bool) (text : Text) (c : Char) : Progress :=
  match unescape c with
  | some escaped => .inside (resume several (text ++ [escaped]))
  | none =>
    if c = 'u' then .inside (.unicode several text 4 0)
    else if c = 'U' then .inside (.unicode several text 8 0)
    else if several && isBlank c then .inside (.joining text false)
    else if several && c == '\n' then .inside (.joining text true)
    else .failed

/-- A digit of the number of a character. -/
def unicodeStep (several : Bool) (text : Text) (left code : ℕ) (c : Char) : Progress :=
  match hexDigitOf c with
  | none => .failed
  | some digit =>
    if 1 < left then .inside (.unicode several text (left - 1) (16 * code + digit))
    else if (16 * code + digit).isValidChar then
      .inside (resume several (text ++ [Char.ofNat (16 * code + digit)]))
    else .failed

/-- A string reads a character. -/
def step : Quoted → Char → Progress
  | .opened, c => if c = '"' then .inside .doubled else lineStep [] c
  | .doubled, c => if c = '"' then .inside .tripled else .closedBefore []
  | .line text, c => lineStep text c
  | .tripled, c => if c = '\n' then .inside (.block [] 0) else blockStep [] 0 c
  | .block text quotes, c => blockStep text quotes c
  | .escape several text, c => escapeStep several text c
  | .unicode several text left code, c => unicodeStep several text left code c
  | .joining text broken, c =>
    if isBlank c then .inside (.joining text broken)
    else if c = '\n' then .inside (.joining text true)
    else if broken then blockStep text 0 c
    else .failed

/-- The string that ends with the document. -/
def finish : Quoted → Option Text
  | .doubled => some []
  | .block text quotes =>
    if 3 ≤ quotes then some (text ++ List.replicate (quotes - 3) '"') else none
  | _ => none

end Quoted

/-! ### Tables -/

/-- A value. -/
inductive Value
  | string (text : Text)
  | integer (value : ℕ)
  deriving DecidableEq, Repr

/-- The keys of a table with their values, in the order of the text. -/
abbrev Table := List (Text × Value)

/-- Where the reader is. -/
inductive Mode
  /-- At the start of a line. -/
  | start
  | comment
  | key (name : Text)
  /-- Between a key and its `=`. -/
  | gap (name : Text)
  /-- Behind the `=`. -/
  | value (name : Text)
  | number (name : Text) (value : ℕ)
  | string (name : Text) (quoted : Quoted)
  /-- Behind a value. -/
  | ended
  /-- The next table has begun. -/
  | left
  deriving DecidableEq, Repr

/-- A reader with the entries it has read. -/
structure Reader where
  table : Table
  mode : Mode
  deriving DecidableEq, Repr

namespace Reader

/-- A key may be given one value. -/
def record (table : Table) (name : Text) (value : Value) : Option Table :=
  if (table.lookup name).isSome then none else some (table ++ [(name, value)])

/-- Behind a value only a comment may follow on the line. -/
def afterValue (table : Table) (c : Char) : Option Reader :=
  if isBlank c then some ⟨table, .ended⟩
  else if c = '#' then some ⟨table, .comment⟩
  else if c = '\n' then some ⟨table, .start⟩
  else none

/-- Behind a key. -/
def afterKey (table : Table) (name : Text) (c : Char) : Option Reader :=
  if isBlank c then some ⟨table, .gap name⟩
  else if c = '=' then some ⟨table, .value name⟩
  else none

/-- A string in a table reads a character. -/
def stringStep (table : Table) (name : Text) : Progress → Char → Option Reader
  | .inside quoted, _ => some ⟨table, .string name quoted⟩
  | .closed text, _ => (record table name (.string text)).map (⟨·, .ended⟩)
  | .closedBefore text, c => (record table name (.string text)).bind (afterValue · c)
  | .failed, _ => none

/-- Reads a character. -/
def step (reader : Reader) (c : Char) : Option Reader :=
  match reader.mode with
  | .start =>
    if isBlank c ∨ c = '\n' then some reader
    else if c = '#' then some ⟨reader.table, .comment⟩
    else if c = '[' then some ⟨reader.table, .left⟩
    else if isKeyChar c then some ⟨reader.table, .key [c]⟩
    else none
  | .comment =>
    if c = '\n' then some ⟨reader.table, .start⟩ else if isControl c then none else some reader
  | .key name =>
    if isKeyChar c then some ⟨reader.table, .key (name ++ [c])⟩ else afterKey reader.table name c
  | .gap name => afterKey reader.table name c
  | .value name =>
    if isBlank c then some reader
    else if c = '"' then some ⟨reader.table, .string name .opened⟩
    else if c.isDigit then some ⟨reader.table, .number name (c.toNat - '0'.toNat)⟩
    else none
  | .number name value =>
    -- No digit follows a leading zero.
    if c.isDigit then
      if value = 0 then none
      else some ⟨reader.table, .number name (10 * value + (c.toNat - '0'.toNat))⟩
    else (record reader.table name (.integer value)).bind (afterValue · c)
  | .string name quoted => stringStep reader.table name (quoted.step c) c
  | .ended => afterValue reader.table c
  | .left => some reader

/-- The table at the end of the text. -/
def finish (reader : Reader) : Option Table :=
  match reader.mode with
  | .start | .comment | .ended | .left => some reader.table
  | .key _ | .gap _ | .value _ => none
  | .number name value => record reader.table name (.integer value)
  | .string name quoted => quoted.finish.bind fun text ↦ record reader.table name (.string text)

end Reader

/-- Reads the lines of a table. -/
def read (text : Text) : Option Table := (run Reader.step ⟨[], .start⟩ text).bind Reader.finish

/-- What follows a line in a document; `fresh` is set at the start of a line. -/
def behind (line : Text) : Bool → Text → Option Text
  | _, [] => none
  | fresh, c :: rest =>
    if fresh && (line ++ ['\n']).isPrefixOf (c :: rest) then
      some ((c :: rest).drop (line.length + 1))
    else behind line (c == '\n') rest

/-- Reads the table under a header. -/
def readTable (header document : Text) : Option Table := (behind header true document).bind read

/-! ### What is pasted is read back -/

/-- The text of a value, a string as it is between quotation marks. -/
def Value.paste : Value → Text
  | .string text => '"' :: text ++ ['"']
  | .integer value => decimal value

/-- The strings of the value are clean. -/
def Value.Clean : Value → Prop
  | .string text => Toml.Clean text
  | .integer _ => True

/-- The line of an entry. -/
def pasteLine (entry : Text × Value) : Text := entry.1 ++ [' ', '=', ' '] ++ entry.2.paste

/-- The lines of a table. -/
def paste (table : Table) : Text := ['\n'].intercalate (table.map pasteLine)

/-- A key without quotation marks. -/
def Bare (name : Text) : Prop := name ≠ [] ∧ ∀ c ∈ name, isKeyChar c = true

instance (name : Text) : Decidable (Bare name) :=
  haveI : Decidable (∀ c ∈ name, isKeyChar c = true) := List.decidableBAll _ _
  inferInstanceAs (Decidable (name ≠ [] ∧ ∀ c ∈ name, isKeyChar c = true))

variable {table : Table} {name text : Text} {c : Char}

theorem isClean_iff : isClean c = true ↔ c ≠ '"' ∧ c ≠ '\\' ∧ isControl c = false := by
  simp only [isClean, Bool.and_eq_true, bne_iff_ne, Bool.not_eq_true', and_assoc]

namespace Reader

theorem record_of_lookup_eq_none (hnew : table.lookup name = none) (value : Value) :
    record table name value = some (table ++ [(name, value)]) := by
  rw [record, hnew]
  rfl

theorem step_string (table : Table) (name : Text) (quoted : Quoted) (c : Char) :
    step ⟨table, .string name quoted⟩ c = stringStep table name (quoted.step c) c := rfl

/-- A line begins with a key. -/
theorem step_start (hkey : isKeyChar c = true) :
    step ⟨table, .start⟩ c = some ⟨table, .key [c]⟩ := by
  have hother : ∀ d, isKeyChar d = false → c ≠ d := by
    rintro d hd rfl
    exact Bool.false_ne_true (hd.symm.trans hkey)
  have hblank : ¬ (isBlank c = true ∨ c = '\n') := by
    simp only [isBlank, Bool.or_eq_true, beq_iff_eq, not_or]
    exact ⟨⟨hother ' ' rfl, hother '\t' rfl⟩, hother '\n' rfl⟩
  unfold step
  dsimp only
  rw [if_neg hblank, if_neg (hother '#' rfl), if_neg (hother '[' rfl), if_pos hkey]

theorem run_key_chars (read name : Text) (hname : ∀ c ∈ name, isKeyChar c = true) :
    run step ⟨table, .key read⟩ name = some ⟨table, .key (read ++ name)⟩ := by
  induction name generalizing read with
  | nil => rw [run_nil, List.append_nil]
  | cons c rest ih =>
    rw [List.forall_mem_cons] at hname
    have hstep : step ⟨table, .key read⟩ c = some ⟨table, .key (read ++ [c])⟩ := if_pos hname.1
    rw [run_cons, hstep, Option.bind_some, ih _ hname.2, List.append_assoc, List.singleton_append]

/-- A key with its `=`. -/
theorem run_key (hbare : Bare name) :
    run step ⟨table, .start⟩ (name ++ [' ', '=', ' ']) = some ⟨table, .value name⟩ := by
  obtain ⟨hne, hname⟩ := hbare
  cases name with
  | nil => exact absurd rfl hne
  | cons c rest =>
    rw [List.forall_mem_cons] at hname
    rw [List.cons_append, run_cons, step_start hname.1, Option.bind_some, run_append,
      run_key_chars [c] rest hname.2]
    rfl

/-- The digits of a number. -/
theorem run_decimal (value : ℕ) :
    run step ⟨table, .value name⟩ (decimal value) = some ⟨table, .number name value⟩ := by
  have hdigit : ∀ digit < 10, digit.digitChar.isDigit = true ∧
      digit.digitChar.toNat - '0'.toNat = digit ∧ isBlank digit.digitChar = false ∧
        digit.digitChar ≠ '"' := by
    decide
  induction value using Nat.base_induction 10 (by decide) with
  | single digit hlt =>
    obtain ⟨hisDigit, hvalue, hblank, hquote⟩ := hdigit digit hlt
    have hstep : step ⟨table, .value name⟩ digit.digitChar =
        some ⟨table, .number name digit⟩ := by
      unfold step
      dsimp only
      rw [if_neg (by rw [hblank]; decide), if_neg hquote, if_pos hisDigit, hvalue]
    rw [decimal, Nat.toDigits_of_lt_base hlt, run_cons, hstep, Option.bind_some, run_nil]
  | digit upper digit hlt hpos ih =>
    obtain ⟨hisDigit, hvalue, -, -⟩ := hdigit digit hlt
    have hstep : step ⟨table, .number name upper⟩ digit.digitChar =
        some ⟨table, .number name (10 * upper + digit)⟩ := by
      unfold step
      dsimp only
      rw [if_pos hisDigit, if_neg hpos.ne', hvalue]
    rw [decimal, ← Nat.toDigits_append_toDigits (by decide) hpos hlt, run_append, ← decimal, ih,
      Option.bind_some, Nat.toDigits_of_lt_base hlt, run_cons, hstep, Option.bind_some, run_nil]

/-- Clean characters are read as they are. -/
theorem step_line (hclean : isClean c = true) (text : Text) :
    Quoted.lineStep text c = .inside (.line (text ++ [c])) := by
  obtain ⟨hquote, hbackslash, hcontrol⟩ := isClean_iff.mp hclean
  rw [Quoted.lineStep, if_neg hquote, if_neg hbackslash, if_neg (by rw [hcontrol]; decide)]

theorem run_line (read text : Text) (hclean : Clean text) :
    run step ⟨table, .string name (.line read)⟩ text =
      some ⟨table, .string name (.line (read ++ text))⟩ := by
  induction text generalizing read with
  | nil => rw [run_nil, List.append_nil]
  | cons c rest ih =>
    have hstep : step ⟨table, .string name (.line read)⟩ c =
        some ⟨table, .string name (.line (read ++ [c]))⟩ := by
      rw [step_string, Quoted.step, step_line (hclean c List.mem_cons_self)]
      rfl
    rw [run_cons, hstep, Option.bind_some, ih _ fun d hd ↦ hclean d (List.mem_cons_of_mem _ hd),
      List.append_assoc, List.singleton_append]

/-- What has been read once a line has been pasted: the line may end here, and the text too. -/
def Settled (reader : Reader) (table : Table) : Prop :=
  reader.finish = some table ∧ step reader '\n' = some ⟨table, .start⟩

/-- A clean string up to its second quotation mark. -/
theorem exists_run_string (hnew : table.lookup name = none) (hclean : Clean text) :
    ∃ reader, run step ⟨table, .string name .opened⟩ (text ++ ['"']) = some reader ∧
      Settled reader (table ++ [(name, .string text)]) := by
  have hrecord := record_of_lookup_eq_none hnew (.string text)
  cases text with
  | nil =>
    refine ⟨⟨table, .string name .doubled⟩, rfl, hrecord, ?_⟩
    have hdoubled : Quoted.step .doubled '\n' = .closedBefore [] := rfl
    rw [step_string, hdoubled, stringStep, hrecord]
    rfl
  | cons c rest =>
    have hopened : step ⟨table, .string name .opened⟩ c =
        some ⟨table, .string name (.line [c])⟩ := by
      have hc := hclean c List.mem_cons_self
      rw [step_string, Quoted.step, if_neg (isClean_iff.mp hc).1, step_line hc]
      rfl
    refine ⟨⟨table ++ [(name, .string (c :: rest))], .ended⟩, ?_, rfl, rfl⟩
    rw [List.cons_append, run_cons, hopened, Option.bind_some, run_append,
      run_line [c] rest fun d hd ↦ hclean d (List.mem_cons_of_mem _ hd), Option.bind_some, run_cons]
    have hclosed : step ⟨table, .string name (.line ([c] ++ rest))⟩ '"' =
        some ⟨table ++ [(name, .string (c :: rest))], .ended⟩ := by
      have hquote : Quoted.step (.line ([c] ++ rest)) '"' = .closed (c :: rest) := rfl
      rw [step_string, hquote, stringStep, hrecord]
      rfl
    rw [hclosed]
    rfl

/-- A pasted line. -/
theorem exists_run_pasteLine {entry : Text × Value} (hnew : table.lookup entry.1 = none)
    (hbare : Bare entry.1) (hclean : entry.2.Clean) :
    ∃ reader, run step ⟨table, .start⟩ (pasteLine entry) = some reader ∧
      Settled reader (table ++ [entry]) := by
  obtain ⟨name, value⟩ := entry
  rw [pasteLine, run_append, run_key hbare, Option.bind_some]
  cases value with
  | string text =>
    obtain ⟨reader, hrun, hsettled⟩ := exists_run_string hnew hclean
    exact ⟨reader, hrun, hsettled⟩
  | integer value =>
    have hrecord := record_of_lookup_eq_none hnew (.integer value)
    refine ⟨⟨table, .number name value⟩, run_decimal value, hrecord, ?_⟩
    unfold step
    dsimp only
    rw [if_neg (by decide), hrecord]
    rfl

/-- A pasted line with its end. -/
theorem run_pasteLine {entry : Text × Value} (hnew : table.lookup entry.1 = none)
    (hbare : Bare entry.1) (hclean : entry.2.Clean) :
    run step ⟨table, .start⟩ (pasteLine entry ++ ['\n']) = some ⟨table ++ [entry], .start⟩ := by
  obtain ⟨reader, hrun, -, hnewline⟩ := exists_run_pasteLine hnew hbare hclean
  rw [run_append, hrun, Option.bind_some, run_cons, hnewline]
  rfl

theorem lookup_of_nodup {entry : Text × Value} {rest : Table}
    (hnames : ((table ++ entry :: rest).map Prod.fst).Nodup) : table.lookup entry.1 = none := by
  rw [List.map_append, List.nodup_append] at hnames
  rw [List.lookup_eq_none_iff]
  intro other hother
  rw [bne_iff_ne]
  exact (hnames.2.2 _ (List.mem_map_of_mem hother) _ List.mem_cons_self).symm

theorem paste_cons_cons (entry next : Text × Value) (rest : Table) :
    paste (entry :: next :: rest) = pasteLine entry ++ ['\n'] ++ paste (next :: rest) :=
  List.intercalate_cons_cons

/-- The lines before another one add their entries. -/
theorem run_paste_append (before : Table) (entry : Text × Value) (after : Table)
    (hnames : ((table ++ before).map Prod.fst).Nodup)
    (hbare : ∀ other ∈ before, Bare other.1) (hclean : ∀ other ∈ before, other.2.Clean) :
    run step ⟨table, .start⟩ (paste (before ++ entry :: after)) =
      run step ⟨table ++ before, .start⟩ (paste (entry :: after)) := by
  induction before generalizing table with
  | nil => rw [List.append_nil, List.nil_append]
  | cons first rest ih =>
    rw [List.forall_mem_cons] at hbare hclean
    have hrest := ih (List.append_cons table first rest ▸ hnames) hbare.2 hclean.2
    have hline := run_pasteLine (lookup_of_nodup hnames) hbare.1 hclean.1
    obtain ⟨next, others, hnext⟩ := List.exists_cons_of_ne_nil (l := rest ++ entry :: after)
      (List.append_ne_nil_of_right_ne_nil _ (List.cons_ne_nil _ _))
    rw [hnext] at hrest
    rw [List.cons_append, hnext, paste_cons_cons, run_append, hline, Option.bind_some, hrest,
      List.append_assoc, List.singleton_append]

end Reader

/-- A table with clean texts is read back. -/
theorem read_paste (hnames : (table.map Prod.fst).Nodup) (hbare : ∀ entry ∈ table, Bare entry.1)
    (hclean : ∀ entry ∈ table, entry.2.Clean) : read (paste table) = some table := by
  rcases List.eq_nil_or_concat table with rfl | ⟨before, entry, rfl⟩
  · rfl
  · rw [List.concat_eq_append] at hnames hbare hclean ⊢
    have hbefore : (([] ++ before).map Prod.fst).Nodup :=
      hnames.sublist ((List.sublist_append_left before [entry]).map _)
    obtain ⟨reader, hrun, hfinish, -⟩ := Reader.exists_run_pasteLine
      (Reader.lookup_of_nodup hnames) (hbare entry (List.mem_append_right _ List.mem_cons_self))
      (hclean entry (List.mem_append_right _ List.mem_cons_self))
    rw [read, Reader.run_paste_append before entry [] hbefore
      (fun other hmem ↦ hbare other (List.mem_append_left _ hmem))
      (fun other hmem ↦ hclean other (List.mem_append_left _ hmem)), List.nil_append, paste,
      List.map_singleton, List.intercalate_singleton, hrun]
    exact hfinish

/-! ### What is not clean falls behind -/

namespace Quoted

/-- The number of characters that have been read into a string, with quotation marks that may turn
out to be its end. -/
def size : Quoted → ℕ
  | .opened | .doubled | .tripled => 0
  | .line text | .escape _ text | .unicode _ text _ _ | .joining text _ => text.length
  | .block text quotes => text.length + quotes

/-- A string that goes on has one character more at most, and one that ends has none of the
quotation marks that end it. -/
def Within (bound : ℕ) : Progress → Prop
  | .inside quoted => quoted.size ≤ bound + 1
  | .closed text => text.length ≤ bound
  | .closedBefore text => text = [] ∨ text.length + 3 ≤ bound
  | .failed => True

theorem size_resume (several : Bool) (text : Text) : (resume several text).size = text.length := by
  cases several <;> rfl

theorem within_lineStep (text : Text) (c : Char) : Within text.length (lineStep text c) := by
  unfold lineStep
  split_ifs
  · exact le_rfl
  · exact Nat.le_succ _
  · trivial
  · exact List.length_append.le

theorem within_blockStep (text : Text) (quotes : ℕ) (c : Char) :
    Within (text.length + quotes) (blockStep text quotes c) := by
  unfold blockStep
  split_ifs with hquote hfew hthree hbackslash hcontrol
  · exact le_rfl
  · trivial
  · refine Or.inr ?_
    rw [List.length_append, List.length_replicate]
    omega
  · show (text ++ List.replicate quotes '"').length ≤ _
    rw [List.length_append, List.length_replicate]
    exact Nat.le_succ _
  · trivial
  · show (text ++ List.replicate quotes '"' ++ [c]).length ≤ _
    rw [List.length_append, List.length_append, List.length_replicate]
    exact le_rfl

theorem within_escapeStep (several : Bool) (text : Text) (c : Char) :
    Within text.length (escapeStep several text c) := by
  unfold escapeStep
  split
  · show (resume several _).size ≤ _
    rw [size_resume, List.length_append]
    exact le_rfl
  · split_ifs
    · exact Nat.le_succ _
    · exact Nat.le_succ _
    · exact Nat.le_succ _
    · exact Nat.le_succ _
    · trivial

theorem within_unicodeStep (several : Bool) (text : Text) (left code : ℕ) (c : Char) :
    Within text.length (unicodeStep several text left code c) := by
  unfold unicodeStep
  split
  · trivial
  · split_ifs
    · exact Nat.le_succ _
    · show (resume several _).size ≤ _
      rw [size_resume, List.length_append]
      exact le_rfl
    · trivial

theorem within_step (quoted : Quoted) (c : Char) : Within quoted.size (quoted.step c) := by
  cases quoted with
  | opened =>
    rw [step]
    split_ifs
    · exact Nat.zero_le _
    · exact within_lineStep [] c
  | doubled =>
    rw [step]
    split_ifs
    · exact Nat.zero_le _
    · exact Or.inl rfl
  | line text => exact within_lineStep text c
  | tripled =>
    rw [step]
    split_ifs
    · exact Nat.zero_le _
    · exact within_blockStep [] 0 c
  | block text quotes => exact within_blockStep text quotes c
  | escape several text => exact within_escapeStep several text c
  | unicode several text left code => exact within_unicodeStep several text left code c
  | joining text broken =>
    rw [step]
    split_ifs
    · exact Nat.le_succ _
    · exact Nat.le_succ _
    · exact within_blockStep text 0 c
    · trivial

/-- The string goes over several lines, and its end has not begun. -/
inductive Open : ℕ → Quoted → Prop
  | block (text : Text) {quotes : ℕ} (hfew : quotes < 3) : Open quotes (.block text quotes)
  | joining (text : Text) : Open 0 (.joining text true)

/-- Only a string that goes over several lines is read on at the end of a line. -/
theorem open_of_newline {quoted quoted' : Quoted} (hstep : quoted.step '\n' = .inside quoted') :
    Open 0 quoted' := by
  have hblock : ∀ text quotes, blockStep text quotes '\n' = .inside quoted' → Open 0 quoted' := by
    intro text quotes hblock
    unfold blockStep at hblock
    rw [if_neg (by decide)] at hblock
    split_ifs at hblock with hthree hcontrol
    · exact absurd hcontrol (by decide)
    · cases hblock
      exact .block _ (by decide)
  cases quoted with
  | opened | doubled | line text | unicode several text left code => cases hstep
  | tripled =>
    cases hstep
    exact .block _ (by decide)
  | block text quotes => exact hblock text quotes hstep
  | escape several text =>
    cases several with
    | false => cases hstep
    | true =>
      cases hstep
      exact .joining text
  | joining text broken =>
    cases hstep
    exact .joining text

/-- A string on one line does not end with the line. -/
theorem not_closed_newline (quoted : Quoted) (text : Text) : quoted.step '\n' ≠ .closed text := by
  intro hstep
  have hblock : ∀ read quotes, blockStep read quotes '\n' ≠ .closed text := by
    intro read quotes hblock
    unfold blockStep at hblock
    rw [if_neg (by decide)] at hblock
    split_ifs at hblock
  cases quoted with
  | opened | doubled | line read | tripled | unicode several read left code => cases hstep
  | block read quotes => exact hblock read quotes hstep
  | escape several read => cases several <;> cases hstep
  | joining read broken => cases hstep

end Quoted

/-- Never three quotation marks in a row, `quotes` of which stand before the text, and nothing that
would not be clean otherwise but the ends of lines. -/
def staysOpen : ℕ → Text → Bool
  | quotes, [] => decide (quotes < 3)
  | quotes, c :: rest =>
    if c = '"' then decide (quotes < 2) && staysOpen (quotes + 1) rest
    else (isClean c || c == '\n') && staysOpen 0 rest

namespace Quoted

theorem Open.lt {quotes : ℕ} {quoted : Quoted} (hopen : Open quotes quoted) : quotes < 3 := by
  cases hopen with
  | block text hfew => exact hfew
  | joining text => decide

/-- A quotation mark, not yet the third. -/
theorem Open.step_quote {quotes : ℕ} {quoted : Quoted} (hopen : Open quotes quoted)
    (hfew : quotes < 2) : ∃ quoted', quoted.step '"' = .inside quoted' ∧
      Open (quotes + 1) quoted' := by
  cases hopen with
  | block text hthree =>
    refine ⟨.block text (quotes + 1), ?_, .block text (Nat.succ_lt_succ hfew)⟩
    rw [step, blockStep, if_pos rfl, if_pos (hthree.trans (by decide))]
  | joining text => exact ⟨.block text 1, rfl, .block text (by decide)⟩

/-- Any other character that is clean or ends a line. -/
theorem Open.step_other {quotes : ℕ} {quoted : Quoted} (hopen : Open quotes quoted)
    (hquote : c ≠ '"') (hother : (isClean c || c == '\n') = true) :
    ∃ quoted', quoted.step c = .inside quoted' ∧ Open 0 quoted' := by
  have hbackslash : c ≠ '\\' := by
    rintro rfl
    exact absurd hother (by decide)
  have hcontrol : ¬ (isControl c && c != '\n') = true := by
    rw [Bool.or_eq_true, isClean_iff, beq_iff_eq] at hother
    rw [Bool.and_eq_true, bne_iff_ne]
    rintro ⟨hc, hnewline⟩
    rcases hother with hclean | heq
    · exact Bool.false_ne_true (hclean.2.2.symm.trans hc)
    · exact hnewline heq
  have hblock : ∀ text quotes, quotes < 3 →
      ∃ quoted', blockStep text quotes c = .inside quoted' ∧ Open 0 quoted' := by
    intro text quotes hfew
    refine ⟨.block (text ++ List.replicate quotes '"' ++ [c]) 0, ?_, .block _ (by decide)⟩
    rw [blockStep, if_neg hquote, if_neg (Nat.not_le.mpr hfew), if_neg hbackslash,
      if_neg hcontrol]
  cases hopen with
  | block text hfew => exact hblock text quotes hfew
  | joining text =>
    rw [step, if_pos rfl]
    split_ifs
    · exact ⟨_, rfl, .joining text⟩
    · exact ⟨_, rfl, .joining text⟩
    · exact hblock text 0 (by decide)

end Quoted

namespace Reader

/-- A string over several lines is not ended by a text without three quotation marks in a row. -/
theorem finish_of_staysOpen {quotes : ℕ} {quoted : Quoted} (hopen : quoted.Open quotes)
    (hstays : staysOpen quotes text = true) :
    (run step ⟨table, .string name quoted⟩ text).bind finish = none := by
  induction text generalizing quotes quoted with
  | nil =>
    rw [run_nil, Option.bind_some]
    cases hopen with
    | block text hfew =>
      unfold finish Quoted.finish
      dsimp only
      rw [if_neg (Nat.not_le.mpr hfew)]
      rfl
    | joining text => rfl
  | cons c rest ih =>
    obtain ⟨quoted', quotes', hstep, hopen', hrest⟩ : ∃ quoted' quotes',
        quoted.step c = .inside quoted' ∧ quoted'.Open quotes' ∧
          staysOpen quotes' rest = true := by
      unfold staysOpen at hstays
      by_cases hquote : c = '"'
      · subst hquote
        rw [if_pos rfl, Bool.and_eq_true, decide_eq_true_eq] at hstays
        obtain ⟨quoted', hstep, hopen'⟩ := hopen.step_quote hstays.1
        exact ⟨quoted', quotes + 1, hstep, hopen', hstays.2⟩
      · rw [if_neg hquote, Bool.and_eq_true] at hstays
        obtain ⟨quoted', hstep, hopen'⟩ := hopen.step_other hquote hstays.1
        exact ⟨quoted', 0, hstep, hopen', hstays.2⟩
    rw [run_cons, step_string, hstep]
    exact ih hopen' hrest

/-! ### Entries stay -/

theorem prefix_of_record {value : Value} {table' : Table}
    (hrecord : record table name value = some table') : table' = table ++ [(name, value)] := by
  unfold record at hrecord
  split_ifs at hrecord
  exact (Option.some.inj hrecord).symm

theorem lookup_of_record {value : Value} {table' : Table}
    (hrecord : record table name value = some table') : table'.lookup name = some value := by
  have hnew : table.lookup name = none := by
    unfold record at hrecord
    split_ifs at hrecord with hold
    exact Option.not_isSome_iff_eq_none.mp hold
  rw [prefix_of_record hrecord, List.lookup_append, hnew, Option.none_or, List.lookup_cons,
    beq_self_eq_true]

theorem table_of_afterValue {reader : Reader} (hstep : afterValue table c = some reader) :
    reader.table = table := by
  unfold afterValue at hstep
  split_ifs at hstep <;> cases hstep <;> rfl

theorem table_of_afterKey {reader : Reader} (hstep : afterKey table name c = some reader) :
    reader.table = table := by
  unfold afterKey at hstep
  split_ifs at hstep <;> cases hstep <;> rfl

/-- An entry is recorded, and the character that comes behind the value is read. -/
theorem prefix_of_bind {value : Value} {reader : Reader}
    (hstep : (record table name value).bind (afterValue · c) = some reader) :
    table <+: reader.table := by
  obtain ⟨table', hrecord, hafter⟩ := Option.bind_eq_some_iff.mp hstep
  rw [table_of_afterValue hafter, prefix_of_record hrecord]
  exact List.prefix_append _ _

/-- A step keeps the entries. -/
theorem prefix_of_step {reader reader' : Reader} (hstep : step reader c = some reader') :
    reader.table <+: reader'.table := by
  obtain ⟨table, mode⟩ := reader
  cases mode with
  | start =>
    unfold step at hstep
    dsimp only at hstep
    split_ifs at hstep <;> cases hstep <;> exact List.prefix_rfl
  | comment =>
    unfold step at hstep
    dsimp only at hstep
    split_ifs at hstep <;> cases hstep <;> exact List.prefix_rfl
  | key name =>
    unfold step at hstep
    dsimp only at hstep
    split_ifs at hstep
    · cases hstep
      exact List.prefix_rfl
    · exact (table_of_afterKey hstep).symm ▸ List.prefix_rfl
  | gap name => exact (table_of_afterKey hstep).symm ▸ List.prefix_rfl
  | value name =>
    unfold step at hstep
    dsimp only at hstep
    split_ifs at hstep <;> cases hstep <;> exact List.prefix_rfl
  | number name value =>
    unfold step at hstep
    dsimp only at hstep
    split_ifs at hstep
    · cases hstep
      exact List.prefix_rfl
    · exact prefix_of_bind hstep
  | string name quoted =>
    rw [step_string] at hstep
    cases hprogress : quoted.step c with
    | inside quoted' =>
      rw [hprogress] at hstep
      cases hstep
      exact List.prefix_rfl
    | closed text =>
      rw [hprogress] at hstep
      obtain ⟨table', hrecord, rfl⟩ := Option.map_eq_some_iff.mp hstep
      rw [prefix_of_record hrecord]
      exact List.prefix_append _ _
    | closedBefore text =>
      rw [hprogress] at hstep
      exact prefix_of_bind hstep
    | failed =>
      rw [hprogress] at hstep
      cases hstep
  | ended => exact (table_of_afterValue hstep).symm ▸ List.prefix_rfl
  | left =>
    cases hstep
    exact List.prefix_rfl

theorem prefix_of_run {reader reader' : Reader} (hrun : run step reader text = some reader') :
    reader.table <+: reader'.table := by
  induction text generalizing reader with
  | nil =>
    cases hrun
    exact List.prefix_rfl
  | cons c rest ih =>
    obtain ⟨next, hstep, hrest⟩ := Option.bind_eq_some_iff.mp hrun
    exact (prefix_of_step hstep).trans (ih hrest)

theorem prefix_of_finish {reader : Reader} {result : Table}
    (hfinish : reader.finish = some result) : reader.table <+: result := by
  obtain ⟨table, mode⟩ := reader
  cases mode with
  | start | comment | ended | left =>
    cases hfinish
    exact List.prefix_rfl
  | key name | gap name | value name => cases hfinish
  | number name value =>
    rw [prefix_of_record hfinish]
    exact List.prefix_append _ _
  | string name quoted =>
    obtain ⟨text, -, hrecord⟩ := Option.bind_eq_some_iff.mp hfinish
    rw [prefix_of_record hrecord]
    exact List.prefix_append _ _

theorem lookup_mono {table' : Table} (hstarts : table <+: table') {value : Value}
    (hlookup : table.lookup name = some value) : table'.lookup name = some value := by
  obtain ⟨rest, rfl⟩ := hstarts
  rw [List.lookup_append, hlookup, Option.some_or]

/-! ### A text that is read shorter -/

/-- A string shorter than a bound has been recorded under a name. -/
def Short (name : Text) (bound : ℕ) (reader : Reader) : Prop :=
  ∃ text, reader.table.lookup name = some (.string text) ∧ text.length < bound

/-- It has been recorded, or the string that is read has fewer than `count` characters yet. -/
def Behind (name : Text) (bound count : ℕ) (reader : Reader) : Prop :=
  reader.Short name bound ∨
    ∃ quoted, reader.mode = .string name quoted ∧ quoted.size < count

variable {bound count : ℕ}

theorem Short.mono {reader reader' : Reader} (hshort : reader.Short name bound)
    (hstarts : reader.table <+: reader'.table) : reader'.Short name bound := by
  obtain ⟨text, hlookup, hlt⟩ := hshort
  exact ⟨text, lookup_mono hstarts hlookup, hlt⟩

/-- A string that ends within the bound is short. -/
theorem short_of_stringStep {reader : Reader} {quoted : Quoted} (hsize : quoted.size < bound)
    (hbound : 0 < bound) (hstep : step ⟨table, .string name quoted⟩ c = some reader) :
    reader.Short name bound ∨
      ∃ quoted', quoted.step c = .inside quoted' ∧ reader = ⟨table, .string name quoted'⟩ := by
  have hwithin := quoted.within_step c
  rw [step_string] at hstep
  cases hprogress : quoted.step c with
  | inside quoted' =>
    rw [hprogress] at hstep
    cases hstep
    exact Or.inr ⟨quoted', rfl, rfl⟩
  | closed text =>
    rw [hprogress] at hstep hwithin
    obtain ⟨table', hrecord, rfl⟩ := Option.map_eq_some_iff.mp hstep
    exact Or.inl ⟨text, lookup_of_record hrecord, lt_of_le_of_lt hwithin hsize⟩
  | closedBefore text =>
    rw [hprogress] at hstep hwithin
    obtain ⟨table', hrecord, hafter⟩ := Option.bind_eq_some_iff.mp hstep
    refine Or.inl ⟨text, ?_, ?_⟩
    · rw [table_of_afterValue hafter]
      exact lookup_of_record hrecord
    · rcases hwithin with rfl | hlength
      · exact hbound
      · omega
  | failed =>
    rw [hprogress] at hstep
    cases hstep

theorem Behind.step {reader reader' : Reader} (hbehind : reader.Behind name bound count)
    (hcount : count ≤ bound) (hstep : Reader.step reader c = some reader') :
    reader'.Behind name bound (count + 1) := by
  rcases hbehind with hshort | ⟨quoted, hmode, hsize⟩
  · exact Or.inl (hshort.mono (prefix_of_step hstep))
  · obtain ⟨table, mode⟩ := reader
    subst hmode
    have hwithin := quoted.within_step c
    rcases short_of_stringStep (hsize.trans_le hcount) (by omega) hstep with
      hshort | ⟨quoted', hprogress, rfl⟩
    · exact Or.inl hshort
    · rw [hprogress] at hwithin
      exact Or.inr ⟨quoted', rfl, lt_of_le_of_lt hwithin (Nat.succ_lt_succ hsize)⟩

theorem Behind.run {reader reader' : Reader} (hbehind : reader.Behind name bound count)
    (hcount : count + text.length ≤ bound + 1)
    (hrun : Runs.run Reader.step reader text = some reader') :
    reader'.Behind name bound (count + text.length) := by
  induction text generalizing reader count with
  | nil =>
    cases hrun
    exact hbehind
  | cons c rest ih =>
    obtain ⟨next, hstep, hrest⟩ := Option.bind_eq_some_iff.mp hrun
    rw [List.length_cons] at hcount ⊢
    have hnext := ih (hbehind.step (by omega) hstep) (by omega) hrest
    rwa [Nat.add_right_comm] at hnext

/-- A character that is not clean is not read as it is. -/
theorem size_lineStep {quoted : Quoted} (hc : ¬ isClean c = true)
    (hprogress : Quoted.lineStep text c = .inside quoted) : quoted.size ≤ text.length := by
  unfold Quoted.lineStep at hprogress
  split_ifs at hprogress with hquote hbackslash hcontrol
  · cases hprogress
    exact le_rfl
  · refine absurd (isClean_iff.mpr ⟨hquote, hbackslash, ?_⟩) hc
    exact Bool.eq_false_of_not_eq_true hcontrol

/-- Up to the first character that is not clean, a string has as many characters as have been read;
from there on it is behind. -/
theorem behind_of_not_clean {reader : Reader} {quoted : Quoted}
    (heven : quoted = .opened ∨ ∃ read, quoted = .line read) (hnot : ¬ Clean text)
    (hbound : quoted.size + text.length ≤ bound)
    (hrun : run step ⟨table, .string name quoted⟩ text = some reader) :
    reader.Behind name bound (quoted.size + text.length) := by
  induction text generalizing quoted with
  | nil => exact absurd (fun c hmem ↦ absurd hmem List.not_mem_nil) hnot
  | cons c rest ih =>
    obtain ⟨next, hstep, hrest⟩ := Option.bind_eq_some_iff.mp hrun
    rw [List.length_cons] at hbound ⊢
    by_cases hc : isClean c = true
    · have hline : ∃ read, quoted.step c = .inside (.line read) ∧
          read.length = quoted.size + 1 := by
        rcases heven with rfl | ⟨read, rfl⟩
        · refine ⟨[] ++ [c], ?_, rfl⟩
          rw [Quoted.step, if_neg (isClean_iff.mp hc).1, step_line hc]
        · exact ⟨read ++ [c], step_line hc read, List.length_append⟩
      obtain ⟨read, hprogress, hlength⟩ := hline
      rw [step_string, hprogress] at hstep
      cases hstep
      have hbehind := ih (Or.inr ⟨read, rfl⟩)
        (fun hclean ↦ hnot (List.forall_mem_cons.mpr ⟨hc, hclean⟩))
        (by rw [Quoted.size, hlength]; omega) hrest
      rw [Quoted.size, hlength] at hbehind
      rwa [Nat.add_right_comm] at hbehind
    · have hnext : next.Behind name bound (quoted.size + 1) := by
        have hsize : quoted.size < bound := by omega
        rcases short_of_stringStep hsize (Nat.zero_lt_of_lt hsize) hstep with
          hshort | ⟨quoted', hprogress, rfl⟩
        · exact Or.inl hshort
        · refine Or.inr ⟨quoted', rfl, Nat.lt_succ_of_le ?_⟩
          rcases heven with rfl | ⟨read, rfl⟩
          · rw [Quoted.step] at hprogress
            split_ifs at hprogress
            · cases hprogress
              exact le_rfl
            · exact size_lineStep hc hprogress
          · exact size_lineStep hc hprogress
      have hbehind := hnext.run (by omega) hrest
      rwa [Nat.add_right_comm] at hbehind

/-- Behind the quotation mark and the end of the line that were pasted, a string that is behind has
ended short or is open. -/
theorem Behind.newline {reader reader' : Reader} (hbehind : reader.Behind name bound bound)
    (hbound : 0 < bound) (hrun : Runs.run Reader.step reader ['"', '\n'] = some reader') :
    reader'.Short name bound ∨
      ∃ table quoted, reader' = ⟨table, .string name quoted⟩ ∧ quoted.Open 0 := by
  obtain ⟨next, hquote, hrest⟩ := Option.bind_eq_some_iff.mp hrun
  obtain ⟨last, hnewline, hlast⟩ := Option.bind_eq_some_iff.mp hrest
  cases hlast
  have hnext := hbehind.step le_rfl hquote
  rcases hnext with hshort | ⟨quoted, hmode, hsize⟩
  · exact Or.inl (hshort.mono (prefix_of_step hnewline))
  · obtain ⟨table, mode⟩ := next
    subst hmode
    have hwithin := quoted.within_step '\n'
    rw [step_string] at hnewline
    cases hprogress : quoted.step '\n' with
    | inside quoted' =>
      rw [hprogress] at hnewline
      cases hnewline
      exact Or.inr ⟨table, quoted', rfl, Quoted.open_of_newline hprogress⟩
    | closed text => exact absurd hprogress (quoted.not_closed_newline text)
    | closedBefore text =>
      rw [hprogress] at hnewline hwithin
      obtain ⟨table', hrecord, hafter⟩ := Option.bind_eq_some_iff.mp hnewline
      refine Or.inl ⟨text, ?_, ?_⟩
      · rw [table_of_afterValue hafter]
        exact lookup_of_record hrecord
      · rcases hwithin with rfl | hlength
        · exact hbound
        · omega
    | failed =>
      rw [hprogress] at hnewline
      cases hnewline

end Reader

/-- A text that is read as what was pasted is clean, where what follows it has no three quotation
marks in a row. -/
theorem clean_of_read {rest : Text} {result : Table} (hrest : staysOpen 0 rest = true)
    (hread : (run Reader.step ⟨table, .string name .opened⟩
      (text ++ ['"', '\n'] ++ rest)).bind Reader.finish = some result)
    (hlookup : result.lookup name = some (.string text)) : Clean text := by
  by_contra hnot
  obtain ⟨last, hrun, hfinish⟩ := Option.bind_eq_some_iff.mp hread
  rw [run_append] at hrun
  obtain ⟨next, hline, hrun⟩ := Option.bind_eq_some_iff.mp hrun
  rw [run_append] at hline
  obtain ⟨reader, htext, hline⟩ := Option.bind_eq_some_iff.mp hline
  have hpos : 0 < text.length := by
    rw [List.length_pos_iff]
    rintro rfl
    exact hnot fun c hmem ↦ absurd hmem List.not_mem_nil
  have hbehind := Reader.behind_of_not_clean (Or.inl rfl) hnot (Nat.zero_add text.length).le htext
  rw [Quoted.size, Nat.zero_add] at hbehind
  rcases hbehind.newline hpos hline with hshort | ⟨table', quoted, rfl, hopen⟩
  · have hlast := hshort.mono (Reader.prefix_of_run hrun)
    obtain ⟨read, hread, hlt⟩ := hlast
    have heq := (Reader.lookup_mono (Reader.prefix_of_finish hfinish) hread).symm.trans hlookup
    cases heq
    exact lt_irrefl _ hlt
  · have hnone : (run Reader.step ⟨table', .string name quoted⟩ rest).bind Reader.finish = none :=
      Reader.finish_of_staysOpen hopen hrest
    rw [hrun] at hnone
    exact Option.some_ne_none _ (hfinish.symm.trans hnone)

/-! ### Pasted lines have no three quotation marks in a row -/

theorem isClean_of_isKeyChar (hkey : isKeyChar c = true) : isClean c = true := by
  have hother : ∀ d, isKeyChar d = false → c ≠ d := by
    rintro d hd rfl
    exact Bool.false_ne_true (hd.symm.trans hkey)
  refine isClean_iff.mpr ⟨hother '"' rfl, hother '\\' rfl, ?_⟩
  have hbounds : 0x2D ≤ c.toNat ∧ c.toNat ≤ 0x7A := by
    rw [isKeyChar, Bool.or_eq_true, Bool.or_eq_true, beq_iff_eq, beq_iff_eq] at hkey
    rcases hkey with (halphanum | rfl) | rfl
    · rcases (Bool.or_eq_true _ _).mp halphanum with halpha | hdigit
      · rcases (Bool.or_eq_true _ _).mp halpha with hupper | hlower
        · obtain ⟨hlo, hhi⟩ : 65 ≤ c.toNat ∧ c.toNat ≤ 90 := of_decide_eq_true hupper
          omega
        · obtain ⟨hlo, hhi⟩ := (Bool.and_eq_true _ _).mp hlower
          have hlo' : 97 ≤ c.toNat := of_decide_eq_true hlo
          have hhi' : c.toNat ≤ 122 := of_decide_eq_true hhi
          omega
      · obtain ⟨hlo, hhi⟩ := (isDigit_iff c).mp hdigit
        omega
    · decide
    · decide
  simp only [isControl, Bool.or_eq_false_iff, Bool.and_eq_false_iff, decide_eq_false_iff_not,
    beq_eq_false_iff_ne]
  exact ⟨Or.inl (by omega), by omega⟩

theorem isClean_of_isDigit (hdigit : c.isDigit = true) : isClean c = true := by
  refine isClean_of_isKeyChar ?_
  rw [isKeyChar, Char.isAlphanum, hdigit, Bool.or_true]
  rfl

theorem staysOpen_clean {quotes : ℕ} {rest : Text} (hc : isClean c = true) :
    staysOpen quotes (c :: rest) = staysOpen 0 rest := by
  rw [staysOpen, if_neg (isClean_iff.mp hc).1, hc]
  rfl

theorem staysOpen_append {quotes : ℕ} {rest : Text} (hne : text ≠ []) (hclean : Clean text) :
    staysOpen quotes (text ++ rest) = staysOpen 0 rest := by
  induction text generalizing quotes with
  | nil => exact absurd rfl hne
  | cons c others ih =>
    rw [List.cons_append, staysOpen_clean (hclean c List.mem_cons_self)]
    cases others with
    | nil => rfl
    | cons d others =>
      exact ih (List.cons_ne_nil _ _) fun e he ↦ hclean e (List.mem_cons_of_mem _ he)

/-- Behind a pasted line there are two quotation marks at most. -/
theorem exists_staysOpen_pasteLine {entry : Text × Value} (hbare : Bare entry.1)
    (hclean : entry.2.Clean) (rest : Text) :
    ∃ quotes < 3, staysOpen 0 (pasteLine entry ++ rest) = staysOpen quotes rest := by
  obtain ⟨name, value⟩ := entry
  have hname : Clean name := fun c hc ↦ isClean_of_isKeyChar (hbare.2 c hc)
  rw [pasteLine, List.append_assoc, List.append_assoc, staysOpen_append hbare.1 hname,
    staysOpen_append (List.cons_ne_nil _ _) (by decide)]
  cases value with
  | integer value =>
    refine ⟨0, by decide, staysOpen_append (decimal_ne_nil value) ?_⟩
    exact fun c hc ↦ isClean_of_isDigit (isDigit_of_mem_decimal hc)
  | string text =>
    have hopen : staysOpen 0 ((Value.string text).paste ++ rest) =
        staysOpen 1 (text ++ '"' :: rest) := by
      rw [Value.paste, List.cons_append, List.cons_append, List.append_assoc]
      rfl
    rw [hopen]
    by_cases hnil : text = []
    · subst hnil
      exact ⟨2, by decide, rfl⟩
    · exact ⟨1, by decide, staysOpen_append hnil hclean⟩

theorem staysOpen_paste (hbare : ∀ entry ∈ table, Bare entry.1)
    (hclean : ∀ entry ∈ table, entry.2.Clean) : staysOpen 0 (paste table) = true := by
  induction table with
  | nil => rfl
  | cons entry rest ih =>
    rw [List.forall_mem_cons] at hbare hclean
    cases rest with
    | nil =>
      obtain ⟨quotes, hlt, hline⟩ := exists_staysOpen_pasteLine hbare.1 hclean.1 []
      rw [List.append_nil] at hline
      rw [paste, List.map_singleton, List.intercalate_singleton, hline]
      exact decide_eq_true hlt
    | cons next rest =>
      have hrest := ih hbare.2 hclean.2
      rw [paste, List.map_cons, List.map_cons, List.intercalate_cons_cons, ← List.map_cons, ← paste,
        List.append_assoc]
      obtain ⟨quotes, -, hline⟩ := exists_staysOpen_pasteLine hbare.1 hclean.1 (['\n'] ++ paste _)
      rw [hline]
      exact hrest

/-- In a pasted table, a text that is read back under its key is clean, where the other texts are
and it does not end the table. -/
theorem clean_of_read_paste {before after : Table} {next : Text × Value} {result : Table}
    (hnames : ((before ++ [(name, Value.string text)]).map Prod.fst).Nodup) (hname : Bare name)
    (hbare : ∀ entry ∈ before ++ next :: after, Bare entry.1)
    (hclean : ∀ entry ∈ before ++ next :: after, entry.2.Clean)
    (hread : read (paste (before ++ (name, .string text) :: next :: after)) = some result)
    (hlookup : result.lookup name = some (.string text)) : Clean text := by
  have hbefore : (([] ++ before).map Prod.fst).Nodup :=
    hnames.sublist ((List.sublist_append_left before _).map _)
  have hrest : staysOpen 0 (paste (next :: after)) = true :=
    staysOpen_paste (fun entry hmem ↦ hbare entry (List.mem_append_right _ hmem))
      fun entry hmem ↦ hclean entry (List.mem_append_right _ hmem)
  have hparts : '"' :: text ++ ['"'] ++ (['\n'] ++ paste (next :: after)) =
      '"' :: (text ++ ['"', '\n'] ++ paste (next :: after)) := by
    simp only [List.cons_append, List.append_assoc, List.nil_append]
  have hrun : (run Reader.step ⟨before, .string name .opened⟩
      (text ++ ['"', '\n'] ++ paste (next :: after))).bind Reader.finish = some result := by
    rw [read, Reader.run_paste_append before _ _ hbefore
      (fun entry hmem ↦ hbare entry (List.mem_append_left _ hmem))
      (fun entry hmem ↦ hclean entry (List.mem_append_left _ hmem)), List.nil_append,
      Reader.paste_cons_cons, pasteLine, List.append_assoc, List.append_assoc, run_append,
      Reader.run_key hname, Option.bind_some, Value.paste, hparts, run_cons] at hread
    exact hread
  exact clean_of_read hrest hrun hlookup

/-! ### A table in a document -/

section Behind

variable {header : Text}

theorem behind_header (header rest : Text) :
    behind header true (header ++ '\n' :: rest) = some rest := by
  have hstarts : (header ++ ['\n']).isPrefixOf (header ++ '\n' :: rest) = true :=
    List.isPrefixOf_iff_prefix.mpr ⟨rest, List.append_assoc _ _ _⟩
  have hdrop : (header ++ '\n' :: rest).drop (header.length + 1) = rest := by
    rw [← List.drop_drop, List.drop_left]
    rfl
  cases header with
  | nil => rfl
  | cons c others =>
    rw [List.cons_append, behind]
    exact (if_pos hstarts).trans (congrArg some hdrop)

/-- No line that begins in the text is the header, whatever follows the text. -/
def passes (header : Text) : Bool → Text → Bool
  | _, [] => true
  | fresh, c :: rest =>
    !(fresh && ((header ++ ['\n']).isPrefixOf (c :: rest) ||
      (c :: rest).isPrefixOf (header ++ ['\n']))) && passes header (c == '\n') rest

/-- Whether a line starts behind a text. -/
def freshBehind (fresh : Bool) (text : Text) : Bool :=
  (text.getLast?.map (· == '\n')).getD fresh

theorem behind_append {fresh : Bool} {before : Text} (hpasses : passes header fresh before = true)
    (rest : Text) :
    behind header fresh (before ++ rest) = behind header (freshBehind fresh before) rest := by
  induction before generalizing fresh with
  | nil => rfl
  | cons c others ih =>
    rw [passes, Bool.and_eq_true, Bool.not_eq_true', Bool.and_eq_false_iff] at hpasses
    have hnot : ¬ (fresh && (header ++ ['\n']).isPrefixOf (c :: (others ++ rest))) = true := by
      rw [Bool.and_eq_true, List.isPrefixOf_iff_prefix, ← List.cons_append]
      rintro ⟨hfresh, hstarts⟩
      rcases hpasses.1 with hfalse | hneither
      · exact Bool.false_ne_true (hfalse.symm.trans hfresh)
      · rw [Bool.or_eq_false_iff] at hneither
        rcases List.prefix_or_prefix_of_prefix hstarts (List.prefix_append (c :: others) rest) with
          hwithin | hbeyond
        · exact Bool.false_ne_true
            (hneither.1.symm.trans (List.isPrefixOf_iff_prefix.mpr hwithin))
        · exact Bool.false_ne_true
            (hneither.2.symm.trans (List.isPrefixOf_iff_prefix.mpr hbeyond))
    have hfresh : freshBehind fresh (c :: others) = freshBehind (c == '\n') others := by
      cases others with
      | nil => rfl
      | cons d others => rw [freshBehind, freshBehind, List.getLast?_cons_cons]; rfl
    rw [List.cons_append, behind, if_neg hnot, ih hpasses.2, hfresh]

/-- The rest of a line. -/
theorem behind_false {line : Text} (hline : '\n' ∉ line) (rest : Text) :
    behind header false (line ++ rest) = behind header false rest := by
  induction line with
  | nil => rfl
  | cons c others ih =>
    rw [List.mem_cons, not_or] at hline
    have hc : (c == '\n') = false := beq_false_of_ne (Ne.symm hline.1)
    rw [List.cons_append, behind, Bool.false_and, if_neg Bool.false_ne_true, hc, ih hline.2]

end Behind

end WindscribeVpn.Foundations.Toml
