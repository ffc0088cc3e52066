import WindscribeVpn.Backend.WgQuick
import WindscribeVpn.Foundations.Lines
import Mathlib.Tactic.FinCases

/-!
# No key in the log

`withoutWgSecrets` in `VPNProfileCreator` drops the lines of a wg-quick text that start with the
name of a key, before the text is logged. The text is written elsewhere, with attributes of which
some are free texts.

`keysHidden` is the promise: configs that differ in their keys only give the same text, whatever
the attributes are, since a key is written on lines of its own and has no break in it. What is left
are the lines of the text without the keys (`publicText`), in their order, but for lines in free
texts that themselves start with the name of a key; without breaks in the attributes there are none
of those.
-/

set_option autoImplicit false
set_option relaxedAutoImplicit false

namespace WindscribeVpn.Backend.WgSecrets

open Foundations.Texts Foundations.Lines AllowedIps WgKey WgQuick

/-! ### The filter -/

/-- `Char.isWhitespace`. -/
def isWhitespace (c : Char) : Bool :=
  let n := c.toNat
  (9 ≤ n && n ≤ 13) || (28 ≤ n && n ≤ 32) || n == 0xA0 || n == 0x1680 ||
    (0x2000 ≤ n && n ≤ 0x200A) || n == 0x2028 || n == 0x2029 || n == 0x202F || n == 0x205F ||
    n == 0x3000

/-- `trimStart`. -/
def trimStart (text : Text) : Text := text.dropWhile isWhitespace

/-- `trim`. -/
def trim (text : Text) : Text := (text.dropWhile isWhitespace).rdropWhile isWhitespace

/-- The names of the attributes that hold keys. -/
def keyNames : List Text := ["PrivateKey".toList, "PreSharedKey".toList, "PublicKey".toList]

/-- A line that starts with the name of a key, after blanks. -/
def isKeyLine (line : Text) : Bool := keyNames.any fun name ↦ name.isPrefixOf (trimStart line)

/-- `withoutWgSecrets`. -/
def withoutWgSecrets (text : Text) : Text :=
  [' '].intercalate (((lines text).filter fun line ↦ !isKeyLine line).map trim)

/-! ### The promise -/

variable (platform : Platform)

/-- A peer without its keys; whether there is a pre-shared key is kept. -/
def hidePeer (key : Key) (peer : Peer) : Peer :=
  { peer with preSharedKey := peer.preSharedKey.map fun _ ↦ key, publicKey := key }

/-- A config whose keys are all replaced by one. -/
def hideKeys (key : Key) (config : Config) : Config :=
  { interface := { config.interface with privateKey := key }
    peers := config.peers.map (hidePeer key) }

/-- Two configs are equal except for the keys, of which the same ones are present. -/
def EqualExceptKeys (config other : Config) : Prop :=
  ∀ key, hideKeys key config = hideKeys key other

/-- The wg-quick text without the keys. -/
def publicText (config : Config) : Text :=
  "[Interface]\n".toList ++ (config.interface.entries platform).flatMap attributeLine ++
    config.peers.flatMap fun peer ↦
      "\n[Peer]\n".toList ++ (peer.entries platform).flatMap attributeLine

/-- All attributes of a config but the keys. -/
def entries (config : Config) : List (Text × Option Text) :=
  config.interface.entries platform ++ config.peers.flatMap (Peer.entries platform)

/-- What the log gets of a config. -/
structure KeysHidden (config : Config) : Prop where
  /-- Other keys give the same text. -/
  twoRuns : ∀ other, EqualExceptKeys config other →
    withoutWgSecrets (config.toWgQuickString platform) =
      withoutWgSecrets (other.toWgQuickString platform)
  /-- The lines that do not start with the name of a key are kept in their order; they are lines of
  the text without the keys. -/
  kept : withoutWgSecrets (config.toWgQuickString platform) =
    [' '].intercalate (((lines (publicText platform config)).filter fun line ↦
      !isKeyLine line).map trim)
  /-- Without breaks in the attributes all lines of the text without the keys are kept. -/
  keptAll : (∀ entry ∈ entries platform config, ∀ value, entry.2 = some value → Unbroken value) →
    withoutWgSecrets (config.toWgQuickString platform) =
      [' '].intercalate ((lines (publicText platform config)).map trim)

/-! ### The lines of keys -/

theorem unbroken_toBase64 (key : Key) : Unbroken key.toBase64 := by
  intro c hmem
  have hbase64 := isBase64_of_mem_writeBytes hmem
  cases hbreak : isBreak c with
  | false => rfl
  | true =>
    simp only [isBreak, Bool.or_eq_true, beq_iff_eq] at hbreak
    rcases hbreak with rfl | rfl
    · exact absurd hbase64 (by decide)
    · exact absurd hbase64 (by decide)

/-- A text that starts with the name of a key. -/
theorem isKeyLine_append {name : Text} (hname : name ∈ keyNames) (rest : Text) :
    isKeyLine (name ++ rest) = true := by
  fin_cases hname <;> rfl

/-- The line of a key is dropped. -/
theorem filter_lines_keyLine {name : Text} (hname : name ∈ keyNames) (key : Key) (after : Text) :
    (lines (keyLine name key ++ after)).filter (fun line ↦ !isKeyLine line) =
      (lines after).filter fun line ↦ !isKeyLine line := by
  have hunbroken : Unbroken (name ++ " = ".toList ++ key.toBase64) := by
    refine (Unbroken.append ?_ (by decide)).append (unbroken_toBase64 key)
    fin_cases hname <;> decide
  have hdropped : (!isKeyLine (name ++ " = ".toList ++ key.toBase64)) = false := by
    rw [List.append_assoc, isKeyLine_append hname]
    rfl
  rw [keyLine, List.append_assoc]
  exact filter_lines_dropped _ hunbroken hdropped after

/-! ### The lines of the other attributes -/

theorem finished_attributeLine (entry : Text × Option Text) : Finished (attributeLine entry) := by
  unfold attributeLine
  split
  · exact finished_nil
  · exact finished_append_newline _

theorem finished_flatMap (entries : List (Text × Option Text)) :
    Finished (entries.flatMap attributeLine) := by
  induction entries with
  | nil => exact finished_nil
  | cons entry rest ih => exact (finished_attributeLine entry).append ih

/-- A peer's lines without those of its keys, before what follows. -/
theorem filter_lines_peer (peer : Peer) {after after' : Text}
    (hafter : (lines after).filter (fun line ↦ !isKeyLine line) =
      (lines after').filter fun line ↦ !isKeyLine line) :
    (lines (peer.toWgQuickString platform ++ after)).filter (fun line ↦ !isKeyLine line) =
      (lines ((peer.entries platform).flatMap attributeLine ++ after')).filter
        fun line ↦ !isKeyLine line := by
  rw [Peer.toWgQuickString, List.append_assoc, List.append_assoc]
  refine filter_lines_append_congr _ (finished_flatMap _) ?_
  cases peer.preSharedKey with
  | none =>
    rw [List.nil_append, filter_lines_keyLine (by decide)]
    exact hafter
  | some key =>
    dsimp only
    rw [filter_lines_keyLine (by decide), filter_lines_keyLine (by decide)]
    exact hafter

theorem filter_lines_peers (peers : List Peer) :
    (lines (peers.flatMap fun peer ↦ "\n[Peer]\n".toList ++ peer.toWgQuickString platform)).filter
        (fun line ↦ !isKeyLine line) =
      (lines (peers.flatMap fun peer ↦
        "\n[Peer]\n".toList ++ (peer.entries platform).flatMap attributeLine)).filter
        fun line ↦ !isKeyLine line := by
  induction peers with
  | nil => rfl
  | cons peer rest ih =>
    rw [List.flatMap_cons, List.flatMap_cons, List.append_assoc, List.append_assoc]
    exact filter_lines_append_congr _ (finished_of_getLast (by decide))
      (filter_lines_peer platform peer ih)

/-- The lines of a config without those of its keys. -/
theorem filter_lines_toWgQuickString (config : Config) :
    (lines (config.toWgQuickString platform)).filter (fun line ↦ !isKeyLine line) =
      (lines (publicText platform config)).filter fun line ↦ !isKeyLine line := by
  have hfinished : Finished ("[Interface]\n".toList ++
      (config.interface.entries platform).flatMap attributeLine) :=
    (finished_of_getLast (by decide)).append (finished_flatMap _)
  have hpeers := filter_lines_peers platform config.peers
  have hkey : "PrivateKey".toList ∈ keyNames := by decide
  rw [← filter_lines_keyLine hkey config.interface.privateKey] at hpeers
  have hlines := filter_lines_append_congr _ hfinished hpeers
  unfold Config.toWgQuickString Interface.toWgQuickString publicText
  rw [← List.append_assoc, List.append_assoc (_ ++ _)]
  exact hlines

/-! ### The lines that are kept -/

/-- The names of the attributes that hold no keys. -/
def publicNames : List Text :=
  ["Address".toList, "DNS".toList, "ExcludedApplications".toList, "IncludedApplications".toList,
    "ListenPort".toList, "MTU".toList, "Jc".toList, "Jmin".toList, "Jmax".toList, "S1".toList,
    "S2".toList, "S3".toList, "S4".toList, "H1".toList, "H2".toList, "H3".toList, "H4".toList,
    "I1".toList, "I2".toList, "I3".toList, "I4".toList, "I5".toList, "AllowedIPs".toList,
    "Endpoint".toList, "PersistentKeepalive".toList]

theorem unbroken_of_mem_publicNames {name : Text} (hname : name ∈ publicNames) :
    Unbroken name := by
  revert name
  decide

/-- No name of another attribute is followed up to the name of a key. -/
theorem isKeyLine_public {name : Text} (hname : name ∈ publicNames) (rest : Text) :
    isKeyLine (name ++ rest) = false := by
  fin_cases hname <;> rfl

theorem fst_mem_publicNames {config : Config} {entry : Text × Option Text}
    (hentry : entry ∈ entries platform config) : entry.1 ∈ publicNames := by
  have hinterface : (config.interface.entries platform).map Prod.fst ⊆ publicNames :=
    List.take_subset 22 publicNames
  have hpeer : ∀ peer : Peer, (peer.entries platform).map Prod.fst ⊆ publicNames :=
    fun peer ↦ List.drop_subset 22 publicNames
  rcases List.mem_append.mp hentry with hmem | hmem
  · exact hinterface (List.mem_map_of_mem hmem)
  · obtain ⟨peer, -, hmem⟩ := List.mem_flatMap.mp hmem
    exact hpeer peer (List.mem_map_of_mem hmem)

/-- Attributes without breaks stand on lines of their own. -/
theorem not_isKeyLine_of_mem_lines {entries : List (Text × Option Text)} {after : Text}
    (hnames : ∀ entry ∈ entries, entry.1 ∈ publicNames)
    (hunbroken : ∀ entry ∈ entries, ∀ value, entry.2 = some value → Unbroken value)
    (hafter : ∀ line ∈ lines after, isKeyLine line = false) :
    ∀ line ∈ lines (entries.flatMap attributeLine ++ after), isKeyLine line = false := by
  induction entries with
  | nil => exact hafter
  | cons entry rest ih =>
    rw [List.forall_mem_cons] at hnames hunbroken
    have hrest := ih hnames.2 hunbroken.2
    obtain ⟨name, value⟩ := entry
    rw [List.flatMap_cons, List.append_assoc]
    cases value with
    | none => exact hrest
    | some value =>
      have hname := hnames.1
      have hline : Unbroken (name ++ " = ".toList ++ value) :=
        ((unbroken_of_mem_publicNames hname).append (by decide)).append (hunbroken.1 value rfl)
      have hlines : lines (attributeLine (name, some value) ++
          (rest.flatMap attributeLine ++ after)) =
          (name ++ " = ".toList ++ value) :: lines (rest.flatMap attributeLine ++ after) := by
        rw [attributeLine, List.append_assoc]
        exact lines_unbroken_append hline _
      rw [hlines, List.forall_mem_cons]
      refine ⟨?_, hrest⟩
      rw [List.append_assoc]
      exact isKeyLine_public hname _

/-- The heading of a section is kept with what follows it. -/
theorem not_isKeyLine_of_mem_heading {heading after : Text} (hfinished : Finished heading)
    (hheading : ∀ line ∈ (lines heading).dropLast, isKeyLine line = false)
    (hafter : ∀ line ∈ lines after, isKeyLine line = false) :
    ∀ line ∈ lines (heading ++ after), isKeyLine line = false := by
  intro line hline
  rw [lines_append hfinished, List.mem_append] at hline
  exact hline.elim (hheading line) (hafter line)

/-- Without breaks in the attributes no line of the text without the keys is dropped. -/
theorem not_isKeyLine_publicText {config : Config}
    (hunbroken : ∀ entry ∈ entries platform config, ∀ value, entry.2 = some value →
      Unbroken value) :
    ∀ line ∈ lines (publicText platform config), isKeyLine line = false := by
  have hpeers : ∀ peers ⊆ config.peers, ∀ line ∈ lines (peers.flatMap fun peer ↦
      "\n[Peer]\n".toList ++ (peer.entries platform).flatMap attributeLine),
      isKeyLine line = false := by
    intro peers hsubset
    induction peers with
    | nil =>
      intro line hline
      rw [List.mem_singleton.mp hline]
      rfl
    | cons peer rest ih =>
      obtain ⟨hpeer, hrest⟩ := List.cons_subset.mp hsubset
      have hmem : ∀ entry ∈ peer.entries platform, entry ∈ entries platform config :=
        fun entry hentry ↦ List.mem_append_right _ (List.mem_flatMap.mpr ⟨peer, hpeer, hentry⟩)
      rw [List.flatMap_cons, List.append_assoc]
      refine not_isKeyLine_of_mem_heading (finished_of_getLast (by decide)) (by decide) ?_
      exact not_isKeyLine_of_mem_lines
        (fun entry hentry ↦ fst_mem_publicNames platform (hmem entry hentry))
        (fun entry hentry ↦ hunbroken entry (hmem entry hentry)) (ih hrest)
  have hmem : ∀ entry ∈ config.interface.entries platform, entry ∈ entries platform config :=
    fun entry hentry ↦ List.mem_append_left _ hentry
  unfold publicText
  rw [List.append_assoc]
  refine not_isKeyLine_of_mem_heading (finished_of_getLast (by decide)) (by decide) ?_
  exact not_isKeyLine_of_mem_lines
    (fun entry hentry ↦ fst_mem_publicNames platform (hmem entry hentry))
    (fun entry hentry ↦ hunbroken entry (hmem entry hentry)) (hpeers _ (List.Subset.refl _))

/-! ### No key reaches the log -/

theorem publicText_hideKeys (key : Key) (config : Config) :
    publicText platform (hideKeys key config) = publicText platform config := by
  unfold publicText hideKeys
  rw [List.flatMap_map]
  rfl

/-- The text without the keys is the same for configs that differ in their keys only. -/
theorem publicText_congr {config other : Config} (hequal : EqualExceptKeys config other) :
    publicText platform config = publicText platform other := by
  have hhidden := hequal ⟨List.replicate 32 0, rfl⟩
  rw [← publicText_hideKeys platform _ config, hhidden, publicText_hideKeys]

/-- No key reaches the log, and everything else does. -/
theorem keysHidden (config : Config) : KeysHidden platform config where
  twoRuns := by
    intro other hequal
    rw [withoutWgSecrets, withoutWgSecrets, filter_lines_toWgQuickString,
      filter_lines_toWgQuickString, publicText_congr platform hequal]
  kept := by
    rw [withoutWgSecrets, filter_lines_toWgQuickString]
  keptAll := by
    intro hunbroken
    rw [withoutWgSecrets, filter_lines_toWgQuickString, List.filter_eq_self.mpr]
    intro line hline
    rw [not_isKeyLine_publicText platform hunbroken line hline]
    rfl

example : withoutWgSecrets "[Interface]\nMTU = 1280\nPrivateKey = AAAA\n\n[Peer]\r\n".toList =
    "[Interface] MTU = 1280  [Peer] ".toList := by decide

end WindscribeVpn.Backend.WgSecrets
