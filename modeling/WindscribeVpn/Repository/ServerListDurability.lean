import WindscribeVpn.Foundations.Runs
import WindscribeVpn.Repository.ServerListRepository
import Mathlib.Data.List.Basic

/-!
# The server list across failures and process death

An update writes to two stores that share no transaction: the table in the database, the revision
and the flag `migrationRequired` in the preferences. A preference has two sides as well. A write is
remembered at once, and the process reads what it remembers; the file gets it later. The flag is
written by `setBooleanSync`, which waits for the file. The revision is written by `setLong`, which
launches the edit and returns, so that edits of the file may come in any order, fail, or be lost
with the process.

`Repairable` is what a stored state owes: the table is the server side's at the stored revision, or
the next update reloads everything, or the delta that the server side returns for the stored
revision completes it. Half of a delta is no harm, since the same delta absorbs what was already
done (`applyTo_onTable`), and half of a reload is none while the flag or the revision still asks for
one. `not_consistent_uncommitted` is a run that breaks it: a reload clears the flag in the file
before its revision is there, and the process dies. `Settled` is the condition on a step that no
earlier revision can come back to the file, and `consistent_of_settled` proves the promise for every
state of every run whose steps all meet it.
-/

set_option autoImplicit false
set_option relaxedAutoImplicit false

namespace WindscribeVpn.Repository.ServerListDurability

open Foundations.Runs Foundations.KeyedTables ServerListRepository

/-! ### The server side -/

/-- The table that a full list stands for. -/
def tableOf (servers : List Server) : Table ℤ Server := upsertAll Server.id servers fun _ ↦ none

/-- The server side: its nodes at each revision, and the inventory it returns to a client that
reports a revision, which is the same until the client reports another. A delta leads from the nodes
at the reported revision to the nodes at its own. -/
structure ServerSide where
  servers : ℕ → List Server
  inventory : ℕ → ServerInventory
  sound : ∀ revision, (inventory revision).action = .delta →
    (inventory revision).applyTo (tableOf (servers revision)) =
      tableOf (servers (inventory revision).revision)

/-- The server side's table at a revision. -/
def ServerSide.tableAt (side : ServerSide) (revision : ℕ) : Table ℤ Server :=
  tableOf (side.servers revision)

/-- What a stored state owes: the table is the one at the stored revision, or the next update
reloads it, or the delta for the stored revision brings it to the delta's revision. -/
def Repairable (side : ServerSide) (table : Table ℤ Server) (serverRevision : ℕ)
    (migrationRequired : Bool) : Prop :=
  table = side.tableAt serverRevision ∨
    needsFullUpdate serverRevision migrationRequired = true ∨
    ((side.inventory serverRevision).action = .delta ∧
      tableAfter (updateServersDelta (side.inventory serverRevision)) table =
        side.tableAt (side.inventory serverRevision).revision)

/-! ### The stores -/

/-- The preferences in the file. -/
structure Preferences where
  serverRevision : ℕ
  migrationRequired : Bool
  deriving DecidableEq, Repr

/-- The stores and the process. `writtenRevision` and `writtenFlag` are what `writtenValues`
remembers, `edits` the revisions whose edit of the file has been launched and has not run, and
`work` the update in the mutex with the statements it has left. -/
structure State where
  table : Table ℤ Server
  file : Preferences
  writtenRevision : Option ℕ
  writtenFlag : Option Bool
  edits : List ℕ
  work : Option (Source × List Statement)

/-- A process that has just started. -/
def State.started (table : Table ℤ Server) (file : Preferences) : State where
  table := table
  file := file
  writtenRevision := none
  writtenFlag := none
  edits := []
  work := none

/-- `preferenceHelper.serverRevision`. -/
def State.serverRevision (s : State) : ℕ := s.writtenRevision.getD s.file.serverRevision

/-- `preferenceHelper.migrationRequired`. -/
def State.migrationRequired (s : State) : Bool := s.writtenFlag.getD s.file.migrationRequired

/-- A statement that succeeds. -/
def State.execute (s : State) : Statement → State
  | .setServerRevision revision =>
    { s with writtenRevision := some revision, edits := s.edits ++ [revision] }
  | .clearMigrationRequired =>
    { s with writtenFlag := some false, file := { s.file with migrationRequired := false } }
  | .deleteAllServers => { s with table := Statement.deleteAllServers.onTable s.table }
  | .addServers servers => { s with table := (Statement.addServers servers).onTable s.table }
  | .deleteServers serverIds =>
    { s with table := (Statement.deleteServers serverIds).onTable s.table }

/-- A statement that fails. `setBooleanSync` remembers its value before it edits the file. -/
def State.fail (s : State) : Statement → State
  | .clearMigrationRequired => { s with writtenFlag := some false }
  | _ => s

/-- A step. -/
inductive Action
  /-- `update` takes the full branch, and the server side answers at a revision. -/
  | reload (revision : ℕ)
  /-- `update` takes the delta branch, with the inventory of a session that reported a revision. -/
  | delta (reported : ℕ)
  /-- The next statement of the update. -/
  | perform (succeeds : Bool)
  /-- The `i`-th launched edit of the revision runs. -/
  | edit (i : ℕ) (succeeds : Bool)
  /-- `migrationRequired = true` is written. -/
  | requireMigration (succeeds : Bool)
  /-- The process dies, and starts again. -/
  | die
  deriving DecidableEq, Repr

/-- The update starts that takes its statements from a source. -/
def State.begin (s : State) (source : Source) : State :=
  { s with work := some (source, source.statements) }

/-- One step. -/
def step (side : ServerSide) (s : State) : Action → Option State
  | .reload revision =>
    if s.work = none ∧ needsFullUpdate s.serverRevision s.migrationRequired = true then
      some (s.begin (.reload s.migrationRequired { servers := side.servers revision, revision }))
    else none
  | .delta reported =>
    if s.work = none ∧ needsFullUpdate s.serverRevision s.migrationRequired = false then
      some (s.begin (.delta (side.inventory reported)))
    else none
  | .perform succeeds =>
    match s.work with
    | some (source, statement :: rest) =>
      if succeeds then some { s.execute statement with work := some (source, rest) }
      else some { s.fail statement with work := none }
    | some (_, []) => some { s with work := none }
    | none => none
  | .edit i succeeds =>
    (s.edits[i]?).map fun revision ↦
      { s with
        edits := s.edits.eraseIdx i
        file := if succeeds then { s.file with serverRevision := revision } else s.file }
  | .requireMigration succeeds =>
    some { s with
      writtenFlag := some true
      file := if succeeds then { s.file with migrationRequired := true } else s.file }
  | .die => some (State.started s.table s.file)

/-! ### The promise and its condition -/

/-- What is stored can be repaired, by this process and by the next one. -/
structure Consistent (side : ServerSide) (s : State) : Prop where
  stored : Repairable side s.table s.file.serverRevision s.file.migrationRequired
  read : Repairable side s.table s.serverRevision s.migrationRequired

/-- The revisions that the file holds or can still come to hold. -/
def State.revisions (s : State) : List ℕ := s.file.serverRevision :: s.edits

/-- A statement of an update is made when what the file can hold still describes the table after it:
a write of a reload while the file asks for the reload, a write of a delta while the file asks for a
reload or has no revision but the current one, and the flag is cleared when the file has no revision
but the current one. -/
def Durable (s : State) (source : Source) : Statement → Prop
  | .setServerRevision _ => True
  | .clearMigrationRequired => ∀ r ∈ s.revisions, r = 0 ∨ r = s.serverRevision
  | _ =>
    match source with
    | .reload _ _ => s.file.migrationRequired = true ∨ ∀ r ∈ s.revisions, r = 0
    | .delta _ =>
      s.file.migrationRequired = true ∨ ∀ r ∈ s.revisions, r = 0 ∨ r = s.serverRevision

/-- The condition on a step: an inventory is applied at the revision that its session reported, and
every statement is durable. -/
def Settled (s : State) : Action → Prop
  | .delta reported => reported = s.serverRevision
  | .perform true =>
    match s.work with
    | some (source, statement :: _) => Durable s source statement
    | _ => True
  | _ => True

instance decidableDurable (s : State) (source : Source) (statement : Statement) :
    Decidable (Durable s source statement) :=
  match statement, source with
  | .setServerRevision _, _ => inferInstanceAs (Decidable True)
  | .clearMigrationRequired, _ => inferInstanceAs (Decidable (∀ r ∈ s.revisions, _))
  | .deleteAllServers, .reload _ _ | .addServers _, .reload _ _ | .deleteServers _, .reload _ _ =>
    inferInstanceAs (Decidable (_ ∨ ∀ r ∈ s.revisions, r = 0))
  | .deleteAllServers, .delta _ | .addServers _, .delta _ | .deleteServers _, .delta _ =>
    inferInstanceAs (Decidable (_ ∨ ∀ r ∈ s.revisions, r = 0 ∨ r = s.serverRevision))

instance decidableSettled (s : State) (a : Action) : Decidable (Settled s a) :=
  match a with
  | .delta _ => inferInstanceAs (Decidable (_ = s.serverRevision))
  | .perform true =>
    match hwork : s.work with
    | some (source, statement :: _) =>
      decidable_of_iff (Durable s source statement) (by simp only [Settled, hwork])
    | some (_, []) => isTrue (by simp only [Settled, hwork])
    | none => isTrue (by simp only [Settled, hwork])
  | .perform false | .reload _ | .edit _ _ | .requireMigration _ | .die =>
    inferInstanceAs (Decidable True)

/-! ### The order of the statements -/

/-- The writes of the table come first, then the revision, then the flag. -/
def Ordered : List Statement → Prop
  | [] => True
  | .clearMigrationRequired :: rest => rest = []
  | .setServerRevision _ :: rest => rest = [] ∨ rest = [.clearMigrationRequired]
  | _ :: rest => (∃ r, .setServerRevision r ∈ rest) ∧ Ordered rest

theorem ordered_statements (source : Source) : Ordered source.statements := by
  cases source with
  | reload migrationRequired response =>
    cases migrationRequired <;>
      simp [Source.statements, fullUpdate, loadFullServerList, Ordered]
  | delta inventory =>
    rcases hpending : inventory.hasPendingDelta with _ | _
    · rw [Source.statements, updateServersDelta_eq_nil hpending]
      trivial
    · rw [Source.statements, updateServersDelta_of_pending hpending]
      cases inventory.enabled <;> cases inventory.disabled <;> simp [Ordered]

/-- A statement that writes the table. -/
def WritesTable : Statement → Prop
  | .deleteAllServers | .addServers _ | .deleteServers _ => True
  | .setServerRevision _ | .clearMigrationRequired => False

theorem ordered_of_writesTable {statement : Statement} {rest : List Statement}
    (hwrites : WritesTable statement) (hordered : Ordered (statement :: rest)) :
    (∃ r, .setServerRevision r ∈ rest) ∧ Ordered rest := by
  cases statement with
  | deleteAllServers => exact hordered
  | addServers servers => exact hordered
  | deleteServers serverIds => exact hordered
  | setServerRevision revision => cases hwrites
  | clearMigrationRequired => cases hwrites

/-- A delta absorbs each of its own statements. -/
theorem applyTo_onTable {inventory : ServerInventory} {statement : Statement}
    (hmem : statement ∈ updateServersDelta inventory) (table : Table ℤ Server) :
    inventory.applyTo (statement.onTable table) = inventory.applyTo table := by
  have hpending : inventory.hasPendingDelta = true := by
    by_contra hpending
    rw [Bool.not_eq_true] at hpending
    rw [updateServersDelta_eq_nil hpending] at hmem
    cases hmem
  rw [updateServersDelta_of_pending hpending, List.mem_append, List.mem_append] at hmem
  rcases hmem with (hmem | hmem) | hmem
  · obtain ⟨servers, henabled, rfl⟩ := List.mem_map.mp hmem
    rw [Option.mem_toList] at henabled
    have hadded : inventory.added = servers := by
      rw [ServerInventory.added, Option.mem_def.mp henabled, Option.getD_some]
    rw [ServerInventory.applyTo, hadded, Statement.onTable, patch_upsertAll,
      ServerInventory.applyTo, hadded]
  · obtain ⟨serverIds, hdisabled, rfl⟩ := List.mem_map.mp hmem
    rw [Option.mem_toList] at hdisabled
    have hremoved : inventory.removed = serverIds := by
      rw [ServerInventory.removed, Option.mem_def.mp hdisabled, Option.getD_some]
    rw [ServerInventory.applyTo, hremoved, Statement.onTable, patch_eraseAll,
      ServerInventory.applyTo, hremoved]
  · rw [List.mem_singleton.mp hmem, Statement.onTable]

/-! ### An update under way -/

section Underway

variable (side : ServerSide) (table : Table ℤ Server) (serverRevision : ℕ)
  (migrationRequired : Bool)

/-- Before an update writes its revision, what is read asks for the reload, or is what the delta
completes. -/
def Completes : Source → Prop
  | .reload _ _ => needsFullUpdate serverRevision migrationRequired = true
  | .delta inventory =>
    inventory = side.inventory serverRevision ∧ inventory.action = .delta ∧
      inventory.applyTo table = side.tableAt inventory.revision

/-- An update with statements left, over the table and the preferences as the process reads them. -/
structure Underway (source : Source) (rest : List Statement) : Prop where
  ordered : Ordered rest
  subset : rest ⊆ source.statements
  ends : rest ≠ [] → tableAfter rest table = side.tableAt source.revision
  completes : (∃ r, .setServerRevision r ∈ rest) → Completes side table serverRevision
    migrationRequired source
  written : rest = [.clearMigrationRequired] → serverRevision = source.revision

end Underway

variable {side : ServerSide} {table : Table ℤ Server} {serverRevision : ℕ}
  {migrationRequired : Bool} {source : Source} {statement : Statement} {rest : List Statement}

/-- What the delta of the current revision completes is repairable. -/
theorem repairable_of_completes
    (hcompletes : Completes side table serverRevision migrationRequired source) :
    Repairable side table serverRevision migrationRequired := by
  cases source with
  | reload flag response => exact Or.inr (Or.inl hcompletes)
  | delta inventory =>
    obtain ⟨rfl, hdelta, happly⟩ := hcompletes
    refine Or.inr (Or.inr ⟨hdelta, ?_⟩)
    rw [tableAfter_updateServersDelta hdelta, happly]

/-- A write of the table keeps what the update completes. -/
theorem Completes.onTable
    (hcompletes : Completes side table serverRevision migrationRequired source)
    (hmem : statement ∈ source.statements) :
    Completes side (statement.onTable table) serverRevision migrationRequired source := by
  cases source with
  | reload flag response => exact hcompletes
  | delta inventory =>
    obtain ⟨hinventory, hdelta, happly⟩ := hcompletes
    exact ⟨hinventory, hdelta, (applyTo_onTable hmem table).trans happly⟩

/-- A request for a reload keeps what the update completes. -/
theorem Completes.request
    (hcompletes : Completes side table serverRevision migrationRequired source) :
    Completes side table serverRevision true source := by
  cases source with
  | reload flag response => exact Bool.or_true _
  | delta inventory => exact hcompletes

/-- The update makes a write of the table. -/
theorem Underway.onTable
    (hwork : Underway side table serverRevision migrationRequired source (statement :: rest))
    (hwrites : WritesTable statement) :
    Underway side (statement.onTable table) serverRevision migrationRequired source rest := by
  obtain ⟨hrevision, hordered⟩ := ordered_of_writesTable hwrites hwork.ordered
  obtain ⟨r, hmem⟩ := hrevision
  have hcompletes := hwork.completes ⟨r, List.mem_cons_of_mem _ hmem⟩
  refine ⟨hordered, (List.cons_subset.mp hwork.subset).2, ?_, ?_, ?_⟩
  · exact fun _ ↦ hwork.ends (List.cons_ne_nil _ _)
  · exact fun _ ↦ hcompletes.onTable (hwork.subset List.mem_cons_self)
  · rintro rfl
    simp at hmem

/-- When the revision is written the table is the one at that revision. -/
theorem Underway.table_of_setServerRevision {revision : ℕ}
    (hwork : Underway side table serverRevision migrationRequired source
      (.setServerRevision revision :: rest)) :
    revision = source.revision ∧ table = side.tableAt revision := by
  have hrevision : revision = source.revision :=
    setServerRevision_mem source (hwork.subset List.mem_cons_self)
  refine ⟨hrevision, ?_⟩
  have hends := hwork.ends (List.cons_ne_nil _ _)
  rw [hrevision, ← hends]
  rcases hwork.ordered with rfl | rfl <;> rfl

/-- The update writes its revision. -/
theorem Underway.setServerRevision {revision : ℕ}
    (hwork : Underway side table serverRevision migrationRequired source
      (.setServerRevision revision :: rest)) :
    Underway side table revision migrationRequired source rest := by
  obtain ⟨hrevision, htable⟩ := hwork.table_of_setServerRevision
  rcases hwork.ordered with rfl | rfl
  · exact ⟨trivial, List.nil_subset _, fun hne ↦ absurd rfl hne, by simp, by simp⟩
  · refine ⟨rfl, (List.cons_subset.mp hwork.subset).2, fun _ ↦ ?_, by simp, fun _ ↦ hrevision⟩
    rw [← hrevision, ← htable]
    rfl

/-- When the flag is cleared the table is the one at the current revision. -/
theorem Underway.table_of_clearMigrationRequired
    (hwork : Underway side table serverRevision migrationRequired source
      (.clearMigrationRequired :: rest)) :
    rest = [] ∧ table = side.tableAt serverRevision := by
  have hrest : rest = [] := hwork.ordered
  subst hrest
  refine ⟨rfl, ?_⟩
  rw [hwork.written rfl, ← hwork.ends (List.cons_ne_nil _ _)]
  rfl

/-- An update whose statements are all made. -/
theorem underway_nil : Underway side table serverRevision migrationRequired source [] :=
  ⟨trivial, List.nil_subset _, fun hne ↦ absurd rfl hne, by simp, by simp⟩

/-- A request for a reload does not disturb the update. -/
theorem Underway.request
    (hwork : Underway side table serverRevision migrationRequired source rest) :
    Underway side table serverRevision true source rest :=
  ⟨hwork.ordered, hwork.subset, hwork.ends, fun hset ↦ (hwork.completes hset).request,
    hwork.written⟩

/-- A reload starts. -/
theorem underway_reload (hfull : needsFullUpdate serverRevision migrationRequired = true)
    (revision : ℕ) (flag : Bool) :
    Underway side table serverRevision migrationRequired
      (.reload flag { servers := side.servers revision, revision })
      (Source.reload flag { servers := side.servers revision, revision }).statements where
  ordered := ordered_statements _
  subset := List.Subset.refl _
  ends := fun _ ↦ tableAfter_fullUpdate _ _ _
  completes := fun _ ↦ hfull
  written := by cases flag <;> simp [Source.statements, fullUpdate, loadFullServerList]

/-- A delta starts at the revision its session reported. -/
theorem underway_delta (hdeltas : needsFullUpdate serverRevision migrationRequired = false)
    (hrepairable : Repairable side table serverRevision migrationRequired) :
    Underway side table serverRevision migrationRequired
      (.delta (side.inventory serverRevision))
      (Source.delta (side.inventory serverRevision)).statements := by
  rcases hpending : (side.inventory serverRevision).hasPendingDelta with _ | _
  · rw [Source.statements, updateServersDelta_eq_nil hpending]
    exact underway_nil
  · have hdelta : (side.inventory serverRevision).action = .delta := by
      rw [ServerInventory.hasPendingDelta, Bool.and_eq_true, beq_iff_eq] at hpending
      exact hpending.1
    have happly : (side.inventory serverRevision).applyTo table =
        side.tableAt (side.inventory serverRevision).revision := by
      rcases hrepairable with htable | hfull | ⟨-, hafter⟩
      · rw [htable]
        exact side.sound serverRevision hdelta
      · rw [hdeltas] at hfull
        cases hfull
      · rw [← tableAfter_updateServersDelta hdelta, hafter]
    refine ⟨ordered_statements _, List.Subset.refl _, fun _ ↦ ?_, fun _ ↦ ⟨rfl, hdelta, happly⟩,
      fun hclear ↦ ?_⟩
    · exact (tableAfter_updateServersDelta hdelta table).trans happly
    · have hmem : .clearMigrationRequired ∈
          (Source.delta (side.inventory serverRevision)).statements := by
        rw [hclear]
        exact List.mem_cons_self
      obtain ⟨response, hsource⟩ := clearMigrationRequired_mem _ hmem
      cases hsource

/-! ### The invariant -/

/-- What the file can hold, what the process reads and the update under way all fit the table. -/
structure Kept (side : ServerSide) (s : State) : Prop where
  remembered : s.writtenRevision = none → s.edits = []
  file : s.file.migrationRequired = true ∨ ∀ r ∈ s.revisions, Repairable side s.table r false
  read : Repairable side s.table s.serverRevision s.migrationRequired
  work : ∀ source rest, s.work = some (source, rest) →
    Underway side s.table s.serverRevision s.migrationRequired source rest

theorem repairable_zero (side : ServerSide) (table : Table ℤ Server) (migrationRequired : Bool) :
    Repairable side table 0 migrationRequired := Or.inr (Or.inl rfl)

theorem repairable_true (side : ServerSide) (table : Table ℤ Server) (serverRevision : ℕ) :
    Repairable side table serverRevision true := Or.inr (Or.inl (Bool.or_true _))

/-- A state that is repairable without the flag is repairable with it. -/
theorem Repairable.of_false (hrepairable : Repairable side table serverRevision false)
    (migrationRequired : Bool) : Repairable side table serverRevision migrationRequired := by
  cases migrationRequired with
  | false => exact hrepairable
  | true => exact repairable_true side table serverRevision

variable {s t : State}

theorem Kept.consistent (hkept : Kept side s) : Consistent side s := by
  refine ⟨?_, hkept.read⟩
  rcases hkept.file with hflag | hrevisions
  · rw [hflag]
    exact repairable_true _ _ _
  · exact (hrevisions _ List.mem_cons_self).of_false _

/-- A state with the same stores and no update under way. -/
theorem Kept.idle (hkept : Kept side s) : Kept side { s with work := none } :=
  ⟨hkept.remembered, hkept.file, hkept.read, by simp⟩

theorem kept_started (table : Table ℤ Server) (file : Preferences)
    (hrepairable : Repairable side table file.serverRevision file.migrationRequired) :
    Kept side (State.started table file) := by
  refine ⟨fun _ ↦ rfl, ?_, hrepairable, by simp [State.started]⟩
  rcases hflag : file.migrationRequired with _ | _
  · right
    rw [hflag] at hrepairable
    intro r hr
    rw [State.revisions, State.started, List.mem_singleton] at hr
    exact hr ▸ hrepairable
  · exact Or.inl hflag

/-- What `Durable` says of a write of the table. -/
theorem Durable.of_writesTable (hdurable : Durable s source statement)
    (hwrites : WritesTable statement) :
    s.file.migrationRequired = true ∨ ∀ r ∈ s.revisions,
      r = 0 ∨ r = s.serverRevision ∧ ∃ inventory, source = .delta inventory := by
  cases source with
  | reload flag response =>
    have hreload : s.file.migrationRequired = true ∨ ∀ r ∈ s.revisions, r = 0 := by
      cases statement <;> first | exact hdurable | cases hwrites
    exact hreload.imp_right fun hzero r hr ↦ Or.inl (hzero r hr)
  | delta inventory =>
    have hdelta : s.file.migrationRequired = true ∨
        ∀ r ∈ s.revisions, r = 0 ∨ r = s.serverRevision := by
      cases statement <;> first | exact hdurable | cases hwrites
    exact hdelta.imp_right fun hcurrent r hr ↦
      (hcurrent r hr).imp_right fun heq ↦ ⟨heq, inventory, rfl⟩

/-- A durable write of the table. -/
theorem kept_onTable (hkept : Kept side s) (hwork : s.work = some (source, statement :: rest))
    (hwrites : WritesTable statement) (hdurable : Durable s source statement) :
    Kept side { s with table := statement.onTable s.table, work := some (source, rest) } := by
  have hnext := (hkept.work source _ hwork).onTable hwrites
  obtain ⟨r, hmem⟩ := (ordered_of_writesTable hwrites (hkept.work source _ hwork).ordered).1
  have hcompletes := hnext.completes ⟨r, hmem⟩
  refine ⟨hkept.remembered, ?_, repairable_of_completes hcompletes, ?_⟩
  · refine (hdurable.of_writesTable hwrites).imp_right fun hcurrent r hr ↦ ?_
    rcases hcurrent r hr with rfl | ⟨rfl, inventory, rfl⟩
    · exact repairable_zero _ _ _
    · have hdelta : Completes side (statement.onTable s.table) s.serverRevision false
          (.delta inventory) := hcompletes
      exact repairable_of_completes hdelta
  · rintro _ _ ⟨⟩
    exact hnext

/-- The revision is written: remembered at once, and its edit launched. -/
theorem kept_setServerRevision {revision : ℕ} (hkept : Kept side s)
    (hwork : s.work = some (source, .setServerRevision revision :: rest)) :
    Kept side { s.execute (.setServerRevision revision) with work := some (source, rest) } := by
  have hunderway := hkept.work source _ hwork
  obtain ⟨-, htable⟩ := hunderway.table_of_setServerRevision
  have hcurrent : ∀ flag, Repairable side s.table revision flag := fun _ ↦ Or.inl htable
  refine ⟨nofun, ?_, hcurrent _, ?_⟩
  · refine hkept.file.imp_right fun hrevisions r hr ↦ ?_
    have hcases : r ∈ s.revisions ∨ r = revision := by
      simpa [State.revisions, State.execute, or_assoc] using hr
    rcases hcases with hr | rfl
    · exact hrevisions r hr
    · exact hcurrent false
  · rintro _ _ ⟨⟩
    exact hunderway.setServerRevision

/-- The flag is cleared when the file has no other revision. -/
theorem kept_clearMigrationRequired (hkept : Kept side s)
    (hwork : s.work = some (source, .clearMigrationRequired :: rest))
    (hdurable : Durable s source .clearMigrationRequired) :
    Kept side { s.execute .clearMigrationRequired with work := some (source, rest) } := by
  obtain ⟨rfl, htable⟩ := (hkept.work source _ hwork).table_of_clearMigrationRequired
  refine ⟨hkept.remembered, Or.inr fun r hr ↦ ?_, Or.inl htable, ?_⟩
  · rcases hdurable r hr with rfl | rfl
    · exact repairable_zero _ _ _
    · exact Or.inl htable
  · rintro _ _ ⟨⟩
    exact underway_nil

/-- A statement fails, and the update ends. -/
theorem kept_fail (hkept : Kept side s) (hwork : s.work = some (source, statement :: rest)) :
    Kept side { s.fail statement with work := none } := by
  cases statement with
  | clearMigrationRequired =>
    obtain ⟨-, htable⟩ := (hkept.work source _ hwork).table_of_clearMigrationRequired
    exact ⟨hkept.remembered, hkept.file, Or.inl htable, by simp⟩
  | deleteAllServers => exact hkept.idle
  | addServers servers => exact hkept.idle
  | deleteServers serverIds => exact hkept.idle
  | setServerRevision revision => exact hkept.idle

/-- A launched edit of the revision runs or fails. -/
theorem kept_edit {i revision : ℕ} (hkept : Kept side s) (hedit : s.edits[i]? = some revision)
    (succeeds : Bool) :
    Kept side { s with
      edits := s.edits.eraseIdx i
      file := if succeeds then { s.file with serverRevision := revision } else s.file } := by
  have hmem : revision ∈ s.edits := List.mem_of_getElem? hedit
  obtain ⟨written, hwritten⟩ : ∃ written, s.writtenRevision = some written := by
    refine Option.ne_none_iff_exists'.mp fun hnone ↦ ?_
    rw [hkept.remembered hnone] at hmem
    cases hmem
  have hsubset : ∀ r ∈ s.edits.eraseIdx i, r ∈ s.revisions := fun r hr ↦
    List.mem_cons_of_mem _ (List.mem_of_mem_eraseIdx hr)
  refine ⟨fun hnone ↦ ?_, ?_, ?_, ?_⟩
  · rw [hkept.remembered hnone]
    rfl
  · cases succeeds with
    | false =>
      refine hkept.file.imp_right fun hrevisions r hr ↦ hrevisions r ?_
      rcases List.mem_cons.mp hr with rfl | hr
      · exact List.mem_cons_self
      · exact hsubset r hr
    | true =>
      refine hkept.file.imp_right fun hrevisions r hr ↦ hrevisions r ?_
      rcases List.mem_cons.mp hr with rfl | hr
      · exact List.mem_cons_of_mem _ hmem
      · exact hsubset r hr
  · have hread := hkept.read
    cases succeeds <;>
      simpa [State.serverRevision, State.migrationRequired, hwritten] using hread
  · intro source rest hwork
    have hunderway := hkept.work source rest hwork
    cases succeeds <;>
      simpa [State.serverRevision, State.migrationRequired, hwritten] using hunderway

/-- A reload is asked for. -/
theorem kept_requireMigration (hkept : Kept side s) (succeeds : Bool) :
    Kept side { s with
      writtenFlag := some true
      file := if succeeds then { s.file with migrationRequired := true } else s.file } := by
  have hrevision : (if succeeds then { s.file with migrationRequired := true }
      else s.file).serverRevision = s.file.serverRevision := by
    cases succeeds <;> rfl
  refine ⟨hkept.remembered, ?_, repairable_true _ _ _, ?_⟩
  · cases succeeds with
    | false => exact hkept.file
    | true => exact Or.inl rfl
  · intro source rest hwork
    have hunderway := (hkept.work source rest hwork).request
    simpa [State.serverRevision, State.migrationRequired, hrevision] using hunderway

/-- An update begins. -/
theorem kept_begin {source : Source} (hkept : Kept side s)
    (hunderway : Underway side s.table s.serverRevision s.migrationRequired source
      source.statements) : Kept side (s.begin source) := by
  refine ⟨hkept.remembered, hkept.file, hkept.read, fun _ _ hwork ↦ ?_⟩
  obtain ⟨rfl, rfl⟩ := Prod.mk.inj (Option.some.inj hwork)
  exact hunderway

/-- Every settled step keeps the invariant. -/
theorem kept_step (a : Action) (hkept : Kept side s) (hsettled : Settled s a)
    (hstep : step side s a = some t) : Kept side t := by
  cases a with
  | reload revision =>
    simp only [step] at hstep
    split_ifs at hstep with hidle
    obtain rfl := Option.some.inj hstep
    exact kept_begin hkept (underway_reload hidle.2 revision s.migrationRequired)
  | delta reported =>
    simp only [step] at hstep
    split_ifs at hstep with hidle
    obtain rfl := Option.some.inj hstep
    obtain rfl : reported = s.serverRevision := hsettled
    exact kept_begin hkept (underway_delta hidle.2 hkept.read)
  | perform succeeds =>
    simp only [step] at hstep
    split at hstep
    next source statement rest hwork =>
      cases succeeds with
      | false =>
        obtain rfl := Option.some.inj hstep
        exact kept_fail hkept hwork
      | true =>
        obtain rfl := Option.some.inj hstep
        have hdurable : Durable s source statement := by
          simpa only [Settled, hwork] using hsettled
        cases statement with
        | setServerRevision revision => exact kept_setServerRevision hkept hwork
        | clearMigrationRequired => exact kept_clearMigrationRequired hkept hwork hdurable
        | deleteAllServers => exact kept_onTable hkept hwork trivial hdurable
        | addServers servers => exact kept_onTable hkept hwork trivial hdurable
        | deleteServers serverIds => exact kept_onTable hkept hwork trivial hdurable
    next =>
      obtain rfl := Option.some.inj hstep
      exact hkept.idle
    next => cases hstep
  | edit i succeeds =>
    simp only [step, Option.map_eq_some_iff] at hstep
    obtain ⟨revision, hedit, rfl⟩ := hstep
    exact kept_edit hkept hedit succeeds
  | requireMigration succeeds =>
    obtain rfl := Option.some.inj hstep
    exact kept_requireMigration hkept succeeds
  | die =>
    obtain rfl := Option.some.inj hstep
    exact kept_started _ _ hkept.consistent.stored

/-- Every state of a settled run is consistent. -/
theorem consistent_of_settled (table : Table ℤ Server) (file : Preferences)
    (hstart : Repairable side table file.serverRevision file.migrationRequired)
    (hreach : Reaches (step side) Settled (State.started table file) s) : Consistent side s :=
  (hreach.invariant (Kept side) (fun a _ _ hkept hsettled hstep ↦ kept_step a hkept hsettled hstep)
    (kept_started table file hstart)).consistent

/-- The node that a revision of `growingSide` adds. -/
def node (revision : ℕ) : Server where
  id := revision
  hostname := "us-014.windscribe.dev"
  ip := "181.215.52.122"
  ip2 := "181.215.52.123"
  ip3 := "181.215.52.124"
  datacenterId := 87
  weight := 1
  health := 0

/-- A server side that adds one node with each revision. -/
def growingSide : ServerSide where
  servers := fun revision ↦ (List.range revision).map node
  inventory := fun revision ↦
    { action := .delta, enabled := some [node revision], disabled := some [],
      revision := revision + 1 }
  sound := by
    intro revision _
    funext k
    simp only [ServerInventory.applyTo, ServerInventory.added, ServerInventory.removed, tableOf,
      List.range_succ, List.map_append, upsertAll, List.foldl_append, Option.getD_some, patch]
    exact if_neg List.not_mem_nil

/-- A first load, whose revision reaches the file before the flag is cleared; the process then dies
in the middle of a delta. -/
theorem consistent_of_settled_died :
    ∃ s, Reaches (step growingSide) Settled (State.started (fun _ ↦ none) ⟨0, true⟩) s ∧
      s.file = ⟨3, false⟩ ∧ (s.table 3).isSome = true ∧ Consistent growingSide s := by
  obtain ⟨s, hreach, hcheck⟩ := exists_reaches_of_run (step growingSide) Settled
    (State.started (fun _ ↦ none) ⟨0, true⟩)
    [.reload 3, .perform true, .perform true, .perform true, .edit 0 true, .perform true,
      .perform true, .delta 3, .perform true, .die]
    (fun s ↦ (s.file == ⟨3, false⟩) && (s.table 3).isSome)
    (by decide)
  rw [Bool.and_eq_true, beq_iff_eq] at hcheck
  refine ⟨s, hreach, hcheck.1, hcheck.2, consistent_of_settled _ _ ?_ hreach⟩
  exact repairable_zero growingSide _ true

/-- A reload that the flag has asked for brings the table to revision 3, and clears the flag in the
file before the edit of the revision has run. The process dies: the file says revision 1 and asks
for no reload, and the delta for revision 1 does not take the third node away. -/
theorem not_consistent_uncommitted :
    ¬ ∀ (side : ServerSide) (table : Table ℤ Server) (file : Preferences) (s : State),
        Repairable side table file.serverRevision file.migrationRequired →
        Reaches (step side) Always (State.started table file) s → Consistent side s := by
  intro hpromise
  obtain ⟨s, hreach, hcheck⟩ := exists_reaches_of_run (step growingSide) Always
    (State.started (growingSide.tableAt 1) ⟨1, true⟩)
    [.reload 3, .perform true, .perform true, .perform true, .perform true, .die]
    (fun s ↦ (s.file == ⟨1, false⟩) && (s.table 2).isSome &&
      (tableAfter (updateServersDelta (growingSide.inventory 1)) s.table 2).isSome)
    (by decide)
  rw [Bool.and_eq_true, Bool.and_eq_true, beq_iff_eq] at hcheck
  obtain ⟨⟨hfile, htable⟩, hafter⟩ := hcheck
  have hstored := (hpromise growingSide (growingSide.tableAt 1) ⟨1, true⟩ s (Or.inl rfl)
    hreach).stored
  rw [hfile] at hstored
  rcases hstored with hsame | hfull | ⟨-, hrepaired⟩
  · rw [hsame, show growingSide.tableAt 1 2 = none from by decide] at htable
    cases htable
  · cases hfull
  · rw [hrepaired, show growingSide.tableAt (growingSide.inventory 1).revision 2 = none from
      by decide] at hafter
    cases hafter

end WindscribeVpn.Repository.ServerListDurability
