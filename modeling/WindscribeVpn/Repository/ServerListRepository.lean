import WindscribeVpn.Foundations.KeyedTables
import Mathlib.Data.Int.Notation
import Mathlib.Data.Nat.Notation
import Mathlib.Tactic.SplitIfs

/-!
# `ServerListRepository`: what an update writes

The server list is one table, keyed by the id of the node, and the revision of the server side that
it stands for. `update` brings both up to date, and this module says what it writes and in which
order: a full reload empties the table, inserts every node, writes the revision and, when the flag
`migrationRequired` had asked for it, clears the flag (`fullUpdate`); a delta inserts the enabled
nodes, deletes the disabled ones and writes its revision (`updateServersDelta`).

The writes of one update are a list of `Statement`s, so that a reader of the state can be put
between any two of them. They go to two stores, the database and the preferences. The lemmas say
what a list of statements leaves: `tableAfter_fullUpdate` and `tableAfter_updateServersDelta` for
the table, `setServerRevision_mem` for the revision, and `updateServersDelta_eq_nil` that a delta
that carries no node writes nothing at all.
-/

set_option autoImplicit false
set_option relaxedAutoImplicit false

namespace WindscribeVpn.Repository.ServerListRepository

open Foundations.KeyedTables

/-- A node, as `Server` in the table and, field by field, `ServerData` in a response. -/
structure Server where
  id : ℤ
  hostname : String
  ip : String
  ip2 : String
  ip3 : String
  datacenterId : ℤ
  weight : ℤ
  health : ℤ
  ipv6 : ℤ := 0
  forceDisconnect : ℤ := 0
  deriving DecidableEq, Repr

/-- `ServerResponse`. -/
structure ServerResponse where
  servers : List Server
  revision : ℕ
  deriving DecidableEq, Repr

/-- The text of `action` in an inventory. -/
inductive InventoryAction
  | delta
  | hold
  | unknown
  deriving DecidableEq, Repr

/-- `ServerInventory`; a disabled node is given by its id. -/
structure ServerInventory where
  action : InventoryAction
  enabled : Option (List Server)
  disabled : Option (List ℤ)
  revision : ℕ
  deriving DecidableEq, Repr

/-- `ServerInventory.hasPendingDelta`. -/
def ServerInventory.hasPendingDelta (inventory : ServerInventory) : Bool :=
  inventory.action == .delta &&
    ((inventory.enabled.any fun servers ↦ !servers.isEmpty) ||
      (inventory.disabled.any fun ids ↦ !ids.isEmpty))

/-- One write of an update. -/
inductive Statement
  | deleteAllServers
  | addServers (servers : List Server)
  | deleteServers (serverIds : List ℤ)
  | setServerRevision (revision : ℕ)
  | clearMigrationRequired
  deriving DecidableEq, Repr

/-- What a statement does to the table: `ServerDao.deleteAll`, `addAll` and `deleteByIds`. -/
def Statement.onTable (table : Table ℤ Server) : Statement → Table ℤ Server
  | .deleteAllServers => fun _ ↦ none
  | .addServers servers => upsertAll Server.id servers table
  | .deleteServers serverIds => eraseAll serverIds table
  | .setServerRevision _ | .clearMigrationRequired => table

/-- The table after a list of statements. -/
def tableAfter (statements : List Statement) (table : Table ℤ Server) : Table ℤ Server :=
  statements.foldl Statement.onTable table

/-- What `loadFullServerList` writes once the list has come. -/
def loadFullServerList (response : ServerResponse) : List Statement :=
  [.deleteAllServers, .addServers response.servers, .setServerRevision response.revision]

/-- What the full branch of `runUpdate` writes; `migrationRequired` is the flag as it was read at
its start. -/
def fullUpdate (migrationRequired : Bool) (response : ServerResponse) : List Statement :=
  loadFullServerList response ++ if migrationRequired then [.clearMigrationRequired] else []

/-- What `updateServersDelta` writes. -/
def updateServersDelta (inventory : ServerInventory) : List Statement :=
  match inventory.action with
  | .hold => []
  | .delta =>
    let enabledCount := (inventory.enabled.map List.length).getD 0
    let disabledCount := (inventory.disabled.map List.length).getD 0
    if enabledCount = 0 ∧ disabledCount = 0 then []
    else
      inventory.enabled.toList.map .addServers ++ inventory.disabled.toList.map .deleteServers ++
        [.setServerRevision inventory.revision]
  | .unknown => []

/-- Where the statements of an update come from. -/
inductive Source
  | reload (migrationRequired : Bool) (response : ServerResponse)
  | delta (inventory : ServerInventory)
  deriving DecidableEq, Repr

/-- The statements of an update. -/
def Source.statements : Source → List Statement
  | .reload migrationRequired response => fullUpdate migrationRequired response
  | .delta inventory => updateServersDelta inventory

/-- The revision that an update brings. -/
def Source.revision : Source → ℕ
  | .reload _ response => response.revision
  | .delta inventory => inventory.revision

/-- The first two lines of `runUpdate`: whether it takes the full branch. -/
def needsFullUpdate (serverRevision : ℕ) (migrationRequired : Bool) : Bool :=
  serverRevision == 0 || migrationRequired

/-- The nodes that a delta inserts. -/
def ServerInventory.added (inventory : ServerInventory) : List Server :=
  inventory.enabled.getD []

/-- The ids that a delta deletes. -/
def ServerInventory.removed (inventory : ServerInventory) : List ℤ :=
  inventory.disabled.getD []

/-- A delta applied to a table as a whole. -/
def ServerInventory.applyTo (inventory : ServerInventory) (table : Table ℤ Server) :
    Table ℤ Server :=
  patch Server.id inventory.added inventory.removed table

/-! ### What the statements leave -/

/-- A delta without nodes writes nothing. -/
theorem updateServersDelta_eq_nil {inventory : ServerInventory}
    (hpending : inventory.hasPendingDelta = false) : updateServersDelta inventory = [] := by
  obtain ⟨action, enabled, disabled, revision⟩ := inventory
  cases action with
  | hold => rfl
  | unknown => rfl
  | delta =>
    simp only [ServerInventory.hasPendingDelta, beq_self_eq_true, Bool.true_and,
      Bool.or_eq_false_iff] at hpending
    have hnone : ∀ {α : Type} (list : Option (List α)), (list.any fun x ↦ !x.isEmpty) = false →
        (list.map List.length).getD 0 = 0 := by
      intro α list hempty
      cases list with
      | none => rfl
      | some x => simpa using hempty
    simp only [updateServersDelta]
    exact if_pos ⟨hnone enabled hpending.1, hnone disabled hpending.2⟩

/-- A delta with nodes inserts, deletes and writes its revision. -/
theorem updateServersDelta_of_pending {inventory : ServerInventory}
    (hpending : inventory.hasPendingDelta = true) :
    updateServersDelta inventory =
      inventory.enabled.toList.map .addServers ++ inventory.disabled.toList.map .deleteServers ++
        [.setServerRevision inventory.revision] := by
  obtain ⟨action, enabled, disabled, revision⟩ := inventory
  cases action with
  | hold => cases hpending
  | unknown => cases hpending
  | delta =>
    simp only [updateServersDelta]
    refine if_neg ?_
    rintro ⟨henabled, hdisabled⟩
    cases enabled <;> cases disabled <;>
      simp_all [ServerInventory.hasPendingDelta]

/-- A full update leaves the nodes of its response. -/
theorem tableAfter_fullUpdate (migrationRequired : Bool) (response : ServerResponse)
    (table : Table ℤ Server) :
    tableAfter (fullUpdate migrationRequired response) table =
      upsertAll Server.id response.servers fun _ ↦ none := by
  cases migrationRequired <;> rfl

/-- The statements of a delta leave its patch of the table. -/
theorem tableAfter_updateServersDelta {inventory : ServerInventory}
    (hdelta : inventory.action = .delta) (table : Table ℤ Server) :
    tableAfter (updateServersDelta inventory) table = inventory.applyTo table := by
  have hkeeps : ∀ t : Table ℤ Server, eraseAll [] t = t := by
    intro t
    funext k
    exact if_neg List.not_mem_nil
  rw [ServerInventory.applyTo, patch, ServerInventory.added, ServerInventory.removed]
  rcases hpending : inventory.hasPendingDelta with _ | _
  · rw [updateServersDelta_eq_nil hpending]
    rcases henabled : inventory.enabled with _ | servers <;>
      rcases hdisabled : inventory.disabled with _ | ids <;>
      simp_all [ServerInventory.hasPendingDelta, tableAfter]
  · rw [updateServersDelta_of_pending hpending]
    cases inventory.enabled <;> cases inventory.disabled <;>
      simp [tableAfter, Statement.onTable, hkeeps]

/-- The revision an update writes is the one it brings. -/
theorem setServerRevision_mem (source : Source) {revision : ℕ}
    (hmem : .setServerRevision revision ∈ source.statements) : revision = source.revision := by
  cases source with
  | reload migrationRequired response =>
    rw [Source.revision]
    cases migrationRequired <;>
      simpa [Source.statements, fullUpdate, loadFullServerList] using hmem
  | delta inventory =>
    have hpending : inventory.hasPendingDelta = true := by
      by_contra hpending
      rw [Bool.not_eq_true] at hpending
      rw [Source.statements, updateServersDelta_eq_nil hpending] at hmem
      cases hmem
    rw [Source.statements, updateServersDelta_of_pending hpending] at hmem
    rw [Source.revision]
    simpa using hmem

/-- Only a reload that had read the flag as set clears it. -/
theorem clearMigrationRequired_mem (source : Source)
    (hmem : .clearMigrationRequired ∈ source.statements) :
    ∃ response, source = .reload true response := by
  cases source with
  | reload migrationRequired response =>
    cases migrationRequired with
    | false => simp [Source.statements, fullUpdate, loadFullServerList] at hmem
    | true => exact ⟨response, rfl⟩
  | delta inventory =>
    rcases hpending : inventory.hasPendingDelta with _ | _
    · rw [Source.statements, updateServersDelta_eq_nil hpending] at hmem
      cases hmem
    · rw [Source.statements, updateServersDelta_of_pending hpending] at hmem
      simp at hmem

end WindscribeVpn.Repository.ServerListRepository
