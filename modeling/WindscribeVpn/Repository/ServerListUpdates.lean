import WindscribeVpn.Foundations.Runs
import WindscribeVpn.Repository.ServerListRepository
import Mathlib.Order.Nat

/-!
# Concurrent updates of the server list

`update` holds a mutex for its whole body, but what it works on comes from outside: an inventory
that a caller supplies was fetched before the mutex was taken, and `migrationRequired` is written by
components that do not take it at all. This module runs any number of callers against a server side
whose revision grows: session fetches that end in any order, callers queueing for the mutex, the
holder fetching and writing statement by statement and throwing anywhere, and the flag written at
any moment.

`Promise` says of one step that the stored revision does not decrease, that an inventory older than
it leaves the table alone, and that a `migrationRequired` written since the reload in the mutex
began to fetch is not cleared. `not_promise_older` and `not_promise_request` are runs that break it:
an inventory is applied without its revision being compared with the stored one, and the flag is
read before the fetch and cleared after it. `Timely` is the condition on a step that neither
happens, and `promise_of_timely` proves the promise for every step of every run whose steps all meet
it.
-/

set_option autoImplicit false
set_option relaxedAutoImplicit false

namespace WindscribeVpn.Repository.ServerListUpdates

open Foundations.Runs Foundations.KeyedTables ServerListRepository

/-! ### Callers, the mutex and the server side -/

/-- Where the holder of `updateMutex` stands. -/
inductive Holder
  | free
  /-- `runUpdate` takes the full branch and has fetched nothing; the argument is the flag as read.
  -/
  | reload (migrationRequired : Bool)
  /-- `loadLocations` is fetching. -/
  | locations (migrationRequired : Bool)
  /-- `loadFullServerList` is fetching, since the server side was at `asked`. -/
  | servers (migrationRequired : Bool) (asked : ℕ)
  /-- `runUpdate` fetches the session itself, reporting a revision. -/
  | session (reported : ℕ)
  /-- The statements that are left of an update. -/
  | applying (source : Source) (rest : List Statement)
  deriving DecidableEq, Repr

/-- The app and the server side. `server` is the revision the server side is at, `sessions` the
revisions reported by the session fetches under way, and `callers` the calls of `update` that wait
for the mutex, with the inventory each supplies. `requested` is history: whether `migrationRequired`
has been written since a reload last began to fetch. -/
structure State where
  server : ℕ
  table : Table ℤ Server
  serverRevision : ℕ
  migrationRequired : Bool
  sessions : List ℕ
  callers : List (Option ServerInventory)
  holder : Holder
  requested : Bool

/-- Nothing is under way, and the server side is ahead of the stored revision by some amount. -/
def State.initial (table : Table ℤ Server) (serverRevision ahead : ℕ) (migrationRequired : Bool) :
    State where
  server := serverRevision + ahead
  table := table
  serverRevision := serverRevision
  migrationRequired := migrationRequired
  sessions := []
  callers := []
  holder := .free
  requested := false

/-- The two reads at the start of `runUpdate`. -/
def State.needsFullUpdate (s : State) : Bool :=
  ServerListRepository.needsFullUpdate s.serverRevision s.migrationRequired

/-- The branch of `runUpdate` that a caller takes on entering the mutex. -/
def State.runUpdate (s : State) : Option ServerInventory → Holder
  | some inventory =>
    if s.needsFullUpdate then .reload s.migrationRequired
    else .applying (.delta inventory) (updateServersDelta inventory)
  | none =>
    if s.needsFullUpdate then .reload s.migrationRequired else .session s.serverRevision

/-- What a statement writes. -/
def State.execute (s : State) (statement : Statement) : State :=
  { s with
    table := statement.onTable s.table
    serverRevision :=
      match statement with
      | .setServerRevision revision => revision
      | _ => s.serverRevision
    migrationRequired :=
      match statement with
      | .clearMigrationRequired => false
      | _ => s.migrationRequired }

/-- An inventory that the server side can answer a session fetch with. -/
def State.answers (s : State) (reported : ℕ) (inventory : Option ServerInventory) : Bool :=
  inventory.all fun x ↦ decide (reported ≤ x.revision ∧ x.revision ≤ s.server)

/-- A step of one of the parties. -/
inductive Action
  /-- The server side moves on to a later revision. -/
  | publish (revision : ℕ)
  /-- A caller starts to fetch a session. -/
  | fetchSession
  /-- The `i`-th of these fetches ends, and its caller calls `update` with the inventory. -/
  | answerSession (i : ℕ) (inventory : Option ServerInventory)
  /-- `update` is called without an inventory. -/
  | call
  /-- The `i`-th waiting caller enters the mutex. -/
  | lock (i : ℕ)
  | fetchLocations
  | fetchServers
  | answerServers (response : ServerResponse)
  /-- The session that the holder fetches comes. -/
  | answerOwnSession (inventory : Option ServerInventory)
  /-- The holder makes its next statement, or leaves the mutex when there is none. -/
  | perform
  /-- The holder throws: a fetch or a statement has failed. -/
  | throws
  /-- Another component writes `migrationRequired = true`. -/
  | requireMigration
  deriving DecidableEq, Repr

/-- One step. -/
def step (s : State) : Action → Option State
  | .publish revision => if s.server ≤ revision then some { s with server := revision } else none
  | .fetchSession => some { s with sessions := s.sessions ++ [s.serverRevision] }
  | .answerSession i inventory =>
    (s.sessions[i]?).bind fun reported ↦
      if s.answers reported inventory then
        some { s with sessions := s.sessions.eraseIdx i, callers := s.callers ++ [inventory] }
      else none
  | .call => some { s with callers := s.callers ++ [none] }
  | .lock i =>
    match s.holder, s.callers[i]? with
    | .free, some supplied =>
      some { s with callers := s.callers.eraseIdx i, holder := s.runUpdate supplied }
    | _, _ => none
  | .fetchLocations =>
    match s.holder with
    | .reload migrationRequired =>
      some { s with holder := .locations migrationRequired, requested := false }
    | _ => none
  | .fetchServers =>
    match s.holder with
    | .locations migrationRequired =>
      some { s with holder := .servers migrationRequired s.server }
    | _ => none
  | .answerServers response =>
    match s.holder with
    | .servers migrationRequired asked =>
      if asked ≤ response.revision ∧ response.revision ≤ s.server then
        some { s with holder := .applying (.reload migrationRequired response)
                        (fullUpdate migrationRequired response) }
      else none
    | _ => none
  | .answerOwnSession inventory =>
    match s.holder with
    | .session reported =>
      if s.answers reported inventory then
        some { s with holder :=
          match inventory with
          | some x => .applying (.delta x) (updateServersDelta x)
          | none => .free }
      else none
    | _ => none
  | .perform =>
    match s.holder with
    | .applying source (statement :: rest) =>
      some { s.execute statement with holder := .applying source rest }
    | .applying _ [] => some { s with holder := .free }
    | _ => none
  | .throws => some { s with holder := .free }
  | .requireMigration => some { s with migrationRequired := true, requested := true }

/-! ### The promise and its condition -/

/-- What a step owes. -/
structure Promise (s t : State) : Prop where
  /-- The stored revision never decreases. -/
  monotone : s.serverRevision ≤ t.serverRevision
  /-- An inventory older than the stored revision does not change the table. -/
  current : ∀ inventory rest, s.holder = .applying (.delta inventory) rest →
    inventory.revision < s.serverRevision → t.table = s.table
  /-- A request written since a reload began to fetch is not cleared. -/
  kept : s.requested = true → s.migrationRequired = true → t.migrationRequired = true

/-- The delta branch would apply nodes of an inventory older than the stored revision. -/
def State.appliesOlder (s : State) (supplied : Option ServerInventory) : Bool :=
  !s.needsFullUpdate &&
    supplied.any fun inventory ↦
      inventory.hasPendingDelta && decide (inventory.revision < s.serverRevision)

/-- A reload has begun to fetch, and will clear the flag when it is through. -/
def Holder.clears : Holder → Bool
  | .free | .reload _ | .session _ => false
  | .locations migrationRequired => migrationRequired
  | .servers migrationRequired _ => migrationRequired
  | .applying _ rest => decide (.clearMigrationRequired ∈ rest)

/-- No caller enters the delta branch with nodes of an older revision, and no flag is written while
a reload that is going to clear it is fetching or writing. -/
def Timely (s : State) : Action → Prop
  | .lock i => (s.callers[i]?.all fun supplied ↦ !s.appliesOlder supplied) = true
  | .requireMigration => s.holder.clears = false
  | _ => True

instance decidableTimely (s : State) (a : Action) : Decidable (Timely s a) :=
  match a with
  | .lock _ => inferInstanceAs (Decidable (_ = true))
  | .requireMigration => inferInstanceAs (Decidable (_ = false))
  | .publish _ | .fetchSession | .answerSession _ _ | .call | .fetchLocations | .fetchServers
  | .answerServers _ | .answerOwnSession _ | .perform | .throws => inferInstanceAs (Decidable True)

/-! ### What a step stores -/

/-- What a step leaves of what is stored when it makes no statement. -/
structure Leaves (s t : State) : Prop where
  table : t.table = s.table
  serverRevision : t.serverRevision = s.serverRevision
  migrationRequired : s.migrationRequired = true → t.migrationRequired = true

/-- A step makes a statement of the holder, or stores nothing but a request. -/
theorem step_stores {s t : State} (a : Action) (hstep : step s a = some t) :
    (∃ source statement rest, s.holder = .applying source (statement :: rest) ∧
      t = { s.execute statement with holder := .applying source rest }) ∨ Leaves s t := by
  cases a with
  | publish revision =>
    simp only [step] at hstep
    split_ifs at hstep
    obtain rfl := Option.some.inj hstep
    exact Or.inr ⟨rfl, rfl, id⟩
  | answerSession i inventory =>
    simp only [step, Option.bind_eq_some_iff] at hstep
    obtain ⟨reported, -, hstep⟩ := hstep
    split_ifs at hstep
    obtain rfl := Option.some.inj hstep
    exact Or.inr ⟨rfl, rfl, id⟩
  | fetchSession | call | throws =>
    obtain rfl := Option.some.inj hstep
    exact Or.inr ⟨rfl, rfl, id⟩
  | lock i | fetchLocations | fetchServers =>
    simp only [step] at hstep
    split at hstep
    · obtain rfl := Option.some.inj hstep
      exact Or.inr ⟨rfl, rfl, id⟩
    · cases hstep
  | answerServers x | answerOwnSession x =>
    simp only [step] at hstep
    split at hstep
    · split_ifs at hstep
      obtain rfl := Option.some.inj hstep
      exact Or.inr ⟨rfl, rfl, id⟩
    · cases hstep
  | perform =>
    simp only [step] at hstep
    split at hstep
    next source statement rest hholder =>
      obtain rfl := Option.some.inj hstep
      exact Or.inl ⟨source, statement, rest, hholder, rfl⟩
    next =>
      obtain rfl := Option.some.inj hstep
      exact Or.inr ⟨rfl, rfl, id⟩
    next => cases hstep
  | requireMigration =>
    obtain rfl := Option.some.inj hstep
    exact Or.inr ⟨rfl, rfl, fun _ ↦ rfl⟩

/-! ### The server side stays ahead -/

/-- What holds of the holder: what it is going to write is not older than what is stored nor newer
than the server side, and a reload that is going to clear the flag has seen no request since. -/
def HolderAhead (s : State) : Holder → Prop
  | .free | .reload _ => True
  | .locations migrationRequired => migrationRequired = true → s.requested = false
  | .servers migrationRequired asked =>
    (migrationRequired = true → s.requested = false) ∧ s.serverRevision ≤ asked ∧ asked ≤ s.server
  | .session reported => s.serverRevision ≤ reported
  | .applying source rest =>
    rest <:+ source.statements ∧ (.clearMigrationRequired ∈ rest → s.requested = false) ∧
      (rest ≠ [] → s.serverRevision ≤ source.revision ∧ source.revision ≤ s.server)

/-- The server side is ahead of the stored revision and of everything on its way there. -/
structure Ahead (s : State) : Prop where
  stored : s.serverRevision ≤ s.server
  waiting : ∀ inventory, some inventory ∈ s.callers → inventory.revision ≤ s.server
  holder : HolderAhead s s.holder

variable {s t : State}

theorem ahead_initial (table : Table ℤ Server) (serverRevision ahead : ℕ)
    (migrationRequired : Bool) :
    Ahead (State.initial table serverRevision ahead migrationRequired) where
  stored := Nat.le_add_right _ _
  waiting := by
    intro inventory hmem
    cases hmem
  holder := trivial

/-- The server side can only get further ahead. -/
theorem holderAhead_publish {revision : ℕ} (hserver : s.server ≤ revision) {holder : Holder}
    (hahead : HolderAhead s holder) : HolderAhead { s with server := revision } holder := by
  cases holder with
  | free => trivial
  | reload migrationRequired => trivial
  | locations migrationRequired => exact hahead
  | servers migrationRequired asked => exact ⟨hahead.1, hahead.2.1, hahead.2.2.trans hserver⟩
  | session reported => exact hahead
  | applying source rest =>
    exact ⟨hahead.1, hahead.2.1, fun hrest ↦
      ⟨(hahead.2.2 hrest).1, (hahead.2.2 hrest).2.trans hserver⟩⟩

/-- A request that comes while no reload is going to clear the flag does no harm. -/
theorem holderAhead_request {holder : Holder} (hclears : holder.clears = false)
    (hahead : HolderAhead s holder) :
    HolderAhead { s with migrationRequired := true, requested := true } holder := by
  cases holder with
  | free => trivial
  | reload migrationRequired => trivial
  | locations migrationRequired =>
    intro hflag
    rw [show migrationRequired = false from hclears] at hflag
    cases hflag
  | servers migrationRequired asked =>
    refine ⟨fun hflag ↦ ?_, hahead.2⟩
    rw [show migrationRequired = false from hclears] at hflag
    cases hflag
  | session reported => exact hahead
  | applying source rest =>
    refine ⟨hahead.1, fun hmem ↦ ?_, hahead.2.2⟩
    exact absurd hmem (of_decide_eq_false hclears)

/-- The statements of a delta that is not older than what is stored. -/
theorem holderAhead_delta {inventory : ServerInventory} (hserver : inventory.revision ≤ s.server)
    (hcurrent : inventory.hasPendingDelta = true → s.serverRevision ≤ inventory.revision) :
    HolderAhead s (.applying (.delta inventory) (updateServersDelta inventory)) := by
  refine ⟨List.suffix_rfl, fun hmem ↦ ?_, fun hrest ↦ ⟨?_, hserver⟩⟩
  · obtain ⟨response, hsource⟩ := clearMigrationRequired_mem (.delta inventory) hmem
    cases hsource
  · apply hcurrent
    by_contra hpending
    exact hrest (updateServersDelta_eq_nil (Bool.not_eq_true _ ▸ hpending))

/-- A caller enters the mutex. -/
theorem holderAhead_runUpdate (hahead : Ahead s) {supplied : Option ServerInventory}
    (hmem : supplied ∈ s.callers) (htimely : s.appliesOlder supplied = false) :
    HolderAhead s (s.runUpdate supplied) := by
  rcases hfull : s.needsFullUpdate with _ | _
  · cases supplied with
    | none =>
      simp only [State.runUpdate, hfull]
      exact le_rfl
    | some inventory =>
      simp only [State.runUpdate, hfull]
      refine holderAhead_delta (hahead.waiting inventory hmem) fun hpending ↦ ?_
      simpa [State.appliesOlder, hfull, hpending] using htimely
  · cases supplied with
    | none =>
      simp only [State.runUpdate, hfull]
      trivial
    | some inventory =>
      simp only [State.runUpdate, hfull]
      trivial

/-- What a statement of an update does to the stored revision. -/
theorem serverRevision_execute {source : Source} {statement : Statement} {rest : List Statement}
    (hahead : HolderAhead s (.applying source (statement :: rest))) :
    s.serverRevision ≤ (s.execute statement).serverRevision ∧
      (s.execute statement).serverRevision ≤ source.revision := by
  obtain ⟨hle, -⟩ := hahead.2.2 (List.cons_ne_nil _ _)
  cases statement with
  | setServerRevision revision =>
    have hmem := hahead.1.subset List.mem_cons_self
    have hrevision : revision = source.revision := setServerRevision_mem source hmem
    exact ⟨hle.trans hrevision.ge, hrevision.le⟩
  | deleteAllServers => exact ⟨le_rfl, hle⟩
  | addServers servers => exact ⟨le_rfl, hle⟩
  | deleteServers serverIds => exact ⟨le_rfl, hle⟩
  | clearMigrationRequired => exact ⟨le_rfl, hle⟩

/-- The holder makes a statement. -/
theorem ahead_execute {source : Source} {statement : Statement} {rest : List Statement}
    (hahead : Ahead s) (hholder : s.holder = .applying source (statement :: rest)) :
    Ahead { s.execute statement with holder := .applying source rest } := by
  have hwork : HolderAhead s (.applying source (statement :: rest)) := hholder ▸ hahead.holder
  obtain ⟨-, hserver⟩ := hwork.2.2 (List.cons_ne_nil _ _)
  have hrevision := (serverRevision_execute hwork).2
  refine ⟨hrevision.trans hserver, hahead.waiting, ?_, ?_, ?_⟩
  · exact (List.suffix_cons statement rest).trans hwork.1
  · exact fun hmem ↦ hwork.2.1 (List.mem_cons_of_mem _ hmem)
  · exact fun _ ↦ ⟨hrevision, hserver⟩

/-- Every timely step keeps the server side ahead. -/
theorem ahead_step (a : Action) (hahead : Ahead s) (htimely : Timely s a)
    (hstep : step s a = some t) : Ahead t := by
  cases a with
  | publish revision =>
    simp only [step] at hstep
    split_ifs at hstep with hserver
    obtain rfl := Option.some.inj hstep
    exact ⟨hahead.stored.trans hserver, fun inventory hmem ↦
      (hahead.waiting inventory hmem).trans hserver, holderAhead_publish hserver hahead.holder⟩
  | fetchSession =>
    obtain rfl := Option.some.inj hstep
    exact ⟨hahead.stored, hahead.waiting, hahead.holder⟩
  | answerSession i inventory =>
    simp only [step, Option.bind_eq_some_iff] at hstep
    obtain ⟨reported, -, hstep⟩ := hstep
    split_ifs at hstep with hanswers
    obtain rfl := Option.some.inj hstep
    refine ⟨hahead.stored, fun x hmem ↦ ?_, hahead.holder⟩
    rcases List.mem_append.mp hmem with hmem | hmem
    · exact hahead.waiting x hmem
    · rw [List.mem_singleton] at hmem
      rw [← hmem] at hanswers
      exact (of_decide_eq_true hanswers).2
  | call =>
    obtain rfl := Option.some.inj hstep
    refine ⟨hahead.stored, fun x hmem ↦ ?_, hahead.holder⟩
    rcases List.mem_append.mp hmem with hmem | hmem
    · exact hahead.waiting x hmem
    · rw [List.mem_singleton] at hmem
      cases hmem
  | lock i =>
    simp only [step] at hstep
    split at hstep
    next supplied hfree hcaller =>
      obtain rfl := Option.some.inj hstep
      have hmem : supplied ∈ s.callers := List.mem_of_getElem? hcaller
      have hcurrent : s.appliesOlder supplied = false := by
        simpa [Timely, hcaller] using htimely
      refine ⟨hahead.stored, fun x hx ↦ hahead.waiting x (List.mem_of_mem_eraseIdx hx), ?_⟩
      have hruns := holderAhead_runUpdate hahead hmem hcurrent
      exact hruns
    next => cases hstep
  | fetchLocations =>
    simp only [step] at hstep
    split at hstep
    next migrationRequired _ =>
      obtain rfl := Option.some.inj hstep
      exact ⟨hahead.stored, hahead.waiting, fun _ ↦ rfl⟩
    next => cases hstep
  | fetchServers =>
    simp only [step] at hstep
    split at hstep
    next migrationRequired hholder =>
      obtain rfl := Option.some.inj hstep
      have hwork : HolderAhead s (.locations migrationRequired) := hholder ▸ hahead.holder
      exact ⟨hahead.stored, hahead.waiting, hwork, hahead.stored, le_rfl⟩
    next => cases hstep
  | answerServers response =>
    simp only [step] at hstep
    split at hstep
    next migrationRequired asked hholder =>
      split_ifs at hstep with hresponse
      obtain rfl := Option.some.inj hstep
      have hwork : HolderAhead s (.servers migrationRequired asked) := hholder ▸ hahead.holder
      refine ⟨hahead.stored, hahead.waiting, List.suffix_rfl, fun hmem ↦ ?_, fun _ ↦
        ⟨hwork.2.1.trans hresponse.1, hresponse.2⟩⟩
      obtain ⟨_, hsource⟩ := clearMigrationRequired_mem
        (.reload migrationRequired response) hmem
      cases hsource
      exact hwork.1 rfl
    next => cases hstep
  | answerOwnSession inventory =>
    simp only [step] at hstep
    split at hstep
    next reported hholder =>
      split_ifs at hstep with hanswers
      obtain rfl := Option.some.inj hstep
      have hwork : HolderAhead s (.session reported) := hholder ▸ hahead.holder
      refine ⟨hahead.stored, hahead.waiting, ?_⟩
      cases inventory with
      | none => trivial
      | some x =>
        have hx : reported ≤ x.revision ∧ x.revision ≤ s.server := of_decide_eq_true hanswers
        have hdelta : HolderAhead s (.applying (.delta x) (updateServersDelta x)) :=
          holderAhead_delta hx.2 fun _ ↦ le_trans hwork hx.1
        exact hdelta
    next => cases hstep
  | perform =>
    simp only [step] at hstep
    split at hstep
    next source statement rest hholder =>
      obtain rfl := Option.some.inj hstep
      exact ahead_execute hahead hholder
    next =>
      obtain rfl := Option.some.inj hstep
      exact ⟨hahead.stored, hahead.waiting, trivial⟩
    next => cases hstep
  | throws =>
    obtain rfl := Option.some.inj hstep
    exact ⟨hahead.stored, hahead.waiting, trivial⟩
  | requireMigration =>
    obtain rfl := Option.some.inj hstep
    exact ⟨hahead.stored, hahead.waiting, holderAhead_request htimely hahead.holder⟩

/-! ### The promise along timely runs -/

/-- A step from a state in which the server side is ahead keeps the promise. -/
theorem promise_step (a : Action) (hahead : Ahead s) (hstep : step s a = some t) :
    Promise s t := by
  rcases step_stores a hstep with ⟨source, statement, rest, hholder, rfl⟩ | hleaves
  · have hwork : HolderAhead s (.applying source (statement :: rest)) := hholder ▸ hahead.holder
    refine ⟨(serverRevision_execute hwork).1, ?_, ?_⟩
    · intro inventory statements hdelta hlt
      rw [hholder, Holder.applying.injEq] at hdelta
      have hrevision := (hwork.2.2 (List.cons_ne_nil _ _)).1
      rw [hdelta.1] at hrevision
      exact absurd hlt (not_lt.mpr hrevision)
    · intro hrequested hflag
      cases statement with
      | clearMigrationRequired =>
        rw [hwork.2.1 List.mem_cons_self] at hrequested
        cases hrequested
      | deleteAllServers => exact hflag
      | addServers servers => exact hflag
      | deleteServers serverIds => exact hflag
      | setServerRevision revision => exact hflag
  · exact ⟨hleaves.serverRevision.ge, fun _ _ _ _ ↦ hleaves.table, fun _ ↦
      hleaves.migrationRequired⟩

/-- Every step of a timely run keeps the promise. -/
theorem promise_of_timely (table : Table ℤ Server) (serverRevision ahead : ℕ)
    (migrationRequired : Bool) (a : Action)
    (hreach : Reaches step Timely
      (State.initial table serverRevision ahead migrationRequired) s)
    (hstep : step s a = some t) : Promise s t := by
  have hahead : Ahead s := hreach.invariant Ahead
    (fun b _ _ hinv htimely hnext ↦ ahead_step b hinv htimely hnext)
    (ahead_initial table serverRevision ahead migrationRequired)
  exact promise_step a hahead hstep

/-- A node for the runs below. -/
def sampleServer : Server where
  id := 263
  hostname := "us-014.windscribe.dev"
  ip := "181.215.52.122"
  ip2 := "181.215.52.123"
  ip3 := "181.215.52.124"
  datacenterId := 87
  weight := 1
  health := 0

/-- A delta that brings one node and a revision. -/
def sampleInventory (revision : ℕ) : ServerInventory where
  action := .delta
  enabled := some [sampleServer]
  disabled := some []
  revision := revision

/-- A session is fetched and its delta applied, while another component asks for a reload; the last
step is the write of the revision. -/
theorem promise_of_timely_delta :
    ∃ s t, Reaches step Timely (State.initial (fun _ ↦ none) 755 1 false) s ∧
      step s .perform = some t ∧ t.serverRevision = 756 ∧ t.migrationRequired = true ∧
      Promise s t := by
  obtain ⟨s, hreach, hcheck⟩ := exists_reaches_of_run step Timely
    (State.initial (fun _ ↦ none) 755 1 false)
    [.fetchSession, .answerSession 0 (some (sampleInventory 756)), .lock 0, .requireMigration,
      .perform, .perform]
    (fun s ↦ (step s .perform).any fun t ↦ (t.serverRevision == 756) && t.migrationRequired)
    (by decide)
  obtain ⟨t, hstep, hlast⟩ := (Option.any_eq_true _ _).mp hcheck
  rw [Bool.and_eq_true, beq_iff_eq] at hlast
  exact ⟨s, t, hreach, hstep, hlast.1, hlast.2, promise_of_timely _ _ _ _ _ hreach hstep⟩

/-- Two sessions are fetched, and the server side moves on between their answers. The newer delta is
applied first; the older one is then applied over it, and takes the stored revision back. -/
theorem not_promise_older :
    ¬ ∀ (table : Table ℤ Server) (serverRevision ahead : ℕ) (migrationRequired : Bool) (s t : State)
        (a : Action), Reaches step Always
          (State.initial table serverRevision ahead migrationRequired) s →
        step s a = some t → Promise s t := by
  intro hpromise
  obtain ⟨s, hreach, hcheck⟩ := exists_reaches_of_run step Always
    (State.initial (fun _ ↦ none) 755 1 false)
    [.fetchSession, .fetchSession, .answerSession 0 (some (sampleInventory 756)), .publish 757,
      .answerSession 0 (some (sampleInventory 757)), .lock 1, .perform, .perform, .perform,
      .perform, .lock 0, .perform, .perform]
    (fun s ↦ (step s .perform).any fun t ↦ decide (t.serverRevision < s.serverRevision))
    (by decide)
  obtain ⟨t, hstep, hlast⟩ := (Option.any_eq_true _ _).mp hcheck
  have hdecreased : t.serverRevision < s.serverRevision := of_decide_eq_true hlast
  exact absurd (hpromise _ _ _ _ s t .perform hreach hstep).monotone (not_le.mpr hdecreased)

/-- A reload that the flag had asked for is fetching when the flag is written again; the reload
clears it. -/
theorem not_promise_request :
    ∃ s t, Reaches step Always (State.initial (fun _ ↦ none) 755 1 true) s ∧
      step s .perform = some t ∧ ¬ Promise s t := by
  obtain ⟨s, hreach, hcheck⟩ := exists_reaches_of_run step Always
    (State.initial (fun _ ↦ none) 755 1 true)
    [.call, .lock 0, .fetchLocations, .fetchServers, .requireMigration,
      .answerServers { servers := [sampleServer], revision := 756 }, .perform, .perform, .perform]
    (fun s ↦ s.requested && s.migrationRequired &&
      (step s .perform).any fun t ↦ !t.migrationRequired)
    (by decide)
  simp only [Bool.and_eq_true, Option.any_eq_true, Bool.not_eq_true'] at hcheck
  obtain ⟨⟨hrequested, hflag⟩, t, hstep, hcleared⟩ := hcheck
  refine ⟨s, t, hreach, hstep, fun hpromise ↦ ?_⟩
  rw [hpromise.kept hrequested hflag] at hcleared
  cases hcleared

end WindscribeVpn.Repository.ServerListUpdates
