import WindscribeVpn.Tunnel.TunSession

/-!
# The DNS stage of a session

Whether DNS is intercepted, and on which port `ctrld` listens, is decided for each connect, while
the mux that carries the DNS stage lasts as long as the session. `TunnelManager.kt` remembers what
it installed as a mux and a port, and rebuilds the stage when one of them has changed. This module
puts the stage on top of the model of the manager: a step here is a step of the manager together
with what it does to the stage, a change of the host's decision between connects, or the end of one
of the stage's threads.

`Intercepting` asks for a running stage on the current port after a connect. A stage whose socket
cannot be opened stays down while the connect succeeds (`not_intercepting_unopened`), since a
failure of DNS is not to stop traffic. What a connect does leave is `Installed`: a stage on the
current port exactly when the host's DNS type is `Proxy`, none otherwise, and one that runs unless
it has failed. `installed_of_connected` proves it in every run.
-/

set_option autoImplicit false
set_option relaxedAutoImplicit false

namespace WindscribeVpn.Tunnel.DnsStageReconcile

open TunnelManager Foundations.Runs

/-- `DnsType`. -/
inductive DnsType
  | tunnel
  | plain
  | proxy
  deriving DecidableEq, Repr

/-- What the host answers about DNS: the type of `dnsDetails`, if there are any, and
`controlDPort`. -/
structure HostDns where
  dnsDetails : Option DnsType
  controlDPort : ℕ
  deriving DecidableEq, Repr

/-- A `ControlDDnsStage`. `failed` is history: its start could not open its socket, or one of its
threads has died. -/
structure Stage where
  port : ℕ
  running : Bool := false
  failed : Bool := false
  deriving DecidableEq, Repr

/-- `start`; `opens` says that `openSocket` gets its socket. -/
def Stage.start (stage : Stage) (opens : Bool) : Stage :=
  if stage.running then stage
  else if opens then { stage with running := true }
  else { stage with failed := true }

/-- One of the threads of the stage ends by an exception. -/
def Stage.die (stage : Stage) : Stage :=
  if stage.running then { stage with running := false, failed := true } else stage

/-- `dnsStageKeyFor`. -/
def HostDns.dnsStageKeyFor (dns : HostDns) : Option ℕ :=
  if dns.dnsDetails = some .proxy then some dns.controlDPort else none

/-- `buildDnsStage`. -/
def HostDns.buildDnsStage (dns : HostDns) : Option Stage :=
  match dns.dnsDetails with
  | some .proxy => some { port := dns.controlDPort }
  | some .tunnel | some .plain | none => none

/-- A manager with the DNS stage of its mux. Muxes are numbered as they are created, and `muxId` is
the number of the last, which is the live one if there is one. `building` is the stage of a mux that
is not started yet. `connected` says that the last step was the end of a successful `connect`. -/
structure DnsSession where
  manager : Manager
  dns : HostDns
  muxId : ℕ := 0
  dnsStage : Option Stage := none
  building : Option Stage := none
  dnsStageState : Option (ℕ × Option ℕ) := none
  connected : Bool := false

/-- Whether the live mux, if there is one, has been started and not stopped. -/
def muxRunning (manager : Manager) : Option Bool := manager.mux.map Mux.running

variable (s : DnsSession)

/-- `setDnsStage` of the live mux. -/
def DnsSession.setDnsStage (stage : Option Stage) (opens : Bool) : DnsSession :=
  { s with
    dnsStage :=
      if muxRunning s.manager = some true then stage.map (Stage.start · opens) else none }

/-- `reconcileDnsStage`. -/
def DnsSession.reconcileDnsStage (opens : Bool) : DnsSession :=
  let port := s.dns.dnsStageKeyFor
  if s.dnsStageState = some (s.muxId, port) then s
  else DnsSession.setDnsStage { s with dnsStageState := some (s.muxId, port) }
    s.dns.buildDnsStage opens

/-- The mux of `connect` has started, with the stage it was built with. -/
def DnsSession.createMux (opens : Bool) : DnsSession :=
  { s with
    muxId := s.muxId + 1
    dnsStage := s.building.map (Stage.start · opens)
    dnsStageState := some (s.muxId + 1, s.dns.dnsStageKeyFor) }

/-- The mux of `beginBlocking` has started, which has no stage. -/
def DnsSession.createBlockingMux : DnsSession :=
  { s with muxId := s.muxId + 1, dnsStage := none }

/-- What a step of the manager does to the DNS stage; `s` has the manager after the step, and
`before` is the one before it. -/
def DnsSession.follow (before : Manager) (opens : Bool) : TunnelManager.Action → DnsSession
  | .detachHost h => if before.host = some h then { s with dnsStageState := none } else s
  | .connect _ _ =>
    match s.manager.op with
    | .attaching _ => s.reconcileDnsStage opens
    | _ => s
  | .opNotify =>
    match s.manager.op with
    | .attaching _ => s.reconcileDnsStage opens
    | .starting (.first _) _ => { s with building := s.dns.buildDnsStage }
    | _ => s
  | .opStart true =>
    match before.op with
    | .starting (.first _) _ => s.createMux opens
    | _ => s.createBlockingMux
  | .opEngine .started => { s with connected := true }
  | _ => s

/-- The places of a thread that is in `connect`. -/
def connects : Op → Bool
  | .requesting (.first _) | .requesting (.replace _) | .notifying (.first _) _
  | .notifying (.replace _) _ | .starting (.first _) _ | .attaching _ => true
  | .idle | .requesting _ | .notifying _ _ | .starting _ _ => false

/-- A step of the session. -/
inductive Action
  /-- A step of the manager; `opens` says that a stage it starts gets its socket. -/
  | manager (a : TunnelManager.Action) (opens : Bool)
  /-- The host decides about DNS, which it does before a connect. -/
  | decide (dns : HostDns)
  /-- A thread of the stage dies. -/
  | die
  deriving DecidableEq, Repr

/-- One step, or nothing when it cannot be taken now. -/
def step : Action → Option DnsSession
  | .manager a opens =>
    (TunnelManager.step s.manager a).map fun manager ↦
      DnsSession.follow { s with manager, connected := false } s.manager opens a
  | .decide dns =>
    if connects s.manager.op then none else some { s with dns, connected := false }
  | .die => some { s with dnsStage := s.dnsStage.map Stage.die, connected := false }

/-- The start of the process. -/
def DnsSession.initial (dns : HostDns) : DnsSession := { manager := Manager.initial, dns }

/-! ### What a connect leaves -/

/-- The live mux has a running stage on the current port exactly when the type is `Proxy`, and no
stage otherwise. -/
structure Intercepting : Prop where
  live : muxRunning s.manager = some true
  proxy : s.dns.dnsDetails = some .proxy →
    ∃ stage, s.dnsStage = some stage ∧ stage.port = s.dns.controlDPort ∧ stage.running = true
  passing : s.dns.dnsDetails ≠ some .proxy → s.dnsStage = none

/-- The live mux has a stage on the current port exactly when the type is `Proxy`, and no stage
otherwise; and the stage runs unless it has failed. -/
structure Installed : Prop where
  live : muxRunning s.manager = some true
  proxy : s.dns.dnsDetails = some .proxy →
    ∃ stage, s.dnsStage = some stage ∧ stage.port = s.dns.controlDPort ∧
      (stage.failed = false → stage.running = true)
  passing : s.dns.dnsDetails ≠ some .proxy → s.dnsStage = none

/-! ### Stages -/

/-- A stage that has been started runs unless it has failed. -/
def Stage.Started (stage : Stage) : Prop := stage.failed = false → stage.running = true

theorem Stage.start_port (stage : Stage) (opens : Bool) :
    (stage.start opens).port = stage.port := by
  unfold Stage.start
  split_ifs <;> rfl

theorem Stage.start_started (stage : Stage) (opens : Bool) : (stage.start opens).Started := by
  unfold Stage.start
  split_ifs with hrunning
  · exact fun _ ↦ hrunning
  · exact fun _ ↦ rfl
  · exact nofun

theorem Stage.die_port (stage : Stage) : stage.die.port = stage.port := by
  unfold Stage.die
  split_ifs <;> rfl

theorem Stage.die_started {stage : Stage} (hstarted : stage.Started) : stage.die.Started := by
  unfold Stage.die
  split_ifs
  · exact nofun
  · exact hstarted

/-- A stage is built exactly on the port that is recorded for it. -/
theorem buildDnsStage_port (dns : HostDns) :
    dns.buildDnsStage.map Stage.port = dns.dnsStageKeyFor := by
  obtain ⟨_ | type, port⟩ := dns
  · rfl
  · cases type <;> rfl

/-! ### What the manager's steps do to the mux -/

variable {m m' : Manager}

/-- A step that creates no mux and takes no thread on in its `connect`. -/
structure Undisturbed (m m' : Manager) : Prop where
  mux : muxRunning m' = muxRunning m ∨ m'.mux = none
  place : m'.op = m.op ∧ muxRunning m' = muxRunning m ∨ connects m'.op = false

/-- A step that leaves the mux and the place alone. -/
theorem Undisturbed.of_eq (hmux : muxRunning m' = muxRunning m) (hop : m'.op = m.op) :
    Undisturbed m m' :=
  ⟨Or.inl hmux, Or.inl ⟨hop, hmux⟩⟩

/-- A step that drops the mux with the monitor free. -/
theorem Undisturbed.of_none (hmux : m'.mux = none) (hop : m'.op = .idle) : Undisturbed m m' :=
  ⟨Or.inr hmux, Or.inr (by rw [hop]; rfl)⟩

theorem muxRunning_of_same (hsame : SameSession m m') : muxRunning m' = muxRunning m :=
  congrArg (Option.map Mux.running) hsame.mux

theorem finishHold_muxRunning (r : Request) : muxRunning (m.finishHold r) = muxRunning m :=
  muxRunning_of_same (sameSession_finishHold m r)

/-- The end of a hold, which requests a TUN of its own at most. -/
theorem undisturbed_exclude (hsame : SameSession m m') (r : Request)
    (hexclude : connects (.requesting r) = false) (excludes : Bool) :
    Undisturbed m (m'.excludeSelfWhileHolding r excludes) := by
  refine ⟨Or.inl (muxRunning_of_same (hsame.trans (sameSession_exclude m' r excludes))),
    Or.inr ?_⟩
  rcases exclude_op m' r excludes with hop | ⟨hop, -⟩
  · rw [hop]
    rfl
  · rw [hop]
    exact hexclude

theorem undisturbed_disconnect (hold : TunHold) (excludes : Bool) (hidle : m.op = .idle) :
    Undisturbed m (m.disconnect hold excludes) := by
  cases hold with
  | none => exact .of_none (closeTun_mux _) ((closeTun_op _).trans hidle)
  | forHandover =>
    have hstopped : SameSession m { m with activeEngine := none } := sameSession_of_eq rfl rfl
    exact undisturbed_exclude hstopped .excludeForHandover rfl excludes
  | forBlocking =>
    have hstopped : SameSession m { m with activeEngine := none } := sameSession_of_eq rfl rfl
    exact undisturbed_exclude hstopped .excludeForBlocking rfl excludes

theorem onTunReplaced_muxRunning (k : HostId) (tun : ℕ) :
    muxRunning (m.onTunReplaced k tun) = muxRunning m := by
  unfold Manager.onTunReplaced
  split_ifs
  · rfl
  · rfl
  · cases hmux : m.mux <;> simp [muxRunning, Manager.releasePreviousTun, hmux]

theorem onTunReplaced_op (k : HostId) (tun : ℕ) : (m.onTunReplaced k tun).op = m.op := by
  unfold Manager.onTunReplaced
  split_ifs <;> rfl

theorem undisturbed_onHoldExpired (blocking : Bool) (hidle : m.op = .idle) :
    Undisturbed m (m.onHoldExpired blocking) := by
  unfold Manager.onHoldExpired
  split_ifs
  · exact .of_eq rfl rfl
  · have hmux : m.cancelHoldWatchdog.mux = m.mux := (sameSession_cancel m).mux
    exact .of_eq (congrArg (Option.map Mux.running) hmux) (cancel_op m)
  · exact .of_none (closeTun_mux _) ((closeTun_op _).trans hidle)

/-- The steps of a thread inside the monitor, which takes its operation on from place to place. -/
def insideMonitor : TunnelManager.Action → Bool
  | .connect _ _ | .opEstablish _ | .opNotify | .opStart _ | .opEngine _ => true
  | _ => false

theorem undisturbed_step {a : TunnelManager.Action} (houtside : insideMonitor a = false)
    (hstep : TunnelManager.step m a = some m') : Undisturbed m m' := by
  cases step_move hstep with
  | connect | established | establishFailed | notified | muxStarted | attached => cases houtside
  | detachHost hidle =>
    unfold Manager.detachHost
    split_ifs
    · exact .of_eq rfl rfl
    · exact .of_none (closeTun_mux _) ((closeTun_op _).trans ((cancel_op m).trans hidle))
  | disconnect hidle => exact undisturbed_disconnect _ _ hidle
  | revoked hidle =>
    exact .of_none (closeTun_mux _) ((closeTun_op _).trans ((cancel_op m).trans hidle))
  | released hidle =>
    unfold Manager.releaseHeldTunnel
    split_ifs
    · exact .of_eq rfl rfl
    · exact .of_none (closeTun_mux _) ((closeTun_op _).trans ((cancel_op m).trans hidle))
  | beginBlocking =>
    unfold Manager.beginBlocking
    split_ifs
    · exact .of_eq rfl rfl
    · split
      · exact .of_eq rfl rfl
      · exact ⟨Or.inl rfl, Or.inr rfl⟩
  | @holdForBlocking excludes =>
    unfold Manager.holdForBlocking
    split_ifs
    · exact .of_eq rfl rfl
    · exact undisturbed_exclude (sameSession_unheld m) .excludeConverted rfl excludes
  | @delivered n =>
    exact .of_eq (onTunReplaced_muxRunning n.host n.tun) (onTunReplaced_op n.host n.tun)
  | @expired t blocking _ hidle =>
    obtain ⟨hmux, hplace⟩ := undisturbed_onHoldExpired blocking hidle
    exact ⟨hmux, hplace⟩
  | attachHost | requestTun | listened | unheard | destroyed | startedTask =>
    exact .of_eq rfl rfl

/-! ### What is recorded -/

/-- What the manager knows of the stage: its muxes run, a record is of a mux that has been created,
a record of the live mux names the port of its stage, and the stage has been started. -/
structure Records (s : DnsSession) : Prop where
  running : muxRunning s.manager ≠ some false
  created : ∀ id port, s.dnsStageState = some (id, port) → id ≤ s.muxId
  recorded : muxRunning s.manager = some true → ∀ port,
    s.dnsStageState = some (s.muxId, port) → s.dnsStage.map Stage.port = port
  started : ∀ stage, s.dnsStage = some stage → stage.Started

/-- What a thread that is in `connect` has at its place. -/
def AtPlace (s : DnsSession) : Op → Prop
  | .requesting (.replace _) | .notifying (.replace _) _ => muxRunning s.manager = some true
  | .starting (.first _) _ => s.building = s.dns.buildDnsStage
  | .attaching _ =>
    muxRunning s.manager = some true ∧ s.dnsStage.map Stage.port = s.dns.dnsStageKeyFor
  | _ => True

variable {s} {t : DnsSession}

theorem atPlace_of_not_connects {op : Op} (hnot : connects op = false) : AtPlace s op := by
  cases op with
  | idle => trivial
  | requesting r =>
    cases r with
    | replace engine => cases hnot
    | first | blocking | excludeForHandover | excludeForBlocking | excludeConverted => trivial
  | notifying r tun =>
    cases r with
    | replace engine => cases hnot
    | first | blocking | excludeForHandover | excludeForBlocking | excludeConverted => trivial
  | starting r tun =>
    cases r with
    | first engine => cases hnot
    | replace | blocking | excludeForHandover | excludeForBlocking | excludeConverted => trivial
  | attaching engine => cases hnot

theorem AtPlace.congr {op : Op} (hplace : AtPlace s op)
    (hmux : muxRunning t.manager = muxRunning s.manager)
    (hrest : (t.building, t.dns, t.dnsStage.map Stage.port) =
      (s.building, s.dns, s.dnsStage.map Stage.port)) : AtPlace t op := by
  simp only [Prod.mk.injEq] at hrest
  obtain ⟨hbuilding, hdns, hport⟩ := hrest
  unfold AtPlace at hplace ⊢
  rw [hmux, hbuilding, hdns, hport]
  exact hplace

/-- A step of the manager that creates no mux leaves the records right. -/
theorem Records.follows (hrecords : Records s) {manager : Manager}
    (hmux : muxRunning manager = muxRunning s.manager ∨ manager.mux = none) (connected : Bool) :
    Records { s with manager, connected } where
  running := by
    rcases hmux with hmux | hnone
    · exact hmux ▸ hrecords.running
    · simp [muxRunning, hnone]
  created := hrecords.created
  recorded := by
    intro hlive
    rcases hmux with hmux | hnone
    · exact hrecords.recorded (hmux.symm.trans hlive)
    · simp [muxRunning, hnone] at hlive
  started := hrecords.started

/-- A mux with a stage that has just been started. -/
theorem started_map_start {stage : Option Stage} {opens : Bool} (started : Stage)
    (hstage : stage.map (Stage.start · opens) = some started) : started.Started := by
  obtain ⟨built, -, rfl⟩ := Option.map_eq_some_iff.mp hstage
  exact built.start_started opens

theorem port_map_start (stage : Option Stage) (opens : Bool) :
    (stage.map (Stage.start · opens)).map Stage.port = stage.map Stage.port := by
  cases stage with
  | none => rfl
  | some built => exact congrArg some (built.start_port opens)

/-- After `reconcileDnsStage` the live mux has a stage on the current port. -/
theorem reconcileDnsStage_port (hrecords : Records s)
    (hmux : muxRunning s.manager = some true) (opens : Bool) :
    (s.reconcileDnsStage opens).dnsStage.map Stage.port = s.dns.dnsStageKeyFor := by
  unfold DnsSession.reconcileDnsStage
  dsimp only
  split_ifs with hrecorded
  · exact hrecords.recorded hmux _ hrecorded
  · unfold DnsSession.setDnsStage
    rw [if_pos hmux, port_map_start]
    exact buildDnsStage_port s.dns

theorem reconcileDnsStage_records (hrecords : Records s)
    (hmux : muxRunning s.manager = some true) (opens : Bool) :
    Records (s.reconcileDnsStage opens) := by
  have hport := reconcileDnsStage_port hrecords hmux opens
  unfold DnsSession.reconcileDnsStage at hport ⊢
  dsimp only at hport ⊢
  split_ifs at hport ⊢ with hrecorded
  · exact hrecords
  · refine ⟨hrecords.running, ?_, ?_, ?_⟩
    · rintro id port hstate
      obtain ⟨rfl, -⟩ := Prod.mk.inj (Option.some.inj hstate)
      exact Nat.le_refl _
    · rintro - port hstate
      obtain ⟨-, rfl⟩ := Prod.mk.inj (Option.some.inj hstate)
      exact hport
    · unfold DnsSession.setDnsStage
      rw [if_pos hmux]
      exact started_map_start

theorem reconcileDnsStage_manager (opens : Bool) :
    (s.reconcileDnsStage opens).manager = s.manager ∧ (s.reconcileDnsStage opens).dns = s.dns ∧
      (s.reconcileDnsStage opens).connected = s.connected := by
  unfold DnsSession.reconcileDnsStage
  dsimp only
  split_ifs <;> exact ⟨rfl, rfl, rfl⟩

theorem createMux_records (tun : ℕ) (hmux : s.manager.mux = some ⟨tun, true⟩)
    (hbuilding : s.building = s.dns.buildDnsStage) (opens : Bool) :
    Records (s.createMux opens) ∧
      (s.createMux opens).dnsStage.map Stage.port = s.dns.dnsStageKeyFor := by
  have hport : (s.createMux opens).dnsStage.map Stage.port = s.dns.dnsStageKeyFor := by
    rw [← buildDnsStage_port, ← hbuilding]
    exact port_map_start s.building opens
  refine ⟨⟨?_, ?_, ?_, started_map_start⟩, hport⟩
  · change muxRunning s.manager ≠ some false
    simp [muxRunning, hmux]
  · rintro id port hstate
    obtain ⟨rfl, -⟩ := Prod.mk.inj (Option.some.inj hstate)
    exact Nat.le_refl _
  · rintro - port hstate
    obtain ⟨-, rfl⟩ := Prod.mk.inj (Option.some.inj hstate)
    exact hport

/-- A mux without a stage is not the one any record is of. -/
theorem createBlockingMux_records (tun : ℕ) (hmux : s.manager.mux = some ⟨tun, true⟩)
    (hcreated : ∀ id port, s.dnsStageState = some (id, port) → id ≤ s.muxId) :
    Records s.createBlockingMux where
  running := by
    change muxRunning s.manager ≠ some false
    simp [muxRunning, hmux]
  created id port hstate := Nat.le_succ_of_le (hcreated id port hstate)
  recorded := fun _ port hstate ↦ absurd (hcreated _ port hstate) (Nat.not_succ_le_self s.muxId)
  started := nofun

/-! ### Steps -/

/-- The invariant: the records are right, and so is what a thread in `connect` has. -/
structure Accounted (s : DnsSession) : Prop extends Records s where
  place : AtPlace s s.manager.op

/-- A step of the manager that takes no `connect` on and does nothing to the stage. -/
theorem Accounted.follows (haccounted : Accounted s) {manager : Manager}
    (hframe : Undisturbed s.manager manager) (connected : Bool) :
    Accounted { s with manager, connected } := by
  refine ⟨haccounted.toRecords.follows hframe.mux connected, ?_⟩
  rcases hframe.place with ⟨hop, hmux⟩ | hnot
  · change AtPlace _ manager.op
    rw [hop]
    exact haccounted.place.congr hmux rfl
  · exact atPlace_of_not_connects hnot

/-- A thread in `connect` reconciles the stage, and goes on to its engine. -/
theorem accounted_reconcile (hrecords : Records s) (hmux : muxRunning s.manager = some true)
    {engine : Engine} (hop : s.manager.op = .attaching engine) (opens : Bool) :
    Accounted (s.reconcileDnsStage opens) := by
  refine ⟨reconcileDnsStage_records hrecords hmux opens, ?_⟩
  obtain ⟨hmanager, hdns, -⟩ := reconcileDnsStage_manager (s := s) opens
  rw [hmanager, hop]
  refine ⟨by rw [hmanager]; exact hmux, ?_⟩
  rw [hdns]
  exact reconcileDnsStage_port hrecords hmux opens

/-- Where `connect` goes: to the engine, or to the TUN it replaces, only with a mux. -/
theorem connect_place (engine : Engine) (covers : Bool) (hidle : m.op = .idle) :
    connects (m.connect engine covers).op = false ∨
      (m.connect engine covers).op = .requesting (.first engine) ∨
      m.mux.isSome = true ∧ ((m.connect engine covers).op = .attaching engine ∨
        (m.connect engine covers).op = .requesting (.replace engine)) := by
  unfold Manager.connect
  dsimp only
  split
  · left
    rw [cancel_op, hidle]
    rfl
  · split_ifs with hlive
    · exact Or.inr (Or.inr ⟨(Bool.and_eq_true_iff.mp hlive).1, Or.inl rfl⟩)
    · exact Or.inr (Or.inr ⟨(Bool.and_eq_true_iff.mp hlive).1, Or.inr rfl⟩)
    · exact Or.inr (Or.inl rfl)

/-- A mux that is there runs. -/
theorem Records.live (hrecords : Records s) (hsome : s.manager.mux.isSome = true) :
    muxRunning s.manager = some true := by
  obtain ⟨⟨tun, running⟩, hmux⟩ := Option.isSome_iff_exists.mp hsome
  have hrunning := hrecords.running
  rw [muxRunning, hmux] at hrunning ⊢
  cases running with
  | false => exact absurd rfl hrunning
  | true => rfl

theorem accounted_connect (haccounted : Accounted s) (engine : Engine) (covers opens : Bool)
    (hidle : s.manager.op = .idle) :
    Accounted (DnsSession.follow
      { s with manager := s.manager.connect engine covers, connected := false } s.manager opens
      (.connect engine covers)) := by
  have hmux := muxRunning_of_same (sameSession_connect s.manager engine covers)
  have hrecords := haccounted.toRecords.follows (Or.inl hmux) false
  have hplace := connect_place engine covers hidle
  unfold DnsSession.follow
  dsimp only
  split
  · rename_i attached hop
    refine accounted_reconcile hrecords (hmux.trans ?_) hop opens
    rcases hplace with hnot | hfirst | ⟨hsome, -⟩
    · rw [hop] at hnot
      cases hnot
    · rw [hop] at hfirst
      cases hfirst
    · exact haccounted.live hsome
  · rename_i hother
    refine ⟨hrecords, ?_⟩
    rcases hplace with hnot | hfirst | ⟨hsome, hattach | hreplace⟩
    · exact atPlace_of_not_connects hnot
    · change AtPlace _ (s.manager.connect engine covers).op
      rw [hfirst]
      trivial
    · exact absurd hattach (hother engine)
    · change AtPlace _ (s.manager.connect engine covers).op
      rw [hreplace]
      exact hmux.trans (haccounted.live hsome)

/-- `requestTun` of the thread in the monitor establishes or throws. -/
theorem accounted_opEstablish (haccounted : Accounted s) {established : Bool} {manager : Manager}
    (hstep : TunnelManager.step s.manager (.opEstablish established) = some manager) :
    Accounted { s with manager, connected := false } := by
  cases step_move hstep with
  | @established r k hop hhost =>
    have hplace := haccounted.place
    rw [hop] at hplace
    have hmux : muxRunning { s.manager.establish k with
      op := .notifying r (s.manager.generations + 1) } = muxRunning s.manager := rfl
    refine ⟨haccounted.toRecords.follows (Or.inl hmux) false, ?_⟩
    cases r with
    | replace engine => exact hplace
    | first | blocking | excludeForHandover | excludeForBlocking | excludeConverted => trivial
  | @establishFailed r k hop hhost =>
    refine haccounted.follows ?_ false
    cases r with
    | first engine | replace engine => exact ⟨Or.inl rfl, Or.inr rfl⟩
    | blocking =>
      exact ⟨Or.inl (congrArg (Option.map Mux.running) (closeTun_mux s.manager)), Or.inr rfl⟩
    | excludeForHandover => exact ⟨Or.inl (finishHold_muxRunning .excludeForHandover), Or.inr rfl⟩
    | excludeForBlocking => exact ⟨Or.inl (finishHold_muxRunning .excludeForBlocking), Or.inr rfl⟩
    | excludeConverted => exact ⟨Or.inl (finishHold_muxRunning .excludeConverted), Or.inr rfl⟩

/-- Where the thread in the monitor goes after its own notification. -/
theorem notified_place (r : Request) (tun : ℕ) :
    (∃ engine, r = .first engine ∧ (m.notified r tun).op = .starting r tun) ∨
      (∃ engine, r = .replace engine ∧ (m.notified r tun).op = .attaching engine) ∨
      connects (m.notified r tun).op = false := by
  cases r with
  | first engine => exact Or.inl ⟨engine, rfl, rfl⟩
  | replace engine => exact Or.inr (Or.inl ⟨engine, rfl, rfl⟩)
  | blocking | excludeForHandover | excludeForBlocking | excludeConverted =>
    exact Or.inr (Or.inr rfl)

theorem notified_muxRunning (r : Request) (tun : ℕ) :
    muxRunning (m.notified r tun) = muxRunning m := by
  cases r with
  | first | replace | blocking => rfl
  | excludeForHandover => exact finishHold_muxRunning .excludeForHandover
  | excludeForBlocking => exact finishHold_muxRunning .excludeForBlocking
  | excludeConverted => exact finishHold_muxRunning .excludeConverted

theorem accounted_opNotify (haccounted : Accounted s) {manager : Manager} (opens : Bool)
    (hstep : TunnelManager.step s.manager .opNotify = some manager) :
    Accounted (DnsSession.follow { s with manager, connected := false } s.manager opens
      .opNotify) := by
  cases step_move hstep with
  | @notified r tun k hop hhost =>
    have hplace := haccounted.place
    rw [hop] at hplace
    have hmux : muxRunning ((s.manager.onTunReplaced k tun).notified r tun) =
        muxRunning s.manager :=
      (notified_muxRunning r tun).trans (onTunReplaced_muxRunning k tun)
    have hrecords := haccounted.toRecords.follows (Or.inl hmux) false
    rcases notified_place (m := s.manager.onTunReplaced k tun) r tun with
      ⟨engine, rfl, hnext⟩ | ⟨engine, rfl, hnext⟩ | hnot
    · refine ⟨⟨hrecords.running, hrecords.created, hrecords.recorded, hrecords.started⟩, ?_⟩
      rfl
    · exact accounted_reconcile hrecords (hmux.trans hplace) hnext opens
    · unfold DnsSession.follow
      dsimp only
      split
      · rename_i engine hnext
        rw [hnext] at hnot
        cases hnot
      · rename_i engine _ hnext
        rw [hnext] at hnot
        cases hnot
      · exact ⟨hrecords, atPlace_of_not_connects hnot⟩

theorem accounted_opStart (haccounted : Accounted s) {manager : Manager} {started : Bool}
    (opens : Bool) (hstep : TunnelManager.step s.manager (.opStart started) = some manager) :
    Accounted (DnsSession.follow { s with manager, connected := false } s.manager opens
      (.opStart started)) := by
  cases step_move hstep with
  | @muxStarted r tun started hop =>
    have hplace := haccounted.place
    rw [hop] at hplace
    cases started with
    | false =>
      refine haccounted.follows ⟨Or.inl ?_, Or.inr rfl⟩ false
      exact congrArg (Option.map Mux.running) (closeTun_mux s.manager)
    | true =>
      unfold DnsSession.follow
      dsimp only
      split
      · rename_i engine tun' hfirst
        rw [hop] at hfirst
        cases hfirst
        obtain ⟨hrecords, hport⟩ := createMux_records (s := { s with
          manager := s.manager.muxStarted (.first engine) tun true, connected := false })
          tun rfl hplace opens
        exact ⟨hrecords, rfl, hport⟩
      · rename_i hother
        refine ⟨createBlockingMux_records tun rfl haccounted.created, ?_⟩
        cases r with
        | first engine => exact absurd hop (hother engine tun)
        | replace | blocking | excludeForHandover | excludeForBlocking | excludeConverted =>
          trivial

/-- The engine ends the `connect`. -/
theorem accounted_opEngine (haccounted : Accounted s) {manager : Manager} {outcome : EngineOutcome}
    (opens : Bool) (hstep : TunnelManager.step s.manager (.opEngine outcome) = some manager) :
    Accounted (DnsSession.follow { s with manager, connected := false } s.manager opens
        (.opEngine outcome)) ∧
      muxRunning manager = some true ∧ s.dnsStage.map Stage.port = s.dns.dnsStageKeyFor := by
  cases step_move hstep with
  | @attached engine outcome hop =>
    have hplace := haccounted.place
    rw [hop] at hplace
    have hframe : Undisturbed s.manager { s.manager with
        activeEngine := if outcome = .started then some engine else none, op := .idle } :=
      ⟨Or.inl rfl, Or.inr rfl⟩
    refine ⟨?_, hplace⟩
    cases outcome with
    | attachFailed | startFailed => exact haccounted.follows hframe false
    | started => exact haccounted.follows hframe true

/-- What a stage on the current port, started, comes to. -/
theorem installed_of_port (hmux : muxRunning s.manager = some true)
    (hport : s.dnsStage.map Stage.port = s.dns.dnsStageKeyFor)
    (hstarted : ∀ stage, s.dnsStage = some stage → stage.Started) : Installed s where
  live := hmux
  proxy hproxy := by
    rw [HostDns.dnsStageKeyFor, if_pos hproxy] at hport
    obtain ⟨stage, hstage, hsame⟩ := Option.map_eq_some_iff.mp hport
    exact ⟨stage, hstage, hsame, hstarted stage hstage⟩
  passing hother := by
    rw [HostDns.dnsStageKeyFor, if_neg hother] at hport
    exact Option.map_eq_none_iff.mp hport

/-- A record that is forgotten is not wrong. -/
theorem Accounted.forget (haccounted : Accounted s) :
    Accounted { s with dnsStageState := none } :=
  ⟨⟨haccounted.running, nofun, nofun, haccounted.started⟩, haccounted.place.congr rfl rfl⟩

theorem accounted_detachHost (haccounted : Accounted s) (h : HostId) (opens : Bool)
    {manager : Manager} (hstep : TunnelManager.step s.manager (.detachHost h) = some manager) :
    Accounted (DnsSession.follow { s with manager, connected := false } s.manager opens
      (.detachHost h)) := by
  have hfollows := haccounted.follows (undisturbed_step rfl hstep) false
  unfold DnsSession.follow
  dsimp only
  split_ifs
  · exact hfollows.forget
  · exact hfollows

theorem accounted_manager (haccounted : Accounted s) (a : TunnelManager.Action) (opens : Bool)
    {manager : Manager} (hstep : TunnelManager.step s.manager a = some manager) :
    Accounted (DnsSession.follow { s with manager, connected := false } s.manager opens a) := by
  cases a with
  | detachHost h => exact accounted_detachHost haccounted h opens hstep
  | connect engine covers =>
    cases step_move hstep with
    | connect hidle => exact accounted_connect haccounted engine covers opens hidle
  | opEstablish established => exact accounted_opEstablish haccounted hstep
  | opNotify => exact accounted_opNotify haccounted opens hstep
  | opStart started => exact accounted_opStart haccounted opens hstep
  | opEngine outcome => exact (accounted_opEngine haccounted opens hstep).1
  | attachHost | disconnect | onRevoked | releaseHeldTunnel | beginBlocking | holdForBlocking
  | requestTun | readListener | deliver | destroy | startTask | expire =>
    exact haccounted.follows (undisturbed_step rfl hstep) false

theorem accounted_step (a : Action) (haccounted : Accounted s) (hstep : step s a = some t) :
    Accounted t := by
  cases a with
  | manager a opens =>
    obtain ⟨manager, hmanager, rfl⟩ := Option.map_eq_some_iff.mp hstep
    exact accounted_manager haccounted a opens hmanager
  | decide dns =>
    simp only [step] at hstep
    split_ifs at hstep with hconnects
    obtain rfl := Option.some.inj hstep
    exact ⟨⟨haccounted.running, haccounted.created, haccounted.recorded, haccounted.started⟩,
      atPlace_of_not_connects (eq_false_of_ne_true hconnects)⟩
  | die =>
    obtain rfl := Option.some.inj hstep
    have hport : (s.dnsStage.map Stage.die).map Stage.port = s.dnsStage.map Stage.port := by
      rw [Option.map_map]
      exact congrArg (Option.map · s.dnsStage) (funext Stage.die_port)
    refine ⟨⟨haccounted.running, haccounted.created, ?_, ?_⟩, haccounted.place.congr rfl ?_⟩
    · exact fun hlive port hstate ↦ hport.trans (haccounted.recorded hlive port hstate)
    · intro stage hstage
      obtain ⟨alive, halive, rfl⟩ := Option.map_eq_some_iff.mp hstage
      exact Stage.die_started (haccounted.started alive halive)
    · exact congrArg (fun port ↦ (s.building, s.dns, port)) hport

/-- Only the engine of a `connect` that succeeds ends one. -/
theorem follow_connected (hnot : s.connected = false) (before : Manager) (opens : Bool)
    (a : TunnelManager.Action) (hconnected : (s.follow before opens a).connected = true) :
    a = .opEngine .started := by
  have hstill : s.connected ≠ true := ne_true_of_eq_false hnot
  have hreconciled : (s.reconcileDnsStage opens).connected ≠ true := by
    rw [(reconcileDnsStage_manager opens).2.2]
    exact hstill
  unfold DnsSession.follow at hconnected
  split at hconnected
  · split_ifs at hconnected <;> exact absurd hconnected hstill
  · split at hconnected
    · exact absurd hconnected hreconciled
    · exact absurd hconnected hstill
  · split at hconnected
    · exact absurd hconnected hreconciled
    · exact absurd hconnected hstill
    · exact absurd hconnected hstill
  · split at hconnected <;> exact absurd hconnected hstill
  · rfl
  · exact absurd hconnected hstill

/-- A step that ends a successful `connect` leaves the stage installed. -/
theorem installed_step (a : Action) (haccounted : Accounted s) (hstep : step s a = some t)
    (hconnected : t.connected = true) : Installed t := by
  cases a with
  | manager a opens =>
    obtain ⟨manager, hmanager, rfl⟩ := Option.map_eq_some_iff.mp hstep
    obtain rfl := follow_connected rfl s.manager opens a hconnected
    obtain ⟨hnext, hmux, hport⟩ := accounted_opEngine haccounted opens hmanager
    exact installed_of_port hmux hport hnext.started
  | decide dns =>
    simp only [step] at hstep
    split_ifs at hstep
    obtain rfl := Option.some.inj hstep
    cases hconnected
  | die =>
    obtain rfl := Option.some.inj hstep
    cases hconnected

/-! ### Runs -/

theorem accounted_initial (dns : HostDns) : Accounted (.initial dns) :=
  ⟨⟨nofun, nofun, nofun, nofun⟩, trivial⟩

/-- After every successful `connect` the stage is installed. -/
theorem installed_of_connected (dns : HostDns) (hreach : Reaches step Always (.initial dns) s)
    (hconnected : s.connected = true) : Installed s := by
  have hboth := hreach.invariant (fun s ↦ Accounted s ∧ (s.connected = true → Installed s))
    (fun a _ _ hsofar _ hstep ↦
      ⟨accounted_step a hsofar.1 hstep, installed_step a hsofar.1 hstep⟩)
    ⟨accounted_initial dns, nofun⟩
  exact hboth.2 hconnected

/-- The steps of a first `connect`, whose stage gets its socket or does not. -/
def firstConnect (opens : Bool) : List Action :=
  [.manager (.attachHost 0) true, .manager (.connect .wireGuard false) true,
    .manager (.opEstablish true) true, .manager .opNotify true, .manager (.opStart true) opens,
    .manager (.opEngine .started) true]

/-- The first connect of a session with a local resolver. -/
theorem installed_of_connected_first :
    ∃ s, Reaches step Always (.initial ⟨some .proxy, 5355⟩) s ∧ s.connected = true ∧
      Installed s := by
  obtain ⟨s, hreach, hcheck⟩ := exists_reaches_of_run step Always (.initial ⟨some .proxy, 5355⟩)
    (firstConnect true) DnsSession.connected (by decide)
  exact ⟨s, hreach, hcheck, installed_of_connected _ hreach hcheck⟩

/-- The first connect of a session succeeds though its stage could not open its socket: it stays
down, and DNS passes through. -/
theorem not_intercepting_unopened :
    ¬ ∀ dns s, Reaches step Always (.initial dns) s → s.connected = true → Intercepting s := by
  intro hclaim
  obtain ⟨s, hreach, hcheck⟩ := exists_reaches_of_run step Always (.initial ⟨some .proxy, 5355⟩)
    (firstConnect false)
    (fun s ↦ s.connected && decide (s.dns.dnsDetails = some .proxy) &&
      s.dnsStage.all fun stage ↦ !stage.running)
    (by decide)
  simp only [Bool.and_eq_true, decide_eq_true_eq] at hcheck
  obtain ⟨⟨hconnected, hproxy⟩, hdown⟩ := hcheck
  obtain ⟨stage, hstage, -, hrunning⟩ := (hclaim _ s hreach hconnected).proxy hproxy
  rw [hstage, Option.all_some, hrunning] at hdown
  cases hdown

end WindscribeVpn.Tunnel.DnsStageReconcile
