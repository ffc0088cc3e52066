import WindscribeVpn.Foundations.Runs
import Mathlib.Data.Nat.Notation
import Mathlib.Logic.Function.Basic

/-!
# The session: `TunnelManager` and its host

`TunnelManager.kt` owns the tunnel for a session, and the attached `VpnHost`
(`WindscribeVpnService.kt`) owns every TUN descriptor. Three kinds of threads meet here. Callers
enter the manager's monitor one at a time. An engine's own thread may call the host's `requestTun`
at any moment: under the host's `tunLock` it establishes a TUN, and afterwards, outside that lock,
it notifies the manager through `onTunReplaced`, which waits for the monitor. The watchdog's thread
starts an expiry task when its time has come, and the task waits for the monitor too.

`step` is the partial step function of this system. An operation that requests a TUN takes several
steps, because an engine's thread may replace the TUN between the manager's own establishing and its
own notification: `op` is the place the thread in the monitor has reached. Everything between two
such places is one step, since no other thread can look at it. What `establish()`, the mux's
`start`, `attachEngine` and an engine's `start` do is the environment's choice, and so is what the
host answers about configs (`tunCovers`, `withSelfExcluded`) and about blocking.

A TUN descriptor is named by the generation `requestTun` gives it, since the two are made together
under `tunLock`. Tunnel configurations beyond those answers, DNS stages, the packet path itself and
the deferred stop of engine and mux are not part of this model. `owner` and `hold` are history: no
step reads them.
-/

set_option autoImplicit false
set_option relaxedAutoImplicit false

namespace WindscribeVpn.Tunnel.TunnelManager

/-- A `VpnHost` object. -/
abbrev HostId := ℕ

/-- A task of the hold watchdog. -/
abbrev TaskId := ℕ

/-- The engines of the process, one object for each. -/
inductive Engine
  | wireGuard
  | openVpn
  | ikev2
  deriving DecidableEq, Repr

/-- `TunHold`. -/
inductive TunHold
  | none
  | forHandover
  | forBlocking
  deriving DecidableEq, Repr

/-- The host's side: the live TUN, the descriptors it superseded, each under the generation that
superseded it, and whether a replacement listener is set. -/
structure Host where
  liveTun : Option ℕ
  superseded : List (ℕ × ℕ)
  listening : Bool
  deriving DecidableEq, Repr

/-- The `PacketMux` of the session, as far as the manager knows it. -/
structure Mux where
  tun : ℕ
  running : Bool
  deriving DecidableEq, Repr

/-- A `requestTun` of an engine's thread that has established and not yet returned; `read` says that
it has read the listener. -/
structure Notification where
  host : HostId
  tun : ℕ
  read : Bool
  deriving DecidableEq, Repr

/-- Why the thread in the monitor requests a TUN. -/
inductive Request
  /-- `connect`, with no TUN yet. -/
  | first (engine : Engine)
  /-- `connect`, replacing a TUN that does not cover the config. -/
  | replace (engine : Engine)
  /-- `beginBlocking`. -/
  | blocking
  /-- `excludeSelfWhileHolding` in `disconnect(ForHandover)`. -/
  | excludeForHandover
  /-- `excludeSelfWhileHolding` in `disconnect(ForBlocking)`. -/
  | excludeForBlocking
  /-- `excludeSelfWhileHolding` in `holdForBlocking`. -/
  | excludeConverted
  deriving DecidableEq, Repr

/-- Where the thread in the monitor is. -/
inductive Op
  | idle
  /-- About to enter `requestTun`. -/
  | requesting (request : Request)
  /-- Established; the notification is next. -/
  | notifying (request : Request) (tun : ℕ)
  /-- Notified; the new mux is started next. -/
  | starting (request : Request) (tun : ℕ)
  /-- In `connect`, with a mux on a TUN; the engine is next. -/
  | attaching (engine : Engine)
  deriving DecidableEq, Repr

/-- The state of a watchdog task. -/
inductive TaskState
  | unused
  | scheduled
  /-- Running, and waiting for the monitor. -/
  | started
  | cancelled
  | done
  deriving DecidableEq, Repr

/-- The manager, its hosts and the threads around it. -/
structure Manager where
  hosts : HostId → Host
  generations : ℕ
  closed : List ℕ
  inFlight : List Notification
  host : Option HostId
  mux : Option Mux
  activeEngine : Option Engine
  tunnelUp : Bool
  appliedGeneration : ℕ
  op : Op
  tasks : TaskId → TaskState
  nextTask : TaskId
  holdExpiry : Option TaskId
  executing : Option TaskId
  reports : ℕ
  owner : ℕ → Option HostId
  hold : Option TaskId

/-- A host before its service is created. -/
def Host.fresh : Host := ⟨none, [], false⟩

/-- The manager at the start of the process. -/
def Manager.initial : Manager where
  hosts := fun _ ↦ Host.fresh
  generations := 0
  closed := []
  inFlight := []
  host := none
  mux := none
  activeEngine := none
  tunnelUp := false
  appliedGeneration := 0
  op := .idle
  tasks := fun _ ↦ .unused
  nextTask := 0
  holdExpiry := none
  executing := none
  reports := 0
  owner := fun _ ↦ none
  hold := none

/-! ### The host -/

/-- Replaces one host. -/
def Manager.setHost (s : Manager) (h : HostId) (host : Host) : Manager :=
  { s with hosts := Function.update s.hosts h host }

/-- The part of `requestTun` under `tunLock`: the TUN is established under the next generation, and
the one it supersedes is kept. -/
def Manager.establish (s : Manager) (h : HostId) : Manager :=
  let host := s.hosts h
  let tun := s.generations + 1
  { s with
    generations := tun
    owner := Function.update s.owner tun (some h)
    hosts := Function.update s.hosts h
      { host with
        liveTun := some tun
        superseded := (host.liveTun.map fun previous ↦ (tun, previous)).toList ++
          host.superseded } }

/-- `releasePreviousTun`. -/
def Manager.releasePreviousTun (s : Manager) (h : HostId) (generation : ℕ) : Manager :=
  let host := s.hosts h
  { s with
    closed := (host.superseded.filter fun entry ↦ entry.1 = generation).map Prod.snd ++ s.closed
    hosts := Function.update s.hosts h
      { host with superseded := host.superseded.filter fun entry ↦ entry.1 ≠ generation } }

/-- `releaseTun`. -/
def Manager.releaseTun (s : Manager) (h : HostId) : Manager :=
  let host := s.hosts h
  { s with
    closed := host.superseded.map Prod.snd ++ host.liveTun.toList ++ s.closed
    hosts := Function.update s.hosts h { host with liveTun := none, superseded := [] } }

/-! ### The manager -/

/-- `cancelHoldWatchdog`: `cancel(false)` does not stop a task that has started. -/
def Manager.cancelHoldWatchdog (s : Manager) : Manager :=
  match s.holdExpiry with
  | none => s
  | some t =>
    { s with
      holdExpiry := none
      tasks := if s.tasks t = .scheduled then Function.update s.tasks t .cancelled else s.tasks }

/-- `armHoldWatchdog`. The hold that is created is a hold of a TUN that is up. -/
def Manager.armHoldWatchdog (s : Manager) : Manager :=
  let cancelled := s.cancelHoldWatchdog
  { cancelled with
    tasks := Function.update cancelled.tasks s.nextTask .scheduled
    nextTask := s.nextTask + 1
    holdExpiry := some s.nextTask
    hold := if s.tunnelUp then some s.nextTask else none }

/-- `closeTun`. -/
def Manager.closeTun (s : Manager) : Manager :=
  if s.tunnelUp then
    match s.host with
    | none => { s with tunnelUp := false, hold := none }
    | some h => { s.releaseTun h with tunnelUp := false, hold := none }
  else s

/-- `onTunReplaced`. -/
def Manager.onTunReplaced (s : Manager) (source : HostId) (tun : ℕ) : Manager :=
  if s.host ≠ some source then s.releasePreviousTun source tun
  else if tun ≤ s.appliedGeneration then s.releasePreviousTun source tun
  else
    let moved : Manager := { s with
      appliedGeneration := tun
      mux := s.mux.map fun mux ↦ { mux with tun := tun }
      tunnelUp := true }
    moved.releasePreviousTun source tun

/-- The end of a hold once our own package is excluded, or could not be. -/
def Manager.finishHold (s : Manager) : Request → Manager
  | .excludeForHandover => { s.armHoldWatchdog with op := .idle }
  | .excludeForBlocking => { s.cancelHoldWatchdog with hold := none, op := .idle }
  | .excludeConverted => { s with op := .idle }
  | .first _ | .replace _ | .blocking => { s with op := .idle }

/-- `excludeSelfWhileHolding` up to its `requestTun`, if it gets there; `excludes` says that leaving
our own package out changes the live config. -/
def Manager.excludeSelfWhileHolding (s : Manager) (request : Request) (excludes : Bool) : Manager :=
  match s.host with
  | none => s.finishHold request
  | some h =>
    if excludes && (s.hosts h).liveTun.isSome then { s with op := .requesting request }
    else s.finishHold request

/-- `attachHost`. -/
def Manager.attachHost (s : Manager) (h : HostId) : Manager :=
  { s.setHost h { s.hosts h with listening := true } with host := some h }

/-- `detachHost`, up to the deferred stop of the engine and the mux. -/
def Manager.detachHost (s : Manager) (h : HostId) : Manager :=
  if s.host ≠ some h then s
  else
    let ended := Manager.closeTun { s.cancelHoldWatchdog with activeEngine := none, mux := none }
    { ended.setHost h { ended.hosts h with listening := false } with host := none, hold := none }

/-- `connect` from the monitor on, up to the TUN. -/
def Manager.connect (s : Manager) (engine : Engine) (covers : Bool) : Manager :=
  let entered : Manager := { s.cancelHoldWatchdog with hold := none }
  match s.host with
  | none => entered
  | some h =>
    if s.mux.isSome && s.tunnelUp then
      if covers && (s.hosts h).liveTun.isSome then { entered with op := .attaching engine }
      else { entered with op := .requesting (.replace engine) }
    else { entered with op := .requesting (.first engine) }

/-- `disconnect`, up to the exclusion of our own package. -/
def Manager.disconnect (s : Manager) (hold : TunHold) (excludes : Bool) : Manager :=
  let stopped : Manager := { s with activeEngine := none }
  match hold with
  | .none => { Manager.closeTun { stopped with mux := none } with hold := none }
  | .forHandover => stopped.excludeSelfWhileHolding .excludeForHandover excludes
  | .forBlocking => stopped.excludeSelfWhileHolding .excludeForBlocking excludes

/-- `onRevoked`, up to the deferred stop of the engine and the mux. -/
def Manager.onRevoked (s : Manager) : Manager :=
  { Manager.closeTun { s.cancelHoldWatchdog with activeEngine := none, mux := none } with
    hold := none }

/-- `releaseHeldTunnel`. -/
def Manager.releaseHeldTunnel (s : Manager) : Manager :=
  if !s.tunnelUp || s.activeEngine.isSome then s
  else Manager.closeTun { s.cancelHoldWatchdog with mux := none }

/-- `beginBlocking`, up to its `requestTun`. -/
def Manager.beginBlocking (s : Manager) : Manager :=
  if s.tunnelUp || s.mux.isSome then s
  else
    match s.host with
    | none => s
    | some _ => { s with op := .requesting .blocking, hold := none }

/-- `holdForBlocking`, up to the exclusion of our own package. -/
def Manager.holdForBlocking (s : Manager) (excludes : Bool) : Manager :=
  if !s.tunnelUp || s.activeEngine.isSome then s
  else
    Manager.excludeSelfWhileHolding { s.cancelHoldWatchdog with hold := none } .excludeConverted
      excludes

/-- `onHoldExpired`; `blocking` is what the host answers to `blockingApplies`. -/
def Manager.onHoldExpired (s : Manager) (blocking : Bool) : Manager :=
  if s.activeEngine.isSome || !s.tunnelUp then s
  else if s.host.isSome && blocking then
    { s.cancelHoldWatchdog with hold := none, reports := s.reports + 1 }
  else
    { Manager.closeTun { s with mux := none } with
      reports := s.reports + s.host.toList.length }

/-! ### Steps -/

/-- How `connect` gets on with the engine. -/
inductive EngineOutcome
  /-- `attachEngine` throws. -/
  | attachFailed
  /-- The engine's `start` throws, and the mux side is released. -/
  | startFailed
  | started
  deriving DecidableEq, Repr

/-- An action of one of the threads. -/
inductive Action
  | attachHost (h : HostId)
  | detachHost (h : HostId)
  | connect (engine : Engine) (covers : Bool)
  | disconnect (hold : TunHold) (excludes : Bool)
  | onRevoked
  | releaseHeldTunnel
  | beginBlocking
  | holdForBlocking (excludes : Bool)
  /-- The thread in the monitor: `establish()` succeeds or throws. -/
  | opEstablish (established : Bool)
  /-- The thread in the monitor: its own notification. -/
  | opNotify
  /-- The thread in the monitor: the new mux starts or throws. -/
  | opStart (started : Bool)
  /-- The thread in the monitor: the engine. -/
  | opEngine (outcome : EngineOutcome)
  /-- An engine's thread establishes a TUN. -/
  | requestTun (h : HostId)
  /-- An engine's thread reads the listener. -/
  | readListener (n : Notification)
  /-- An engine's thread enters the monitor with its notification. -/
  | deliver (n : Notification)
  /-- The end of the service's `onDestroy`. -/
  | destroy (h : HostId)
  /-- The watchdog's thread starts a task. -/
  | startTask (t : TaskId)
  /-- The started task enters the monitor. -/
  | expire (blocking : Bool)
  deriving DecidableEq, Repr

/-- The thread in the monitor after `requestTun` has thrown. -/
def Manager.establishFailed (s : Manager) (request : Request) : Manager :=
  match request with
  | .first _ | .replace _ => { s with op := .idle }
  | .blocking => { s.closeTun with op := .idle }
  | .excludeForHandover | .excludeForBlocking | .excludeConverted => s.finishHold request

/-- The thread in the monitor after its own notification. -/
def Manager.notified (s : Manager) (request : Request) (tun : ℕ) : Manager :=
  match request with
  | .first _ | .blocking => { s with tunnelUp := true, op := .starting request tun }
  | .replace engine => { s with op := .attaching engine }
  | .excludeForHandover | .excludeForBlocking | .excludeConverted => s.finishHold request

/-- The thread in the monitor after the mux has started or thrown. -/
def Manager.muxStarted (s : Manager) (request : Request) (tun : ℕ) (started : Bool) : Manager :=
  if started then
    { s with
      mux := some ⟨tun, true⟩
      op := match request with
        | .first engine => .attaching engine
        | _ => .idle }
  else { s.closeTun with op := .idle }

/-- One step of the system. -/
def step (s : Manager) : Action → Option Manager
  | .attachHost h => if s.op = .idle then some (s.attachHost h) else none
  | .detachHost h => if s.op = .idle then some (s.detachHost h) else none
  | .connect engine covers => if s.op = .idle then some (s.connect engine covers) else none
  | .disconnect hold excludes => if s.op = .idle then some (s.disconnect hold excludes) else none
  | .onRevoked => if s.op = .idle then some s.onRevoked else none
  | .releaseHeldTunnel => if s.op = .idle then some s.releaseHeldTunnel else none
  | .beginBlocking => if s.op = .idle then some s.beginBlocking else none
  | .holdForBlocking excludes => if s.op = .idle then some (s.holdForBlocking excludes) else none
  | .opEstablish established =>
    match s.op, s.host with
    | .requesting request, some h =>
      if established then
        some { s.establish h with op := .notifying request (s.generations + 1) }
      else some (s.establishFailed request)
    | _, _ => none
  | .opNotify =>
    match s.op, s.host with
    | .notifying request tun, some h => some ((s.onTunReplaced h tun).notified request tun)
    | _, _ => none
  | .opStart started =>
    match s.op with
    | .starting request tun => some (s.muxStarted request tun started)
    | _ => none
  | .opEngine outcome =>
    match s.op with
    | .attaching engine =>
      some { s with
        activeEngine := if outcome = .started then some engine else none
        op := .idle }
    | _ => none
  | .requestTun h =>
    some { s.establish h with inFlight := ⟨h, s.generations + 1, false⟩ :: s.inFlight }
  | .readListener n =>
    if n ∈ s.inFlight ∧ n.read = false then
      if (s.hosts n.host).listening then
        some { s with inFlight := { n with read := true } :: s.inFlight.erase n }
      else some { s.releasePreviousTun n.host n.tun with inFlight := s.inFlight.erase n }
    else none
  | .deliver n =>
    if n ∈ s.inFlight ∧ n.read = true ∧ s.op = .idle then
      some { s.onTunReplaced n.host n.tun with inFlight := s.inFlight.erase n }
    else none
  | .destroy h => if s.host ≠ some h then some (s.releaseTun h) else none
  | .startTask t =>
    if s.tasks t = .scheduled ∧ s.executing = none then
      some { s with executing := some t, tasks := Function.update s.tasks t .started }
    else none
  | .expire blocking =>
    match s.executing with
    | some t =>
      if s.op = .idle then
        let expired := s.onHoldExpired blocking
        some { expired with
          executing := none
          tasks := Function.update expired.tasks t .done }
      else none
    | none => none

end WindscribeVpn.Tunnel.TunnelManager
