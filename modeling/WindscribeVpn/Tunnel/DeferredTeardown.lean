import WindscribeVpn.Tunnel.TunnelManager
import Mathlib.Data.List.Nodup
import Mathlib.Data.List.Perm.Basic
import Mathlib.Tactic.SplitIfs

/-!
# The deferred teardown

`detachHost` and `onRevoked` clear the session under the monitor and hand its engine object and its
mux to `teardownExecutor`, whose one thread stops them later. Each protocol has one engine object
for the whole process (`WireGuardEngine.java`, `WindscribeOpenVpnEngine.kt`, `IKev2Engine.kt`), and
a `connect` for the same protocol may have started that object again by then.

The functions of an engine object are lists of `Instr`, one for each access to a field of the object
or call into the native backend, and two threads execute them: the one in the monitor, inside
`connect` or `disconnect`, and the teardown thread. `step` interleaves their instructions. Every
`start` is a run with a number of its own; of the native backends it is assumed that stopping stops
the run that is current in them and that starting makes the new run current.

`Sound` is what a teardown promises, `not_sound_restarted` is a run in which it stops the run of the
next session, `Drained` is the condition that no engine is started while a task still holds it, and
`sound_of_drained` proves the promise for every run whose steps all meet it. `prepare` runs before
the monitor is taken and touches nothing of this, so it takes no step here.
-/

set_option autoImplicit false
set_option relaxedAutoImplicit false

namespace WindscribeVpn.Tunnel.DeferredTeardown

open Foundations.Runs
open TunnelManager (Engine)

/-! ### Engine objects -/

/-- An engine object and its native backend: the field `tunnel` of WireGuard or `core` of OpenVPN,
the field `engineFd` of OpenVPN and IKEv2, and the run that is current in the native backend. A
field holds the number of the run it was set for. -/
structure EngineObject where
  handle : Option ℕ
  engineFd : Option ℕ
  native : Option ℕ
  deriving DecidableEq, Repr

/-- One access to an engine object. -/
inductive Instr
  /-- `val instance = core`. -/
  | load
  /-- `if (t == null) return`. -/
  | returnIfNull
  /-- `tunnel = null`. -/
  | clearHandle
  /-- `if (tunnel != currentTunnel) return`. -/
  | returnUnlessCurrent
  /-- `wgTurnOff`, which closes the descriptor of the run it stops. -/
  | turnOff
  /-- `stopVPN`, `stopTunnel`. -/
  | stopNative
  /-- `instance?.revoked()`. -/
  | stopNativeIfLoaded
  /-- `engineFd?.close()`. -/
  | closeFd
  /-- `engineFd = null`. -/
  | clearFd
  /-- `tunnel = t`. -/
  | setHandle (run : ℕ)
  /-- `this.engineFd = engineFd`. -/
  | setFd (run : ℕ)
  /-- `wgTurnOn`, `startConnection`, `setNextProfile`. -/
  | turnOn (run : ℕ)
  /-- Closes the descriptor `start` was given. -/
  | closeOwn (run : ℕ)
  deriving DecidableEq, Repr

/-- What an instruction does: the object after it, the local variable, whether the function returns,
and the descriptors it closes. -/
structure Effect where
  object : EngineObject
  loaded : Option ℕ
  returns : Bool
  closes : List ℕ
  deriving DecidableEq, Repr

/-- Executes one instruction. -/
def Instr.exec (i : Instr) (e : EngineObject) (loaded : Option ℕ) : Effect :=
  match i with
  | .load => ⟨e, e.handle, false, []⟩
  | .returnIfNull => ⟨e, loaded, loaded.isNone, []⟩
  | .clearHandle => ⟨{ e with handle := none }, loaded, false, []⟩
  | .returnUnlessCurrent => ⟨e, loaded, e.native != loaded, []⟩
  | .turnOff => ⟨{ e with native := none }, loaded, false, e.native.toList⟩
  | .stopNative => ⟨{ e with native := none }, loaded, false, []⟩
  | .stopNativeIfLoaded =>
    ⟨if loaded.isSome then { e with native := none } else e, loaded, false, []⟩
  | .closeFd => ⟨e, loaded, false, e.engineFd.toList⟩
  | .clearFd => ⟨{ e with engineFd := none }, loaded, false, []⟩
  | .setHandle run => ⟨{ e with handle := some run }, loaded, false, []⟩
  | .setFd run => ⟨{ e with engineFd := some run }, loaded, false, []⟩
  | .turnOn run => ⟨{ e with native := some run }, loaded, false, []⟩
  | .closeOwn run => ⟨e, loaded, false, [run]⟩

/-- `stop`. -/
def stop : Engine → List Instr
  | .wireGuard => [.load, .clearHandle, .returnIfNull, .returnUnlessCurrent, .turnOff]
  | .openVpn => [.load, .returnIfNull, .clearHandle, .stopNative, .closeFd, .clearFd]
  | .ikev2 => [.stopNative, .closeFd, .clearFd]

/-- `onRevoked`. -/
def onRevoked : Engine → List Instr
  | .wireGuard => [.clearHandle, .turnOff]
  | .openVpn => [.load, .clearHandle, .stopNativeIfLoaded, .closeFd, .clearFd]
  | .ikev2 => [.stopNative, .closeFd, .clearFd]

/-- `start`, for a run. `setState(UP)` takes a tunnel that is current down first. -/
def start (run : ℕ) : Engine → List Instr
  | .wireGuard => [.setHandle run, .turnOff, .turnOn run]
  | .openVpn => [.setHandle run, .setFd run, .turnOn run]
  | .ikev2 => [.setFd run, .turnOn run]

/-- `start` after the native backend has thrown or refused. -/
def startFailed (run : ℕ) : Engine → List Instr
  | .wireGuard => [.closeOwn run, .clearHandle]
  | .openVpn => [.clearHandle, .clearFd, .closeOwn run]
  | .ikev2 => [.clearFd, .closeOwn run]

/-! ### The process -/

/-- A thread inside a function of an engine object, with the run it means. -/
structure Thread where
  engine : Engine
  run : ℕ
  code : List Instr
  loaded : Option ℕ
  deriving DecidableEq, Repr

/-- What the thread in the monitor does once `stopEngineQuietly` is through. -/
inductive Next
  | disconnect (hold : Bool)
  | connect (engine : Engine)
  deriving DecidableEq, Repr

/-- The thread in the monitor. -/
inductive Monitor
  | idle
  | stopping (thread : Thread) (next : Next)
  /-- In `connect`, with the mux, before the engine. -/
  | ready (engine : Engine)
  | starting (thread : Thread)
  /-- In the `catch` of `start`. -/
  | failing (thread : Thread)
  deriving DecidableEq, Repr

/-- A task of `teardownExecutor`, with the run of the session it was taken from. -/
structure Task where
  engine : Option (Engine × ℕ)
  mux : Option ℕ
  revoked : Bool
  deriving DecidableEq, Repr

/-- Where the teardown thread is in its task. -/
inductive Phase
  | revoking (thread : Thread)
  | stopping (thread : Thread)
  | mux
  deriving DecidableEq, Repr

/-- The teardown thread at a task. -/
structure Worker where
  task : Task
  phase : Phase
  deriving DecidableEq, Repr

/-- The manager, its engines and the two threads. `active` is `activeEngine` with the run it was
started for, `closed` the engine descriptors that are closed, `stopped` the muxes that are stopped,
and `taken` the runs that were handed to a task. -/
structure Process where
  engines : Engine → EngineObject
  closed : List ℕ
  nextRun : ℕ
  host : Option ℕ
  mux : Option ℕ
  nextMux : ℕ
  stopped : List ℕ
  active : Option (Engine × ℕ)
  monitor : Monitor
  queue : List Task
  worker : Option Worker
  taken : List ℕ

/-- An engine object with nothing in it. -/
def EngineObject.clean : EngineObject := ⟨none, none, none⟩

/-- The start of the process. -/
def Process.initial : Process where
  engines := fun _ ↦ EngineObject.clean
  closed := []
  nextRun := 0
  host := none
  mux := none
  nextMux := 0
  stopped := []
  active := none
  monitor := .idle
  queue := []
  worker := none
  taken := []

/-- A thread executes its next instruction. -/
def Process.exec (s : Process) (t : Thread) (i : Instr) (rest : List Instr) : Process × Thread :=
  let effect := i.exec (s.engines t.engine) t.loaded
  ({ s with
      engines := Function.update s.engines t.engine effect.object
      closed := effect.closes ++ s.closed },
    { t with code := if effect.returns then [] else rest, loaded := effect.loaded })

/-- The session is cleared and handed to the teardown thread. -/
def Process.take (s : Process) (revoked : Bool) : Process :=
  { s with
    queue := s.queue ++ [⟨s.active, s.mux, revoked⟩]
    taken := (s.active.map Prod.snd).toList ++ s.taken
    active := none
    mux := none }

/-- The rest of `disconnect`, after the engine. -/
def Process.finishDisconnect (s : Process) (hold : Bool) : Process :=
  if hold then { s with monitor := .idle }
  else { s with stopped := s.mux.toList ++ s.stopped, mux := none, monitor := .idle }

/-- `ensureTunnel`, as far as the mux is concerned. -/
def Process.ensureTunnel (s : Process) : Process :=
  match s.mux with
  | some _ => s
  | none => { s with mux := some s.nextMux, nextMux := s.nextMux + 1 }

/-- `stopEngineQuietly`, and what comes after it. -/
def Process.stopEngineQuietly (s : Process) (next : Next) : Process :=
  match s.active, next with
  | some (e, run), _ => { s with active := none, monitor := .stopping ⟨e, run, stop e, none⟩ next }
  | none, .disconnect hold => s.finishDisconnect hold
  | none, .connect e => { s with monitor := .ready e }

/-- The teardown thread takes up a task. -/
def Task.begin (task : Task) : Worker :=
  match task.engine with
  | none => ⟨task, .mux⟩
  | some (e, run) =>
    if task.revoked then ⟨task, .revoking ⟨e, run, onRevoked e, none⟩⟩
    else ⟨task, .stopping ⟨e, run, stop e, none⟩⟩

/-- An action of one of the threads. -/
inductive Action
  | attachHost (host : ℕ)
  | detachHost (host : ℕ)
  | onRevoked
  | connect (engine : Engine)
  | disconnect (hold : Bool)
  /-- In `connect`: `attachEngine` throws. -/
  | attachFails
  /-- In `connect`: `engine.start` begins. -/
  | start
  /-- In `engine.start`: the native backend throws or refuses. -/
  | startFails
  /-- The thread in the monitor executes an instruction or leaves a function. -/
  | advance
  /-- The teardown thread takes up the next task. -/
  | dequeue
  /-- The teardown thread executes an instruction, leaves a function or stops the mux. -/
  | work
  deriving DecidableEq, Repr

/-- The thread in the monitor. -/
def Process.advance (s : Process) : Option Process :=
  match s.monitor with
  | .idle | .ready _ => none
  | .stopping t next =>
    match t.code with
    | i :: rest => some { (s.exec t i rest).1 with monitor := .stopping (s.exec t i rest).2 next }
    | [] =>
      match next with
      | .connect e => some { s with monitor := .ready e }
      | .disconnect hold => some (s.finishDisconnect hold)
  | .starting t =>
    match t.code with
    | i :: rest => some { (s.exec t i rest).1 with monitor := .starting (s.exec t i rest).2 }
    | [] => some { s with monitor := .idle }
  | .failing t =>
    match t.code with
    | i :: rest => some { (s.exec t i rest).1 with monitor := .failing (s.exec t i rest).2 }
    | [] => some { s with active := none, monitor := .idle }

/-- The teardown thread. -/
def Process.work (s : Process) : Option Process :=
  match s.worker with
  | none => none
  | some ⟨task, .revoking t⟩ =>
    match t.code with
    | i :: rest =>
      some { (s.exec t i rest).1 with worker := some ⟨task, .revoking (s.exec t i rest).2⟩ }
    | [] => some { s with worker := some ⟨task, .stopping ⟨t.engine, t.run, stop t.engine, none⟩⟩ }
  | some ⟨task, .stopping t⟩ =>
    match t.code with
    | i :: rest =>
      some { (s.exec t i rest).1 with worker := some ⟨task, .stopping (s.exec t i rest).2⟩ }
    | [] => some { s with worker := some ⟨task, .mux⟩ }
  | some ⟨task, .mux⟩ => some { s with stopped := task.mux.toList ++ s.stopped, worker := none }

/-- One step of the process. -/
def step (s : Process) : Action → Option Process
  | .attachHost host => if s.monitor = .idle then some { s with host := some host } else none
  | .detachHost host =>
    if s.monitor = .idle then
      if s.host = some host then some { s.take false with host := none } else some s
    else none
  | .onRevoked => if s.monitor = .idle then some (s.take true) else none
  | .connect e =>
    if s.monitor = .idle ∧ s.host.isSome = true then
      some (s.ensureTunnel.stopEngineQuietly (.connect e))
    else none
  | .disconnect hold =>
    if s.monitor = .idle then some (s.stopEngineQuietly (.disconnect hold)) else none
  | .attachFails =>
    match s.monitor with
    | .ready _ => some { s with monitor := .idle }
    | _ => none
  | .start =>
    match s.monitor with
    | .ready e =>
      some { s with
        active := some (e, s.nextRun)
        nextRun := s.nextRun + 1
        monitor := .starting ⟨e, s.nextRun, DeferredTeardown.start s.nextRun e, none⟩ }
    | _ => none
  | .startFails =>
    match s.monitor with
    | .starting t =>
      match t.code with
      | .turnOn run :: _ =>
        some { s with monitor := .failing { t with code := startFailed run t.engine } }
      | _ => none
    | _ => none
  | .advance => s.advance
  | .dequeue =>
    match s.worker, s.queue with
    | none, task :: rest => some { s with worker := some task.begin, queue := rest }
    | _, _ => none
  | .work => s.work

end WindscribeVpn.Tunnel.DeferredTeardown
