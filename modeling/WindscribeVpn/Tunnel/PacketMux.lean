import WindscribeVpn.Foundations.Runs
import Mathlib.Data.Int.Order.Basic
import Mathlib.Logic.Function.Basic
import Mathlib.Tactic.SplitIfs

/-!
# The packet path: `PacketMux`

`PacketMux.java` moves packets between the TUN and whichever engine is attached. Two pump threads,
one for each `Direction`, run the same loop: load the published `Snapshot`, compare its epoch with
the epoch the pump last saw, acknowledge a pending quiesce when it is new, then poll, read and write
with the descriptors of that snapshot. The methods that change the wiring (`setTun`, `attachEngine`,
`detachEngine`, `stop`) are `synchronized`, so one of them runs at a time: the controller.

Every access to shared memory is a step of its own. The fields `snapshot`, `quiesceLatch` and
`running` are each read or written by one step; in `quiesce` the latch assignment, the publication,
the return of `await` and the `finally` are four steps, and in a pump the load, the comparison, the
read of the latch, `countDown` and the work with the descriptors are five. `step` is the partial
step function of the whole mux and its action says which party moves: a pump, or the controller.

A `CountDownLatch` is an object that a pump may still hold after the field is cleared, so latches
are numbered and `latches` gives the count of each. A descriptor is a number, and `closed` lists the
mux sides of engine socket pairs already closed. Not modelled: the wakeup pipes and the time limits,
which only decide when a step happens, and the bytes written, which no other party of the model
reads.
-/

set_option autoImplicit false
set_option relaxedAutoImplicit false

namespace WindscribeVpn.Tunnel.PacketMux

/-- A `FileDescriptor`, by identity. -/
abbrev Fd := ℕ

/-- A `CountDownLatch`, by identity. -/
abbrev LatchId := ℕ

/-- `MAX_PUMP_RESTARTS`. -/
def maxPumpRestarts : ℕ := 5

/-- `BUFFER_HEADROOM`. -/
def bufferHeadroom : ℕ := 512

/-- `PacketMux.State`. -/
inductive State
  | forward
  | drop
  deriving DecidableEq, Repr

/-- `PacketMux.Direction`: `egress` is TUN to engine, `ingress` engine to TUN. -/
inductive Direction
  | egress
  | ingress
  deriving DecidableEq, Repr

/-- `PacketMux.Snapshot`: state and descriptors in one object. -/
structure Snapshot where
  state : State
  tun : Option Fd
  engine : Option Fd
  epoch : ℤ
  mtu : ℕ
  deriving DecidableEq, Repr

/-- The descriptor a pump reads in one iteration. -/
def Snapshot.source (s : Snapshot) : Direction → Option Fd
  | .egress => s.tun
  | .ingress => s.engine

/-- The descriptor a pump writes in one iteration. -/
def Snapshot.destination (s : Snapshot) : Direction → Option Fd
  | .egress => s.engine
  | .ingress => s.tun

/-- The largest Java `int`. -/
def intMax : ℤ := 2147483647

/-- `epoch + 1` on a Java `int`. -/
def nextEpoch (epoch : ℤ) : ℤ := if epoch = intMax then -intMax - 1 else epoch + 1

theorem nextEpoch_of_lt {epoch : ℤ} (hepoch : epoch < intMax) : nextEpoch epoch = epoch + 1 := by
  unfold nextEpoch
  rw [if_neg (ne_of_lt hepoch)]

/-! ### The classifier and the fate of an egress packet -/

/-- A bounds-checked read of one byte; `none` is `ArrayIndexOutOfBoundsException`. -/
def byteAt (p : List UInt8) (i : ℕ) : Option ℕ := p[i]?.map UInt8.toNat

/-- `isUdpPort53`: the inline prefilter for "is this UDP to port 53". -/
def isUdpPort53 (p : List UInt8) (len : ℕ) : Option Bool :=
  if len < 8 then some false
  else do
    let version := ((← byteAt p 0) &&& 0xF0) >>> 4
    if version = 4 then
      let ihl := ((← byteAt p 0) &&& 0x0F) * 4
      if ihl < 20 ∨ len < ihl + 4 then some false
      else if (← byteAt p 9) ≠ 17 then some false
      else
        let dstPort := ((← byteAt p (ihl + 2)) <<< 8) ||| (← byteAt p (ihl + 3))
        some (dstPort = 53)
    else if version = 6 then
      if len < 48 then some false
      else if (← byteAt p 6) ≠ 17 then some false
      else
        let dstPort := ((← byteAt p 42) <<< 8) ||| (← byteAt p 43)
        some (dstPort = 53)
    else some false

/-- How the DNS stage answered `offer`. -/
inductive OfferResult
  | taken
  | declined
  | threw
  deriving DecidableEq, Repr

/-- What became of a packet the egress pump read. -/
inductive EgressFate
  | dropped
  | intercepted
  | queueFullPassThrough
  | forwarded
  deriving DecidableEq, Repr

/-- `handleEgress`. The DNS stage is absent or answers `offer` with a result, and `none` is the
exception an out-of-bounds read of the classifier raises. -/
def handleEgress (s : Snapshot) (stage : Option OfferResult) (packet : List UInt8) :
    Option EgressFate :=
  if s.state = .drop ∨ s.engine = none then some .dropped
  else
    match stage with
    | none => some .forwarded
    | some result => do
      if ← isUdpPort53 packet packet.length then
        match result with
        | .taken => some .intercepted
        | .declined => some .queueFullPassThrough
        | .threw => some .forwarded
      else some .forwarded

/-! ### The state of the mux -/

/-- Where a pump thread is. From `loaded` to `working` it holds the snapshot of this iteration. -/
inductive PumpPc
  /-- At the head of the supervisor's loop. -/
  | supervise
  /-- At the head of the pump's loop. -/
  | head
  /-- `running` was read as true; `snapshot.get()` is next. -/
  | entered
  /-- The snapshot is loaded; the comparison of epochs is next. -/
  | loaded (s : Snapshot)
  /-- The new epoch and buffer are adopted; the read of `quiesceLatch` is next. -/
  | adopted (s : Snapshot)
  /-- `quiesceLatch` was read; `countDown` is next. -/
  | acking (s : Snapshot) (ack : Option LatchId)
  /-- Polling, reading and writing with the snapshot's descriptors. -/
  | working (s : Snapshot)
  /-- The pump failed and the supervisor sleeps before restarting it. -/
  | backoff
  /-- The thread has ended. -/
  | exited
  deriving DecidableEq, Repr

/-- The snapshot a pump holds in the current iteration of its loop. -/
def PumpPc.held : PumpPc → Option Snapshot
  | .loaded s | .adopted s | .acking s _ | .working s => some s
  | .supervise | .head | .entered | .backoff | .exited => none

/-- One pump thread: its locals and the supervisor's restart count. -/
structure Pump where
  pc : PumpPc
  localEpoch : ℤ
  buf : Option ℕ
  restarts : ℕ
  deriving DecidableEq, Repr

/-- The method whose `quiesce` is in progress. `attachEngine` quiesces through `detachEngine`. -/
inductive Call
  | setTun (tun : Fd) (mtu : ℕ) (cur : Snapshot)
  | detachEngine
  | attachEngine
  deriving DecidableEq, Repr

/-- Where the thread inside the mux's monitor is. -/
inductive Control
  | idle
  /-- `quiesceLatch` is assigned; the publication is next. -/
  | latched (call : Call) (target : Snapshot) (ack : LatchId)
  /-- Published and poked; inside `ack.await`. -/
  | awaiting (call : Call) (target : Snapshot) (ack : LatchId)
  /-- `await` returned; the `finally` is next. -/
  | awaited (call : Call) (target : Snapshot) (settled : Bool)
  /-- `quiesce` returned; the rest of the method is next. -/
  | quiesced (call : Call) (target : Snapshot) (settled : Bool)
  /-- In `attachEngine`, past its `detachEngine()`. -/
  | attaching
  /-- In `stop`, past the publication. -/
  | stopping
  deriving DecidableEq, Repr

/-- The shared fields of the mux, the thread in its monitor and the two pumps. -/
structure Mux where
  snapshot : Snapshot
  quiesceLatch : Option LatchId
  latches : LatchId → ℕ
  nextLatch : LatchId
  running : Bool
  engineMuxSide : Option Fd
  nextFd : Fd
  closed : List Fd
  control : Control
  pump : Direction → Pump
  droppedInDropState : ℕ
  dnsQueueFullPassThrough : ℕ
  forwardedEgress : ℕ
  forwardedIngress : ℕ

/-- A pump thread before its first iteration. -/
def Pump.fresh : Pump := ⟨.supervise, -1, none, 0⟩

/-- The mux right after `start(tun, mtu)`. Descriptors from `nextFd` on are unused. -/
def Mux.started (tun : Fd) (mtu : ℕ) (nextFd : Fd) : Mux where
  snapshot := ⟨.drop, some tun, none, 1, mtu⟩
  quiesceLatch := none
  latches := fun _ ↦ 0
  nextLatch := 0
  running := true
  engineMuxSide := none
  nextFd := nextFd
  closed := []
  control := .idle
  pump := fun _ ↦ Pump.fresh
  droppedInDropState := 0
  dnsQueueFullPassThrough := 0
  forwardedEgress := 0
  forwardedIngress := 0

/-! ### Pump steps -/

/-- What a pump thread does next, with the outcome of its system calls. -/
inductive PumpEvent
  /-- The next step up to the work with the descriptors. -/
  | advance
  /-- The iteration ends without a packet: parked, nothing ready, woken, `EAGAIN`, `EBADF`,
  `ECONNRESET`, `EPIPE` or end of file. -/
  | idle
  /-- A packet was read, with the DNS stage's answer to `offer` if there is a stage. -/
  | packet (bytes : List UInt8) (stage : Option OfferResult)
  /-- The pump throws; `healthy` says whether it had run longer than `HEALTHY_RUN_NANOS`. -/
  | fail (healthy : Bool)
  deriving DecidableEq, Repr

/-- Replaces one pump. -/
def Mux.setPump (m : Mux) (d : Direction) (p : Pump) : Mux :=
  { m with pump := Function.update m.pump d p }

/-- The pump adopts a new epoch, and a larger buffer when the MTU asks for one. -/
def Pump.adopt (p : Pump) (s : Snapshot) : Pump :=
  { p with
    pc := .adopted s
    localEpoch := s.epoch
    buf := match p.buf with
      | some n => if n < s.mtu + bufferHeadroom then some (s.mtu + bufferHeadroom) else some n
      | none => some (s.mtu + bufferHeadroom) }

/-- `ack.countDown()`, or nothing when no latch was pending. -/
def Mux.countDown (m : Mux) : Option LatchId → Mux
  | none => m
  | some l => { m with latches := Function.update m.latches l (m.latches l - 1) }

/-- The step of a pump up to the work with the descriptors. -/
def advancePump (m : Mux) (d : Direction) : Option Mux :=
  let p := m.pump d
  match p.pc with
  | .supervise =>
    if m.running then some (m.setPump d { p with pc := .head, localEpoch := -1, buf := none })
    else some (m.setPump d { p with pc := .exited })
  | .head =>
    if m.running then some (m.setPump d { p with pc := .entered })
    else some (m.setPump d { p with pc := .exited })
  | .entered => some (m.setPump d { p with pc := .loaded m.snapshot })
  | .loaded s =>
    if s.epoch ≠ p.localEpoch then some (m.setPump d (p.adopt s))
    else some (m.setPump d { p with pc := .working s })
  | .adopted s => some (m.setPump d { p with pc := .acking s m.quiesceLatch })
  | .acking s ack => some ((m.countDown ack).setPump d { p with pc := .working s })
  | .working _ => none
  | .backoff => some (m.setPump d { p with pc := .supervise })
  | .exited => none

/-- Counts a packet the egress pump handled. -/
def Mux.countEgress (m : Mux) : EgressFate → Mux
  | .dropped => { m with droppedInDropState := m.droppedInDropState + 1 }
  | .intercepted => m
  | .queueFullPassThrough =>
    { m with
      dnsQueueFullPassThrough := m.dnsQueueFullPassThrough + 1
      forwardedEgress := m.forwardedEgress + 1 }
  | .forwarded => { m with forwardedEgress := m.forwardedEgress + 1 }

/-- One packet read with the snapshot `s` and handled: `handleEgress`, or `writeTo` and the ingress
counter. -/
def handlePacket (m : Mux) (d : Direction) (s : Snapshot) (bytes : List UInt8)
    (stage : Option OfferResult) : Option Mux :=
  match d with
  | .egress => (handleEgress s stage bytes).map m.countEgress
  | .ingress => some { m with forwardedIngress := m.forwardedIngress + 1 }

/-- The supervisor's handling of a pump that threw. The locals of `pump` are gone with the
exception, so the next call starts from epoch `-1` again. -/
def Pump.failed (p : Pump) (running healthy : Bool) : Pump :=
  let restarts := (if healthy then 0 else p.restarts) + 1
  if !running then ⟨.exited, -1, none, p.restarts⟩
  else if maxPumpRestarts ≤ restarts then ⟨.exited, -1, none, restarts⟩
  else ⟨.backoff, -1, none, restarts⟩

@[simp] theorem Pump.failed_localEpoch (p : Pump) (running healthy : Bool) :
    (p.failed running healthy).localEpoch = -1 := by
  unfold Pump.failed
  dsimp only
  split_ifs <;> rfl

@[simp] theorem Pump.failed_held (p : Pump) (running healthy : Bool) :
    (p.failed running healthy).pc.held = none := by
  unfold Pump.failed
  dsimp only
  split_ifs <;> rfl

/-- One step of a pump thread. -/
def pumpStep (m : Mux) (d : Direction) : PumpEvent → Option Mux
  | .advance => advancePump m d
  | .idle =>
    match (m.pump d).pc with
    | .working _ => some (m.setPump d { m.pump d with pc := .head })
    | _ => none
  | .packet bytes stage =>
    match (m.pump d).pc with
    | .working s =>
      if s.source d = none ∨ bytes = [] then none
      else (handlePacket m d s bytes stage).map
        fun handled ↦ handled.setPump d { m.pump d with pc := .head }
    | _ => none
  | .fail healthy =>
    if (m.pump d).pc.held.isSome then some (m.setPump d ((m.pump d).failed m.running healthy))
    else none

/-! ### Controller steps -/

/-- What the thread in the mux's monitor does next. -/
inductive ControlEvent
  | setTun (tun : Fd) (mtu : ℕ)
  | detachEngine
  | attachEngine
  | stop
  /-- `publishAndWake(target)` inside `quiesce`. -/
  | publish
  /-- `await` returns true. -/
  | settle
  /-- `await` returns false, or is interrupted. -/
  | timeout
  /-- The `finally` of `quiesce`. -/
  | clear
  /-- The rest of the method after `quiesce`. -/
  | resume
  /-- The socket pair of `attachEngine` is created and published, or creating it threw. -/
  | socketpair (created : Bool)
  /-- `stop` has joined the pumps and closes what the mux owns. -/
  | joined
  deriving DecidableEq, Repr

/-- The start of `quiesce`: a fresh latch of two, assigned before anything is published. -/
def Mux.beginQuiesce (m : Mux) (call : Call) (target : Snapshot) : Mux :=
  { m with
    quiesceLatch := some m.nextLatch
    latches := Function.update m.latches m.nextLatch 2
    nextLatch := m.nextLatch + 1
    control := .latched call target m.nextLatch }

/-- The start of `detachEngine`, called by itself or from `attachEngine`. -/
def Mux.beginDetach (m : Mux) (call : Call) (next : Control) : Mux :=
  let cur := m.snapshot
  if cur.engine = none ∧ m.engineMuxSide = none then { m with control := next }
  else m.beginQuiesce call ⟨.drop, cur.tun, none, nextEpoch cur.epoch, cur.mtu⟩

/-- `closeQuietly(engineMuxSide); engineMuxSide = null`. -/
def Mux.closeMuxSide (m : Mux) : Mux :=
  { m with closed := m.engineMuxSide.toList ++ m.closed, engineMuxSide := none }

/-- The rest of the method that called `quiesce`. -/
def Mux.resume (m : Mux) (call : Call) : Mux :=
  match call with
  | .setTun tun mtu cur =>
    { m with
      snapshot := ⟨cur.state, some tun, cur.engine, nextEpoch m.snapshot.epoch, mtu⟩
      control := .idle }
  | .detachEngine => { m.closeMuxSide with control := .idle }
  | .attachEngine => { m.closeMuxSide with control := .attaching }

/-- One step of the thread in the mux's monitor. -/
def controlStep (m : Mux) : ControlEvent → Option Mux
  | .setTun tun mtu =>
    if m.control = .idle then
      let cur := m.snapshot
      some (m.beginQuiesce (.setTun tun mtu cur)
        ⟨.drop, none, cur.engine, nextEpoch cur.epoch, mtu⟩)
    else none
  | .detachEngine => if m.control = .idle then some (m.beginDetach .detachEngine .idle) else none
  | .attachEngine =>
    if m.control = .idle then some (m.beginDetach .attachEngine .attaching) else none
  | .stop =>
    if m.control ≠ .idle then none
    else if !m.running then some m
    else
      let cur := m.snapshot
      some { m with
        running := false
        snapshot := ⟨.drop, none, none, nextEpoch cur.epoch, cur.mtu⟩
        control := .stopping }
  | .publish =>
    match m.control with
    | .latched call target ack =>
      some { m with snapshot := target, control := .awaiting call target ack }
    | _ => none
  | .settle =>
    match m.control with
    | .awaiting call target ack =>
      if m.latches ack = 0 then some { m with control := .awaited call target true } else none
    | _ => none
  | .timeout =>
    match m.control with
    | .awaiting call target _ => some { m with control := .awaited call target false }
    | _ => none
  | .clear =>
    match m.control with
    | .awaited call target settled =>
      some { m with quiesceLatch := none, control := .quiesced call target settled }
    | _ => none
  | .resume =>
    match m.control with
    | .quiesced call _ _ => some (m.resume call)
    | _ => none
  | .socketpair created =>
    match m.control with
    | .attaching =>
      if created then
        let cur := m.snapshot
        some { m with
          engineMuxSide := some m.nextFd
          nextFd := m.nextFd + 1
          snapshot := ⟨.forward, cur.tun, some m.nextFd, nextEpoch cur.epoch, cur.mtu⟩
          control := .idle }
      else some { m with control := .idle }
    | _ => none
  | .joined =>
    match m.control with
    | .stopping => some { m.closeMuxSide with control := .idle }
    | _ => none

/-- An action of the mux: a step of one pump, or of the thread in the monitor. -/
inductive Action
  | pump (d : Direction) (event : PumpEvent)
  | control (event : ControlEvent)
  deriving DecidableEq, Repr

/-- One step of the mux. -/
def step (m : Mux) : Action → Option Mux
  | .pump d event => pumpStep m d event
  | .control event => controlStep m event

end WindscribeVpn.Tunnel.PacketMux
