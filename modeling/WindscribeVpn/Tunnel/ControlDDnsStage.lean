import WindscribeVpn.Foundations.Runs
import Mathlib.Data.List.AList
import Mathlib.Data.Nat.Bitwise

/-!
# The DNS stage: `ControlDDnsStage`

`ControlDDnsStage.java` takes the UDP/53 packets the egress pump offers it, sends each query to the
local resolver under a transaction id of its own, and hands the resolver's answer back to the asking
app under the app's id. Four threads touch its state: the egress pump through `offer`, the transmit
loop `txLoop`, the receive loop `rxLoop` and the timeout executor; `stop` is a fifth. `step` is the
partial step function of the whole stage, one shared access to a step: the poll of the queue, the
size check, each `containsKey` of `allocateUpstreamId`, the `put`, the send, the removal after a
failed send, the scheduling of the timer, the receive, the removal in `deliver` and the write of the
reply are steps of their own.

Packets are parsed and built by pcap4j and the question is read by minidns. Both are parameters, the
fields of `Codec`; a packet is the record of what the stage reads of it. `History` records what has
happened and is read by no step. A query is followed through it by its `serial`, the identity of the
object the stage made for it.

`offer` reads `running` and enqueues in one step: after `stop` nothing reads the queue any more, so
an enqueue that slips in after the flag is cleared has no effect on the rest. A stage object is
started once, so the model begins right after a successful `start`. Logging and `QueryKey`, which
only the log reads, are left out.
-/

set_option autoImplicit false
set_option relaxedAutoImplicit false

namespace WindscribeVpn.Tunnel.ControlDDnsStage

/-- `QUEUE_DEPTH`. -/
def queueDepth : ℕ := 512

/-- `RESPONSE_BUFFER_BYTES`. -/
def responseBufferBytes : ℕ := 4096

/-- `MAX_PENDING`. -/
def maxPending : ℕ := 4096

/-! ### Packets, parsing and building -/

/-- The UDP part of a packet. -/
structure UdpPacket where
  srcPort : ℕ
  dstPort : ℕ
  payload : Option (List UInt8)
  deriving DecidableEq, Repr

/-- An IP packet as the stage reads it. -/
structure IpPacket where
  v6 : Bool
  srcAddr : ℕ
  dstAddr : ℕ
  udp : Option UdpPacket
  deriving DecidableEq, Repr

/-- The libraries the stage parses with. `newPacket` is `IpSelector.newPacket` with the cast, and
`dnsMessage` gives the names of the questions of `new DnsMessage(bytes)`; `none` is an exception. -/
structure Codec where
  newPacket : List UInt8 → Option IpPacket
  dnsMessage : List UInt8 → Option (List String)

/-- `questionName`. -/
def questionName (c : Codec) (dnsPayload : List UInt8) : Option String :=
  match c.dnsMessage dnsPayload with
  | some (name :: _) => some name
  | some [] | none => none

/-- The big-endian reading of the first two bytes. -/
def transactionId (dns : List UInt8) : ℕ :=
  ((dns.getD 0 0).toNat <<< 8) ||| (dns.getD 1 0).toNat

/-- `writeTransactionId`, as the array afterwards. -/
def writeTransactionId (dns : List UInt8) (id : ℕ) : List UInt8 :=
  if 2 ≤ dns.length then
    UInt8.ofNat ((id >>> 8) &&& 0xFF) :: UInt8.ofNat (id &&& 0xFF) :: dns.drop 2
  else dns

/-- `rebuild`: swaps addresses and ports and carries the payload back. `none` is an exception. -/
def rebuild (request : IpPacket) (responsePayload : List UInt8) : Option IpPacket :=
  request.udp.map fun requestUdp ↦
    { request with
      srcAddr := request.dstAddr
      dstAddr := request.srcAddr
      udp := some ⟨requestUdp.dstPort, requestUdp.srcPort, some responsePayload⟩ }

/-! ### The state of the stage -/

/-- A packet `offer` accepted. -/
structure Offered where
  serial : ℕ
  raw : List UInt8
  deriving DecidableEq, Repr

/-- The locals of `handleQuery` once the packet is known to be a query. -/
structure Query where
  serial : ℕ
  ip : IpPacket
  dnsPayload : List UInt8
  deriving DecidableEq, Repr

/-- `PendingQuery`. -/
structure PendingQuery where
  serial : ℕ
  request : IpPacket
  appTransactionId : ℕ
  name : Option String
  deriving DecidableEq, Repr

/-- The entry `handleQuery` makes for a query. -/
def Query.pendingQuery (c : Codec) (q : Query) : PendingQuery :=
  ⟨q.serial, q.ip, transactionId q.dnsPayload, questionName c q.dnsPayload⟩

/-- `String.equalsIgnoreCase` on the ASCII names minidns prints. -/
def equalsIgnoreCase (a b : String) : Bool := a.map Char.toLower == b.map Char.toLower

/-- `questionMatches`. -/
def questionMatches (c : Codec) (response : List UInt8) (q : PendingQuery) : Bool :=
  match questionName c response with
  | none => q.name.isNone
  | some name => q.name.any (equalsIgnoreCase name)

/-- The table `pending`, keyed by the upstream id. -/
abbrev Table := AList fun _ : ℕ ↦ PendingQuery

/-- A scheduled `expire(id)` and the query it was scheduled for. -/
structure Timer where
  owner : ℕ
  id : ℕ
  deriving DecidableEq, Repr

/-- Where `txLoop` is. -/
inductive TxPc
  /-- At the loop's test of `running`. -/
  | head
  /-- Inside `inbound.poll`. -/
  | polling
  /-- In `handleQuery`, before the packet is parsed. -/
  | taken (o : Offered)
  /-- The size check is next. -/
  | checking (q : Query)
  /-- In `allocateUpstreamId`, after this many failed attempts. -/
  | allocating (attempt : ℕ) (q : Query)
  /-- An id is allocated; `pending.put` is next. -/
  | putting (id : ℕ) (q : Query)
  /-- The send is next. -/
  | sending (id : ℕ) (q : Query)
  /-- The send failed; `pending.remove` is next. -/
  | failing (id : ℕ) (q : Query)
  /-- Sent; scheduling the timer is next. -/
  | scheduling (id : ℕ) (q : Query)
  | exited
  deriving DecidableEq, Repr

/-- Where `rxLoop` is. A datagram comes with the serial of the query whose datagram it answers. -/
inductive RxPc
  | head
  | receiving
  /-- In `deliver`; the removal from the table is next. -/
  | received (datagram : List UInt8) (answers : Option ℕ)
  /-- The entry is taken out and the question matched; the reply is next. -/
  | matched (q : PendingQuery) (datagram : List UInt8)
  | exited
  deriving DecidableEq, Repr

/-- Where `stop` is. -/
inductive StopPc
  | live
  /-- `running` is cleared; closing the socket is next. -/
  | flagged
  /-- The socket is closed and the threads interrupted; the joins and `shutdownNow` are next. -/
  | closed
  /-- The executor is shut down; `pending.clear` is next. -/
  | shut
  /-- `inbound.clear` is next. -/
  | cleared
  | done
  deriving DecidableEq, Repr

/-- Why an entry left the table. -/
inductive Cause
  /-- A datagram from the resolver, with the serial of the query it answers. -/
  | response (answers : Option ℕ)
  /-- The timer scheduled for this query. -/
  | timer (owner : ℕ)
  /-- The failed send of this query. -/
  | sendFailure (owner : ℕ)
  | stop
  deriving DecidableEq, Repr

/-- An entry that left the table. -/
structure Departure where
  serial : ℕ
  cause : Cause
  deriving DecidableEq, Repr

/-- A datagram sent to the resolver. -/
structure Datagram where
  serial : ℕ
  payload : List UInt8
  deriving DecidableEq, Repr

/-- A packet written towards the apps, and the resolver's datagram it was made from. -/
structure Reply where
  serial : ℕ
  datagram : List UInt8
  packet : IpPacket
  deriving DecidableEq, Repr

/-- What has happened so far, newest first. No step reads it. -/
structure History where
  offered : List Offered
  assigned : List (ℕ × ℕ)
  sent : List Datagram
  passedThrough : List ℕ
  departures : List Departure
  replies : List Reply

/-- The stage. `timers` is absent once the executor is shut down. -/
structure Stage where
  running : Bool
  socketOpen : Bool
  inbound : List Offered
  pending : Table
  nextUpstreamId : BitVec 32
  windscribeBypassAvailable : Bool
  timers : Option (List Timer)
  tx : TxPc
  rx : RxPc
  stop : StopPc
  nextSerial : ℕ
  queueDrops : ℕ
  answered : ℕ
  timedOut : ℕ
  history : History

/-- The stage right after `start`, with the counter at any value. -/
def Stage.started (nextUpstreamId : BitVec 32) : Stage where
  running := true
  socketOpen := true
  inbound := []
  pending := ∅
  nextUpstreamId := nextUpstreamId
  windscribeBypassAvailable := true
  timers := some []
  tx := .head
  rx := .head
  stop := .live
  nextSerial := 0
  queueDrops := 0
  answered := 0
  timedOut := 0
  history := ⟨[], [], [], [], [], []⟩

/-! ### Steps -/

/-- `offer`. -/
def offer (s : Stage) (raw : List UInt8) : Stage × Bool :=
  if !s.running then (s, false)
  else if queueDepth ≤ s.inbound.length then ({ s with queueDrops := s.queueDrops + 1 }, false)
  else
    let o : Offered := ⟨s.nextSerial, raw⟩
    ({ s with
      inbound := s.inbound ++ [o]
      nextSerial := s.nextSerial + 1
      history := { s.history with offered := o :: s.history.offered } }, true)

/-- `pending.remove(id)`, recording the entry that leaves. -/
def Stage.removePending (s : Stage) (id : ℕ) (cause : Cause) : Stage :=
  match s.pending.lookup id with
  | none => s
  | some q =>
    { s with
      pending := s.pending.erase id
      history := { s.history with departures := ⟨q.serial, cause⟩ :: s.history.departures } }

section RemovePending

variable (s : Stage) (id : ℕ) (cause : Cause)

@[simp, grind =] theorem Stage.removePending_tx : (s.removePending id cause).tx = s.tx := by
  unfold Stage.removePending
  split <;> rfl

@[simp, grind =] theorem Stage.removePending_rx : (s.removePending id cause).rx = s.rx := by
  unfold Stage.removePending
  split <;> rfl

@[simp, grind =] theorem Stage.removePending_inbound :
    (s.removePending id cause).inbound = s.inbound := by
  unfold Stage.removePending
  split <;> rfl

@[simp, grind =] theorem Stage.removePending_nextUpstreamId :
    (s.removePending id cause).nextUpstreamId = s.nextUpstreamId := by
  unfold Stage.removePending
  split <;> rfl

@[simp, grind =] theorem Stage.removePending_running :
    (s.removePending id cause).running = s.running := by
  unfold Stage.removePending
  split <;> rfl

@[simp, grind =] theorem Stage.removePending_stop : (s.removePending id cause).stop = s.stop := by
  unfold Stage.removePending
  split <;> rfl

@[simp, grind =] theorem Stage.removePending_windscribeBypassAvailable :
    (s.removePending id cause).windscribeBypassAvailable = s.windscribeBypassAvailable := by
  unfold Stage.removePending
  split <;> rfl

@[simp, grind =] theorem Stage.removePending_nextSerial :
    (s.removePending id cause).nextSerial = s.nextSerial := by
  unfold Stage.removePending
  split <;> rfl

@[simp, grind =] theorem Stage.removePending_timers :
    (s.removePending id cause).timers = s.timers := by
  unfold Stage.removePending
  split <;> rfl

@[simp, grind =] theorem Stage.removePending_offered :
    (s.removePending id cause).history.offered = s.history.offered := by
  unfold Stage.removePending
  split <;> rfl

@[simp, grind =] theorem Stage.removePending_assigned :
    (s.removePending id cause).history.assigned = s.history.assigned := by
  unfold Stage.removePending
  split <;> rfl

@[simp, grind =] theorem Stage.removePending_sent :
    (s.removePending id cause).history.sent = s.history.sent := by
  unfold Stage.removePending
  split <;> rfl

@[simp, grind =] theorem Stage.removePending_replies :
    (s.removePending id cause).history.replies = s.history.replies := by
  unfold Stage.removePending
  split <;> rfl

end RemovePending

/-- `passThrough`. -/
def Stage.passThrough (s : Stage) (serial : ℕ) : Stage :=
  { s with history := { s.history with passedThrough := serial :: s.history.passedThrough } }

/-- The query in a packet, or `none` for a packet that `handleQuery` passes through unparsed. -/
def queryOf (c : Codec) (o : Offered) : Option Query := do
  let ip ← c.newPacket o.raw
  let udp ← ip.udp
  let dnsPayload ← udp.payload
  if dnsPayload.length < 2 then none else some ⟨o.serial, ip, dnsPayload⟩

/-- `shouldBypass`: one lookup under windscribe.com skips the resolver. -/
def shouldBypass (c : Codec) (available : Bool) (dnsPayload : List UInt8) : Bool :=
  available && (questionName c dnsPayload).any fun name ↦
    name == "windscribe.com" || name.endsWith ".windscribe.com"

/-- The candidate id a counter value gives. -/
def candidateId (counter : BitVec 32) : ℕ := (counter &&& 0xFFFF#32).toNat

/-- What `txLoop` does next, with the outcome of its system calls. -/
inductive TxEvent
  | advance
  /-- The send, and whether it succeeds. -/
  | send (sent : Bool)
  /-- `poll` is interrupted by `stop`. -/
  | interrupted
  deriving DecidableEq, Repr

/-- The step of `txLoop` other than the send. -/
def txAdvance (c : Codec) (s : Stage) : Option Stage :=
  match s.tx with
  | .head => some { s with tx := if s.running then .polling else .exited }
  | .polling =>
    match s.inbound with
    | [] => some { s with tx := .head }
    | o :: rest => some { s with inbound := rest, tx := .taken o }
  | .taken o =>
    match queryOf c o with
    | none => some { s.passThrough o.serial with tx := .head }
    | some q =>
      if shouldBypass c s.windscribeBypassAvailable q.dnsPayload then
        some { s.passThrough o.serial with windscribeBypassAvailable := false, tx := .head }
      else some { s with tx := .checking q }
  | .checking q =>
    if maxPending ≤ s.pending.entries.length then some { s with tx := .head }
    else some { s with tx := .allocating 0 q }
  | .allocating attempt q =>
    if attempt < 0x10000 then
      let candidate := candidateId s.nextUpstreamId
      some { s with
        nextUpstreamId := s.nextUpstreamId + 1
        tx := if candidate ∈ s.pending then .allocating (attempt + 1) q
          else .putting candidate q }
    else some { s with tx := .head }
  | .putting id q =>
    some { s with
      pending := s.pending.insert id (q.pendingQuery c)
      tx := .sending id q
      history := { s.history with assigned := (q.serial, id) :: s.history.assigned } }
  | .sending _ _ => none
  | .failing id q => some { s.removePending id (.sendFailure q.serial) with tx := .head }
  | .scheduling id q =>
    some { s with timers := s.timers.map (⟨q.serial, id⟩ :: ·), tx := .head }
  | .exited => none

/-- One step of `txLoop`. A send on a socket that is null or closed fails. -/
def txStep (c : Codec) (s : Stage) : TxEvent → Option Stage
  | .advance => txAdvance c s
  | .send sent =>
    match s.tx with
    | .sending id q =>
      if sent && s.socketOpen then
        let datagram : Datagram := ⟨q.serial, writeTransactionId q.dnsPayload id⟩
        some { s with
          tx := .scheduling id q
          history := { s.history with sent := datagram :: s.history.sent } }
      else some { s with tx := .failing id q }
    | _ => none
  | .interrupted => if s.tx = .polling ∧ s.stop ≠ .live then some { s with tx := .exited } else none

/-- What `rxLoop` does next. -/
inductive RxEvent
  | advance
  /-- A datagram from the resolver, with the serial of the query whose datagram it answers. -/
  | receive (datagram : List UInt8) (answers : Option ℕ)
  | timeout
  /-- The receive throws. -/
  | ioError
  /-- The reply cannot be built or written. -/
  | replyFailed
  deriving DecidableEq, Repr

/-- What `deliver` sees of a datagram: the receive buffer cuts it off. -/
def receivedBytes (datagram : List UInt8) : List UInt8 := datagram.take responseBufferBytes

/-- `deliver` up to the reply: the entry is removed before the question is compared. -/
def deliver (c : Codec) (s : Stage) (datagram : List UInt8) (answers : Option ℕ) : Stage :=
  let response := receivedBytes datagram
  if response.length < 2 then { s with rx := .head }
  else
    match s.pending.lookup (transactionId response) with
    | none => { s with rx := .head }
    | some q =>
      { s.removePending (transactionId response) (.response answers) with
        rx := if questionMatches c response q then .matched q datagram else .head }

/-- The rest of `deliver`: the app's id is written back and the packet handed to the apps. -/
def reply (s : Stage) (q : PendingQuery) (datagram : List UInt8) : Stage :=
  match rebuild q.request (writeTransactionId (receivedBytes datagram) q.appTransactionId) with
  | none => { s with rx := .head }
  | some packet =>
    { s with
      rx := .head
      answered := s.answered + 1
      history := { s.history with replies := ⟨q.serial, datagram, packet⟩ :: s.history.replies } }

/-- One step of `rxLoop`. -/
def rxStep (c : Codec) (s : Stage) : RxEvent → Option Stage
  | .advance =>
    match s.rx with
    | .head =>
      if !s.running then some { s with rx := .exited }
      else if s.socketOpen then some { s with rx := .receiving }
      else some { s with running := false, rx := .exited }
    | .received datagram answers => some (deliver c s datagram answers)
    | .matched q datagram => some (reply s q datagram)
    | .receiving | .exited => none
  | .receive datagram answers =>
    if s.rx = .receiving ∧ s.socketOpen then some { s with rx := .received datagram answers }
    else none
  | .timeout => if s.rx = .receiving then some { s with rx := .head } else none
  | .ioError => if s.rx = .receiving then some { s with running := false, rx := .exited } else none
  | .replyFailed =>
    match s.rx with
    | .matched _ _ => some { s with rx := .head }
    | _ => none

/-- `expire`, run by a timer that is still scheduled. -/
def expire (s : Stage) (timer : Timer) : Option Stage :=
  match s.timers with
  | none => none
  | some scheduled =>
    if timer ∈ scheduled then
      let expired := s.removePending timer.id (.timer timer.owner)
      some { expired with
        timers := some (scheduled.erase timer)
        timedOut := if timer.id ∈ s.pending then s.timedOut + 1 else s.timedOut }
    else none

/-- The next step of `stop`. The joins have a time limit, so the loops may still be under way when
the table is cleared. -/
def stopStep (s : Stage) : Option Stage :=
  match s.stop with
  | .live =>
    if s.running then some { s with running := false, stop := .flagged }
    else some { s with socketOpen := false }
  | .flagged => some { s with socketOpen := false, stop := .closed }
  | .closed => some { s with timers := none, stop := .shut }
  | .shut =>
    some { s with
      pending := ∅
      stop := .cleared
      history := { s.history with
        departures := s.pending.entries.map (fun e ↦ ⟨e.2.serial, .stop⟩) ++
          s.history.departures } }
  | .cleared => some { s with inbound := [], stop := .done }
  | .done => none

/-- An action of one of the stage's parties. -/
inductive Action
  | offer (raw : List UInt8)
  | tx (event : TxEvent)
  | rx (event : RxEvent)
  | expire (timer : Timer)
  | stop
  | onEngineAttached
  deriving DecidableEq, Repr

/-- One step of the stage. -/
def step (c : Codec) (s : Stage) : Action → Option Stage
  | .offer raw => some (offer s raw).1
  | .tx event => txStep c s event
  | .rx event => rxStep c s event
  | .expire timer => expire s timer
  | .stop => stopStep s
  | .onEngineAttached => some { s with windscribeBypassAvailable := true }

end WindscribeVpn.Tunnel.ControlDDnsStage
