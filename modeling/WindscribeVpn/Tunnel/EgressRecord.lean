import WindscribeVpn.Tunnel.DnsStageBlocking

/-!
# What becomes of the packets of the egress pump

The mux and the DNS stage of `DnsStageBlocking`, with a record of every packet that the egress pump
read in `FORWARD` with an engine, and of every outcome that a packet had: what was written to the
engine, what was sent to the resolver, what was dropped and why. No step reads the record. A packet
that the stage took is known by its serial, another one by a number of its own.

`Path` also joins the stage to the attachment of an engine: `attachEngine` notifies the stage after
it has made the socket pair and before it publishes it. The notice arms the bypass, which lets one
query skip the resolver.

`Move` says once what a step does to the packets that are under way. `line` lists them: the one in
the hands of the transmit loop, then those in the queue.
-/

set_option autoImplicit false
set_option relaxedAutoImplicit false

namespace WindscribeVpn.Tunnel.EgressFates

open Foundations.Runs PacketMux ControlDDnsStage
open DnsStageBlocking (System asksStage)

/-! ### The record -/

/-- A packet, by the serial that the stage gave it, or by a number when the stage did not take
it. -/
inductive Packet
  | accepted (serial : ℕ)
  | direct (number : ℕ)
  deriving DecidableEq

/-- What became of a packet. -/
inductive Outcome
  | written (engine : Fd) (bytes : List UInt8)
  | sent (datagram : List UInt8)
  /-- Dropped at the size check, with so many queries in flight. -/
  | overLimit (inFlight : ℕ)
  | noFreeId
  | sendFailed
  /-- Dropped by `writeToEngine` outside `FORWARD`. -/
  | held
  /-- Dropped by `writeTo` without a descriptor. -/
  | unwritable
  deriving DecidableEq

/-- A packet that the egress pump read in `FORWARD` with an engine. -/
structure Reading where
  packet : Packet
  bytes : List UInt8
  deriving DecidableEq

/-- The mux and the stage, with the record. -/
structure Path where
  system : System
  /-- `attachEngine` has notified the stage and has not published yet. -/
  notified : Bool
  /-- The notices so far. -/
  attaches : ℕ
  reads : List Reading
  outcomes : List (Packet × Outcome)

/-- A started mux with a started stage. -/
def Path.started (tun : Fd) (mtu : ℕ) (nextFd : Fd) (counter : BitVec 32) : Path where
  system := System.started tun mtu nextFd counter
  notified := false
  attaches := 0
  reads := []
  outcomes := []

/-- The stage. -/
abbrev Path.stage (x : Path) : Stage := x.system.stage

/-- The mux. -/
abbrev Path.mux (x : Path) : Mux := x.system.mux

/-- `writeToEngine`, by what becomes of the packet. -/
def writeToEngine (m : Mux) (bytes : List UInt8) : Outcome :=
  if m.snapshot.state ≠ .forward then .held
  else
    match m.snapshot.engine with
    | some engine => .written engine bytes
    | none => .unwritable

/-- A packet that `handleQuery` passes through: it holds no query, or one that `shouldBypass` lets
past the resolver. -/
def passes (c : Codec) (s : Stage) (o : Offered) : Bool :=
  (queryOf c o).all fun q ↦ shouldBypass c s.windscribeBypassAvailable q.dnsPayload

/-- The outcomes of a step of the stage. -/
def stageOutcome (c : Codec) (x : Path) (event : TxEvent) : List (Packet × Outcome) :=
  match event, x.stage.tx with
  | .advance, .taken o =>
    if passes c x.stage o then [(.accepted o.serial, writeToEngine x.mux o.raw)] else []
  | .advance, .checking q =>
    if maxPending ≤ x.stage.pending.entries.length then
      [(.accepted q.serial, .overLimit x.stage.pending.entries.length)]
    else []
  | .advance, .allocating attempt q =>
    if attempt < 0x10000 then [] else [(.accepted q.serial, .noFreeId)]
  | .send sent, .sending id q =>
    if sent && x.stage.socketOpen then
      [(.accepted q.serial, .sent (writeTransactionId q.dnsPayload id))]
    else [(.accepted q.serial, .sendFailed)]
  | _, _ => []

/-- The stage's answer to a packet that the egress pump reads with this snapshot. -/
def answer (x : Path) (s : Snapshot) (bytes : List UInt8) : OfferResult :=
  if asksStage s bytes && (offer x.stage bytes).2 then .taken else .declined

/-- The packet that the egress pump reads, and its outcome when the stage does not take it. -/
def readOutcome (x : Path) (bytes : List UInt8) : List Reading × List (Packet × Outcome) :=
  match (x.mux.pump .egress).pc with
  | .working s =>
    match handleEgress s (some (answer x s bytes)) bytes, s.engine with
    | some .intercepted, _ => ([⟨.accepted x.stage.nextSerial, bytes⟩], [])
    | some .forwarded, some engine | some .queueFullPassThrough, some engine =>
      ([⟨.direct x.reads.length, bytes⟩], [(.direct x.reads.length, .written engine bytes)])
    | _, _ => ([], [])
  | _ => ([], [])

/-- An action of the path. -/
abbrev Action := DnsStageBlocking.Action

/-- The notice comes in an attachment, before the publication. -/
def inOrder (x : Path) : Action → Bool
  | .mux (.control (.socketpair created)) => created == x.notified
  | .stage .onEngineAttached => decide (x.mux.control = .attaching) && !x.notified
  | _ => true

/-- The record after a step that ends in `system`. -/
def Path.after (c : Codec) (x : Path) (system : System) : Action → Path
  | .mux (.control (.socketpair _)) => { x with system, notified := false }
  | .mux _ => { x with system }
  | .egress bytes =>
    { x with
      system
      reads := (readOutcome x bytes).1 ++ x.reads
      outcomes := (readOutcome x bytes).2 ++ x.outcomes }
  | .stage .onEngineAttached =>
    { x with system, notified := true, attaches := x.attaches + 1 }
  | .stage (.tx event) =>
    { x with
      system
      outcomes := stageOutcome c x event ++ x.outcomes }
  | .stage _ => { x with system }

/-- One step of the path. -/
def step (c : Codec) (x : Path) (a : Action) : Option Path :=
  if inOrder x a then (DnsStageBlocking.step c x.system a).map fun system ↦ x.after c system a
  else none

/-! ### The packets under way -/

/-- The serial of the packet in the hands of the transmit loop, up to the send. -/
def inHand : TxPc → Option ℕ
  | .taken o => some o.serial
  | .checking q | .allocating _ q | .putting _ q | .sending _ q => some q.serial
  | .head | .polling | .failing _ _ | .scheduling _ _ | .exited => none

/-- The packets that the stage has and that have no outcome yet, in the order in which they were
taken. -/
def line (s : Stage) : List ℕ := (inHand s.tx).toList ++ s.inbound.map Offered.serial

/-- The outcome of a packet in the hands of the transmit loop. -/
inductive Ended (c : Codec) (x : Path) : ℕ → Outcome → Prop
  | passed {o : Offered} (htx : x.stage.tx = .taken o) (hpasses : passes c x.stage o = true) :
    Ended c x o.serial (writeToEngine x.mux o.raw)
  | overLimit {q : Query} (htx : x.stage.tx = .checking q)
      (hfull : maxPending ≤ x.stage.pending.entries.length) :
    Ended c x q.serial (.overLimit x.stage.pending.entries.length)
  | noFreeId {attempt : ℕ} {q : Query} (htx : x.stage.tx = .allocating attempt q)
      (hspent : 0x10000 ≤ attempt) : Ended c x q.serial .noFreeId
  | sent {id : ℕ} {q : Query} (htx : x.stage.tx = .sending id q) :
    Ended c x q.serial (.sent (writeTransactionId q.dnsPayload id))
  | sendFailed {id : ℕ} {q : Query} (htx : x.stage.tx = .sending id q) :
    Ended c x q.serial .sendFailed

/-- What a step does to the packets that are under way. -/
inductive Move (c : Codec) (x : Path) (a : Action) (y : Path) : Prop
  | quiet (houtcomes : y.outcomes = x.outcomes) (hreads : y.reads = x.reads)
      (hline : line y.stage = line x.stage) (hserial : y.stage.nextSerial = x.stage.nextSerial)
  | accept {bytes : List UInt8} (ha : a = .egress bytes) (houtcomes : y.outcomes = x.outcomes)
      (hreads : y.reads = ⟨.accepted x.stage.nextSerial, bytes⟩ :: x.reads)
      (hline : line y.stage = line x.stage ++ [x.stage.nextSerial])
      (hserial : y.stage.nextSerial = x.stage.nextSerial + 1)
  | direct {bytes : List UInt8} (engine : Fd) (ha : a = .egress bytes)
      (houtcomes : y.outcomes =
        (.direct x.reads.length, .written engine bytes) :: x.outcomes)
      (hreads : y.reads = ⟨.direct x.reads.length, bytes⟩ :: x.reads)
      (hline : line y.stage = line x.stage) (hserial : y.stage.nextSerial = x.stage.nextSerial)
  | finish {serial : ℕ} {outcome : Outcome} (hended : Ended c x serial outcome)
      (houtcomes : y.outcomes = (.accepted serial, outcome) :: x.outcomes)
      (hreads : y.reads = x.reads) (hline : line x.stage = serial :: line y.stage)
      (hserial : y.stage.nextSerial = x.stage.nextSerial)
  | clear (hstop : x.stage.stop = .cleared) (houtcomes : y.outcomes = x.outcomes)
      (hreads : y.reads = x.reads) (hline : (line y.stage).Sublist (line x.stage))
      (hserial : y.stage.nextSerial = x.stage.nextSerial)

variable {c : Codec} {x y : Path} {a : Action}

/-! ### Steps of the stage -/

theorem line_of_eq {s s' : Stage} (htx : s'.tx = s.tx) (hinbound : s'.inbound = s.inbound) :
    line s' = line s := by
  rw [line, line, htx, hinbound]

/-- A packet that is taken goes to the end of the queue. -/
theorem line_offer_taken {s : Stage} {raw : List UInt8} (htaken : (offer s raw).2 = true) :
    line (offer s raw).1 = line s ++ [s.nextSerial] ∧
      (offer s raw).1.nextSerial = s.nextSerial + 1 := by
  unfold offer at htaken ⊢
  split_ifs at htaken ⊢
  refine ⟨?_, rfl⟩
  simp only [line, List.map_append, List.map_singleton, List.append_assoc]

theorem line_offer_declined {s : Stage} {raw : List UInt8} (hdeclined : (offer s raw).2 = false) :
    line (offer s raw).1 = line s ∧ (offer s raw).1.nextSerial = s.nextSerial := by
  unfold offer at hdeclined ⊢
  split_ifs at hdeclined ⊢
  · exact ⟨rfl, rfl⟩
  · exact ⟨rfl, rfl⟩

/-- The record of a step of the stage. -/
theorem step_stage {event : ControlDDnsStage.Action} (hstep : step c x (.stage event) = some y) :
    ∃ s, ControlDDnsStage.step c x.stage event = some s ∧
      y = x.after c ⟨x.mux, s⟩ (.stage event) := by
  unfold step at hstep
  split_ifs at hstep
  obtain ⟨system, hsystem, rfl⟩ := Option.map_eq_some_iff.mp hstep
  simp only [DnsStageBlocking.step] at hsystem
  split_ifs at hsystem
  obtain ⟨s, hs, rfl⟩ := Option.map_eq_some_iff.mp hsystem
  exact ⟨s, hs, rfl⟩

theorem passes_of_no_query {s : Stage} {o : Offered} (hnone : queryOf c o = none) :
    passes c s o = true := by
  rw [passes, hnone]
  rfl

theorem passes_of_query {s : Stage} {o : Offered} {q : Query} (hquery : queryOf c o = some q) :
    passes c s o = shouldBypass c s.windscribeBypassAvailable q.dnsPayload := by
  rw [passes, hquery]
  rfl

/-- What the transmit loop does to the packets under way: it ends the one in its hands, or none. -/
theorem move_tx {event : TxEvent} (hstep : step c x (.stage (.tx event)) = some y) :
    Move c x (.stage (.tx event)) y := by
  obtain ⟨s, hs, rfl⟩ := step_stage hstep
  cases txStep_move hs with
  | take htx hinbound =>
    refine .quiet ?_ rfl ?_ rfl
    · simp [Path.after, stageOutcome, htx]
    · simp [Path.after, line, inHand, htx, hinbound]
  | pass htx hnone =>
    have hpasses := passes_of_no_query (s := x.stage) hnone
    refine .finish (.passed htx hpasses) ?_ rfl ?_ rfl
    · simp [Path.after, stageOutcome, htx, hpasses]
    · simp [Path.after, line, inHand, Stage.passThrough, htx]
  | bypass htx hquery hbypass =>
    have hpasses := (passes_of_query hquery).trans hbypass
    refine .finish (.passed htx hpasses) ?_ rfl ?_ rfl
    · simp [Path.after, stageOutcome, htx, hpasses]
    · simp [Path.after, line, inHand, Stage.passThrough, htx]
  | check htx hquery hbypass =>
    have hserial := queryOf_serial hquery
    have hpasses := (passes_of_query hquery).trans (Bool.eq_false_iff.mpr hbypass)
    refine .quiet ?_ rfl ?_ rfl
    · simp [Path.after, stageOutcome, htx, hpasses]
    · simp [Path.after, line, inHand, htx, hserial]
  | overLimit htx hfull =>
    refine .finish (.overLimit htx hfull) ?_ rfl ?_ rfl
    · simp [Path.after, stageOutcome, htx, hfull]
    · simp [Path.after, line, inHand, htx]
  | allocate htx hroom =>
    refine .quiet ?_ rfl ?_ rfl
    · simp [Path.after, stageOutcome, htx, hroom]
    · simp [Path.after, line, inHand, htx]
  | collide htx hmore | choose htx hmore =>
    refine .quiet ?_ rfl ?_ rfl
    · simp [Path.after, stageOutcome, htx, hmore]
    · simp [Path.after, line, inHand, htx]
  | exhaust htx hmore =>
    refine .finish (.noFreeId htx (not_lt.mp hmore)) ?_ rfl ?_ rfl
    · simp [Path.after, stageOutcome, htx, hmore]
    · simp [Path.after, line, inHand, htx]
  | fail htx =>
    refine .quiet ?_ rfl ?_ ?_
    · simp [Path.after, stageOutcome, htx]
    · simp [Path.after, line, inHand, htx]
    · simp [Path.after]
  | send htx hsent =>
    refine .finish (.sent htx) ?_ rfl ?_ rfl
    · simp only [Path.after, stageOutcome, htx, if_pos hsent, List.singleton_append]
    · simp [Path.after, line, inHand, htx]
  | sendFails htx hsent =>
    refine .finish (.sendFailed htx) ?_ rfl ?_ rfl
    · simp only [Path.after, stageOutcome, htx, if_neg hsent, List.singleton_append]
    · simp [Path.after, line, inHand, htx]
  | poll htx | exit htx | idle htx | put htx | schedule htx | interrupt htx =>
    refine .quiet ?_ rfl ?_ rfl
    · simp [Path.after, stageOutcome, htx]
    · simp [Path.after, line, inHand, htx]

/-- `stop` empties the queue last. -/
theorem move_stop (hstep : step c x (.stage .stop) = some y) : Move c x (.stage .stop) y := by
  obtain ⟨s, hs, rfl⟩ := step_stage hstep
  simp only [ControlDDnsStage.step, stopStep] at hs
  split at hs
  case h_5 hcleared =>
    obtain rfl := Option.some.inj hs
    refine .clear hcleared rfl rfl ?_ rfl
    simp [Path.after, line]
  all_goals
    refine .quiet rfl rfl ?_ ?_ <;> grind [Path.after, line]

/-! ### The classifier and the packets of the egress pump -/

theorem byteAt_take {p : List UInt8} {len i : ℕ} (hi : i < len) :
    byteAt (p.take len) i = byteAt p i := by
  rw [byteAt, byteAt, List.getElem?_take_of_lt hi]

theorem exists_byteAt {p : List UInt8} {i : ℕ} (hi : i < p.length) : ∃ n, byteAt p i = some n :=
  ⟨p[i].toNat, by rw [byteAt, List.getElem?_eq_getElem hi, Option.map_some]⟩

/-- `isUdpPort53` reads no byte at or past the length: on the bytes before it, it has the same
answer and raises nothing. -/
theorem isUdpPort53_take {p : List UInt8} {len : ℕ} (hlen : len ≤ p.length) :
    (isUdpPort53 (p.take len) len).isSome = true ∧
      isUdpPort53 p len = isUdpPort53 (p.take len) len := by
  unfold isUdpPort53
  by_cases hshort : len < 8
  · rw [if_pos hshort, if_pos hshort]
    exact ⟨rfl, rfl⟩
  · have hread : ∀ i, i < len → ∃ n, byteAt p i = some n ∧ byteAt (p.take len) i = some n := by
      intro i hi
      obtain ⟨n, hn⟩ := exists_byteAt (lt_of_lt_of_le hi hlen)
      exact ⟨n, hn, (byteAt_take hi).trans hn⟩
    obtain ⟨first, hfirst, hfirst'⟩ := hread 0 (by omega)
    rw [if_neg hshort, if_neg hshort, hfirst, hfirst']
    simp only [Option.bind_eq_bind, Option.bind_some]
    split_ifs with hv4 hheader hv6 hheader
    · exact ⟨rfl, rfl⟩
    · obtain ⟨protocol, hprotocol, hprotocol'⟩ := hread 9 (by omega)
      obtain ⟨high, hhigh, hhigh'⟩ := hread ((first &&& 0x0F) * 4 + 2) (by omega)
      obtain ⟨low, hlow, hlow'⟩ := hread ((first &&& 0x0F) * 4 + 3) (by omega)
      simp only [hprotocol, hprotocol', hhigh, hhigh', hlow, hlow', Option.bind_some, and_true]
      split_ifs
      · rfl
      · rfl
    · exact ⟨rfl, rfl⟩
    · obtain ⟨next, hnext, hnext'⟩ := hread 6 (by omega)
      obtain ⟨high, hhigh, hhigh'⟩ := hread 42 (by omega)
      obtain ⟨low, hlow, hlow'⟩ := hread 43 (by omega)
      simp only [hnext, hnext', hhigh, hhigh', hlow, hlow', Option.bind_some, and_true]
      split_ifs
      · rfl
      · rfl
    · exact ⟨rfl, rfl⟩

theorem exists_isUdpPort53 (bytes : List UInt8) :
    ∃ answer, isUdpPort53 bytes bytes.length = some answer := by
  have hsome := (isUdpPort53_take (le_refl bytes.length)).1
  rw [List.take_length] at hsome
  exact Option.isSome_iff_exists.mp hsome

theorem asksStage_eq {s : Snapshot} {engine : Fd} (hstate : s.state = .forward)
    (hengine : s.engine = some engine) (bytes : List UInt8) :
    asksStage s bytes = (isUdpPort53 bytes bytes.length == some true) := by
  simp [asksStage, hstate, hengine]

/-- What `handleEgress` does with a packet that is not dropped. -/
theorem handleEgress_eq {s : Snapshot} {engine : Fd} (hstate : s.state = .forward)
    (hengine : s.engine = some engine) (result : OfferResult) (bytes : List UInt8) :
    handleEgress s (some result) bytes =
      if asksStage s bytes then
        match result with
        | .taken => some .intercepted
        | .declined => some .queueFullPassThrough
        | .threw => some .forwarded
      else some .forwarded := by
  obtain ⟨port, hport⟩ := exists_isUdpPort53 bytes
  have hpasses : ¬ (s.state = .drop ∨ s.engine = none) := by simp [hstate, hengine]
  unfold handleEgress
  rw [asksStage_eq hstate hengine, hport, if_neg hpasses]
  cases port with
  | true => rfl
  | false => rfl

/-- A packet is dropped in `DROP` and without an engine, and the stage is not asked. -/
theorem handleEgress_dropped {s : Snapshot}
    (hdropped : ¬ ∃ engine, s.state = .forward ∧ s.engine = some engine)
    (stage : Option OfferResult) (bytes : List UInt8) :
    handleEgress s stage bytes = some .dropped ∧ asksStage s bytes = false := by
  have hcases : s.state = .drop ∨ s.engine = none := by
    cases hstate : s.state with
    | drop => exact Or.inl rfl
    | forward =>
      right
      cases hengine : s.engine with
      | none => rfl
      | some engine => exact absurd ⟨engine, hstate, hengine⟩ hdropped
  refine ⟨if_pos hcases, ?_⟩
  rcases hcases with hstate | hengine
  · simp [asksStage, hstate]
  · simp [asksStage, hengine]

/-- What the read of a packet does, in `FORWARD` with an engine: the stage takes it, or it is
written to the engine because the stage is not asked or declines. -/
inductive ReadMove (x : Path) (engine : Fd) (bytes : List UInt8) (y : Path) : Prop
  | taken (hport : isUdpPort53 bytes bytes.length = some true)
      (htaken : (offer x.stage bytes).2 = true) (hstage : y.stage = (offer x.stage bytes).1)
      (hreads : y.reads = ⟨.accepted x.stage.nextSerial, bytes⟩ :: x.reads)
      (houtcomes : y.outcomes = x.outcomes)
  | direct (hstage : y.stage = x.stage ∨
        (offer x.stage bytes).2 = false ∧ y.stage = (offer x.stage bytes).1)
      (hreads : y.reads = ⟨.direct x.reads.length, bytes⟩ :: x.reads)
      (houtcomes : y.outcomes = (.direct x.reads.length, .written engine bytes) :: x.outcomes)

/-- A step with a packet is the step of the mux and of the stage that is asked. -/
theorem step_egress {bytes : List UInt8} (hstep : step c x (.egress bytes) = some y) :
    ∃ s m taken, (x.mux.pump .egress).pc = .working s ∧
      PacketMux.step x.mux (DnsStageBlocking.egressPacket bytes taken) = some m ∧
      y = x.after c ⟨m, if asksStage s bytes then (offer x.stage bytes).1 else x.stage⟩
        (.egress bytes) := by
  simp only [step, inOrder, if_true] at hstep
  obtain ⟨system, hsystem, rfl⟩ := Option.map_eq_some_iff.mp hstep
  simp only [DnsStageBlocking.step, DnsStageBlocking.egressStep] at hsystem
  split at hsystem
  case h_1 s hworking =>
    refine ⟨s, ?_⟩
    split_ifs at hsystem with hasks
    · obtain ⟨m, hm, rfl⟩ := Option.map_eq_some_iff.mp hsystem
      exact ⟨m, _, hworking, hm, by rw [if_pos hasks]⟩
    · obtain ⟨m, hm, rfl⟩ := Option.map_eq_some_iff.mp hsystem
      exact ⟨m, _, hworking, hm, by rw [if_neg hasks]⟩
  case h_2 => cases hsystem

theorem readMove_step {s : Snapshot} {engine : Fd} {bytes : List UInt8}
    (hworking : (x.mux.pump .egress).pc = .working s) (hstate : s.state = .forward)
    (hengine : s.engine = some engine) (hstep : step c x (.egress bytes) = some y) :
    ReadMove x engine bytes y := by
  obtain ⟨s', m, -, hworking', -, rfl⟩ := step_egress hstep
  obtain rfl := PumpPc.working.inj (hworking.symm.trans hworking')
  have hhandle := fun result ↦ handleEgress_eq hstate hengine result bytes
  cases hasks : asksStage s bytes with
  | true =>
    cases htaken : (offer x.stage bytes).2 with
    | true =>
      have hanswer : answer x s bytes = .taken := by simp [answer, hasks, htaken]
      have hread : readOutcome x bytes = ([⟨.accepted x.stage.nextSerial, bytes⟩], []) := by
        simp [readOutcome, hworking, hhandle, hanswer, hasks]
      rw [asksStage_eq hstate hengine, beq_iff_eq] at hasks
      refine .taken hasks htaken rfl ?_ ?_
      · simp only [Path.after, hread, List.singleton_append]
      · simp only [Path.after, hread, List.nil_append]
    | false =>
      have hanswer : answer x s bytes = .declined := by simp [answer, htaken]
      have hread : readOutcome x bytes = ([⟨.direct x.reads.length, bytes⟩],
          [(.direct x.reads.length, .written engine bytes)]) := by
        simp [readOutcome, hworking, hhandle, hanswer, hasks, hengine]
      refine .direct (Or.inr ⟨htaken, rfl⟩) ?_ ?_
      · simp only [Path.after, hread, List.singleton_append]
      · simp only [Path.after, hread, List.singleton_append]
  | false =>
    have hread : readOutcome x bytes = ([⟨.direct x.reads.length, bytes⟩],
        [(.direct x.reads.length, .written engine bytes)]) := by
      simp [readOutcome, hworking, hhandle, hasks, hengine]
    refine .direct (Or.inl rfl) ?_ ?_
    · simp only [Path.after, hread, List.singleton_append]
    · simp only [Path.after, hread, List.singleton_append]

theorem ReadMove.move {engine : Fd} {bytes : List UInt8} (h : ReadMove x engine bytes y) :
    Move c x (.egress bytes) y := by
  cases h with
  | taken _ htaken hstage hreads houtcomes =>
    obtain ⟨hline, hserial⟩ := line_offer_taken htaken
    exact .accept rfl houtcomes hreads (by rw [hstage, hline]) (by rw [hstage, hserial])
  | direct hstage hreads houtcomes =>
    rcases hstage with hsame | ⟨hdeclined, hstage⟩
    · exact .direct engine rfl houtcomes hreads (by rw [hsame]) (by rw [hsame])
    · obtain ⟨hline, hserial⟩ := line_offer_declined hdeclined
      exact .direct engine rfl houtcomes hreads (by rw [hstage, hline]) (by rw [hstage, hserial])

/-- The egress pump reads a packet. -/
theorem move_egress {bytes : List UInt8} (hstep : step c x (.egress bytes) = some y) :
    Move c x (.egress bytes) y := by
  obtain ⟨s, m, -, hworking, -, hy⟩ := step_egress hstep
  by_cases hforward : ∃ engine, s.state = .forward ∧ s.engine = some engine
  · obtain ⟨engine, hstate, hengine⟩ := hforward
    exact (readMove_step hworking hstate hengine hstep).move
  · obtain ⟨hhandle, hasks⟩ := handleEgress_dropped hforward (some (answer x s bytes)) bytes
    have hread : readOutcome x bytes = ([], []) := by
      simp [readOutcome, hworking, hhandle]
    rw [hasks] at hy
    subst hy
    refine .quiet ?_ ?_ rfl rfl
    · simp only [Path.after, hread, List.nil_append]
    · simp only [Path.after, hread, List.nil_append]

/-! ### Every step -/

/-- The mux leaves the packets of the stage alone. -/
theorem move_mux {action : PacketMux.Action} (hstep : step c x (.mux action) = some y) :
    Move c x (.mux action) y := by
  unfold step at hstep
  split_ifs at hstep
  obtain ⟨system, hsystem, rfl⟩ := Option.map_eq_some_iff.mp hstep
  simp only [DnsStageBlocking.step] at hsystem
  split_ifs at hsystem
  obtain ⟨m, -, rfl⟩ := Option.map_eq_some_iff.mp hsystem
  unfold Path.after
  split
  all_goals first | exact .quiet rfl rfl rfl rfl | simp_all

/-- The receive loop, the timers and the notice leave the packets alone. -/
theorem move_other {event : ControlDDnsStage.Action}
    (hother : (∃ e, event = .rx e) ∨ (∃ timer, event = .expire timer) ∨ event = .onEngineAttached)
    (hstep : step c x (.stage event) = some y) : Move c x (.stage event) y := by
  obtain ⟨s, hs, rfl⟩ := step_stage hstep
  have hframe : s.tx = x.stage.tx ∧ s.inbound = x.stage.inbound ∧
      s.nextSerial = x.stage.nextSerial := by
    rcases hother with ⟨e, rfl⟩ | ⟨timer, rfl⟩ | rfl
    · obtain ⟨hinbound, hserial, -⟩ := queue_frame hs (Or.inl ⟨e, rfl⟩)
      exact ⟨(tx_frame hs (by simp)).1, hinbound, hserial⟩
    · obtain ⟨hinbound, hserial, -⟩ := queue_frame hs (Or.inr ⟨timer, rfl⟩)
      exact ⟨(tx_frame hs (by simp)).1, hinbound, hserial⟩
    · obtain rfl := Option.some.inj hs
      exact ⟨rfl, rfl, rfl⟩
  obtain ⟨htx, hinbound, hserial⟩ := hframe
  rcases hother with ⟨e, rfl⟩ | ⟨timer, rfl⟩ | rfl
  · exact .quiet rfl rfl (line_of_eq htx hinbound) hserial
  · exact .quiet rfl rfl (line_of_eq htx hinbound) hserial
  · exact .quiet rfl rfl (line_of_eq htx hinbound) hserial

/-- What a step does to the packets that are under way. -/
theorem move_step (hstep : step c x a = some y) : Move c x a y := by
  cases a with
  | mux action => exact move_mux hstep
  | egress bytes => exact move_egress hstep
  | stage event =>
    cases event with
    | offer raw =>
      simp [step, inOrder, DnsStageBlocking.step, DnsStageBlocking.isOffer] at hstep
    | tx event => exact move_tx hstep
    | rx event => exact move_other (Or.inl ⟨event, rfl⟩) hstep
    | expire timer => exact move_other (Or.inr (Or.inl ⟨timer, rfl⟩)) hstep
    | stop => exact move_stop hstep
    | onEngineAttached => exact move_other (Or.inr (Or.inr rfl)) hstep

end WindscribeVpn.Tunnel.EgressFates
