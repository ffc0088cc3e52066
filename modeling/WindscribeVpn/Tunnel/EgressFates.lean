import WindscribeVpn.Tunnel.EgressRecord
import Mathlib.Tactic.IntervalCases

/-!
# The fate of an egress packet

`EgressSound` is what the mux and the DNS stage promise of every packet that the egress pump reads
in `FORWARD` with an engine, while the engine stays and the stage runs: it has at most one outcome,
and after enough steps of the transmit loop it has one. It was written to the engine with unchanged
bytes, or its DNS payload was sent to the resolver with another transaction id, or it was dropped
because the table was full or the send failed. Of the queries under windscribe.com, at most one for
each engine attach and one for the start skip the resolver.

The promise has two parameters: `stays` says what it means that the engine stays, and `counted`
which packets the last sentence counts.

`Tidy` is the invariant of every run. `Kept` is the invariant of one packet: it waits in the stage
with its bytes and without an outcome, or it has one outcome and does not come back. `kept_step` is
its step lemma, and `kept_of_read` says that a packet is kept from the read on.
-/

set_option autoImplicit false
set_option relaxedAutoImplicit false

namespace WindscribeVpn.Tunnel.EgressFates

open Foundations.Runs PacketMux ControlDDnsStage
open DnsStageBlocking (asksStage)

/-! ### The promise -/

/-- An unfragmented UDP datagram in an IP packet, by the bytes of the two headers. -/
inductive UdpDatagram (raw : List UInt8) (port : ℕ) (payload : List UInt8) : Prop
  | v4 {words flags high low : ℕ} (hwords : 5 ≤ words ∧ words < 16)
      (hversion : byteAt raw 0 = some (64 + words)) (hflags : byteAt raw 6 = some (64 * flags))
      (hoffset : byteAt raw 7 = some 0) (hprotocol : byteAt raw 9 = some 17)
      (hhigh : byteAt raw (words * 4 + 2) = some high)
      (hlow : byteAt raw (words * 4 + 3) = some low) (hport : port = 256 * high + low)
      (hpayload : payload <+: raw.drop (words * 4 + 8))
  | v6 {trafficClass high low : ℕ} (hclass : trafficClass < 16)
      (hversion : byteAt raw 0 = some (96 + trafficClass)) (hnext : byteAt raw 6 = some 17)
      (hhigh : byteAt raw 42 = some high) (hlow : byteAt raw 43 = some low)
      (hport : port = 256 * high + low) (hpayload : payload <+: raw.drop 48)

/-- pcap4j yields a UDP payload only for an unfragmented UDP datagram. -/
def UdpOnly (c : Codec) : Prop :=
  ∀ raw ip udp payload, c.newPacket raw = some ip → ip.udp = some udp →
    udp.payload = some payload → UdpDatagram raw udp.dstPort payload

/-- The ways in which a packet may end. -/
inductive Allowed (engine : Fd) (bytes : List UInt8) : Outcome → Prop
  | written : Allowed engine bytes (.written engine bytes)
  | sent {dns : List UInt8} {first second : UInt8} (hdatagram : UdpDatagram bytes 53 dns)
      (hlength : 2 ≤ dns.length) : Allowed engine bytes (.sent (first :: second :: dns.drop 2))
  | overLimit {inFlight : ℕ} (hlimit : maxPending ≤ inFlight) :
    Allowed engine bytes (.overLimit inFlight)
  | sendFailed : Allowed engine bytes .sendFailed

/-- The outcomes of a packet. -/
def Path.fates (x : Path) (p : Packet) : List Outcome :=
  (x.outcomes.filter fun e ↦ e.1 = p).map Prod.snd

/-- The stage has the packet and has not ended it. -/
def Waiting (x : Path) (p : Packet) : Prop := ∃ serial ∈ line x.stage, p = .accepted serial

/-- The packet has exactly one outcome, and that is an allowed one. -/
def Settled (engine : Fd) (bytes : List UInt8) (p : Packet) (x : Path) : Prop :=
  ∃ outcome, x.fates p = [outcome] ∧ Allowed engine bytes outcome

/-- The egress pump is at its read, in `FORWARD` with this engine. -/
def Reads (x : Path) (engine : Fd) : Prop :=
  ∃ s, (x.mux.pump .egress).pc = .working s ∧ s.state = .forward ∧ s.engine = some engine ∧
    s.tun ≠ none

/-- A step of the transmit loop. -/
def isTransmit : Action → Bool
  | .stage (.tx _) => true
  | _ => false

/-- More steps than the transmit loop makes with one packet. -/
def roundSteps : ℕ := 65544

/-- Steps of the transmit loop after which a packet has ended. -/
def patience : ℕ := (queueDepth + 1) * roundSteps

/-- A name under windscribe.com. -/
def underWindscribe (name : String) : Bool :=
  name == "windscribe.com" || name.endsWith ".windscribe.com"

/-- A DNS query for a name under windscribe.com, in a packet to UDP port 53. -/
def asksWindscribe (c : Codec) (bytes : List UInt8) : Bool :=
  isUdpPort53 bytes bytes.length == some true &&
    (queryOf c ⟨0, bytes⟩).any fun q ↦ (questionName c q.dnsPayload).any underWindscribe

/-- The outcome of a query under windscribe.com that skipped the resolver. -/
def skips (c : Codec) (counted : Packet → Bool) (entry : Packet × Outcome) : Bool :=
  counted entry.1 &&
    match entry.2 with
    | .written _ bytes => asksWindscribe c bytes
    | _ => false

/-- The datagram of an outcome. -/
def sentDatagram : Packet × Outcome → Option Datagram
  | (.accepted serial, .sent payload) => some ⟨serial, payload⟩
  | _ => none

/-- What the egress path promises of every run. -/
structure EgressSound (c : Codec) (stays : Fd → Path → Bool) (counted : Packet → Bool)
    (start : Path) : Prop where
  /-- The classifier reads only below the length. -/
  bounds : ∀ (p : List UInt8) (len : ℕ), len ≤ p.length →
    (isUdpPort53 (p.take len) len).isSome = true ∧
      isUdpPort53 p len = isUdpPort53 (p.take len) len
  /-- A packet waits in the stage without an outcome, and the transmit loop can go on, or it has
  exactly one outcome. After enough steps of the transmit loop it has one. -/
  fate : ∀ x engine bytes, Reaches (step c) Always start x → Reads x engine → bytes ≠ [] →
    stays engine x = true →
    ∃ y packet, step c x (.egress bytes) = some y ∧ y.reads = ⟨packet, bytes⟩ :: x.reads ∧
      (∀ r ∈ x.reads, r.packet ≠ packet) ∧
      ∀ actions z, run (guarded (step c) fun x _ ↦ stays engine x = true) y actions = some z →
        (Waiting z packet ∧ z.fates packet = [] ∧
            (stays engine z = true → ∃ event, (step c z (.stage (.tx event))).isSome = true) ∨
          Settled engine bytes packet z) ∧
        (patience ≤ actions.countP isTransmit → Settled engine bytes packet z)
  /-- One query under windscribe.com skips the resolver for each engine attach, and one for the
  start. -/
  bypass : ∀ x, Reaches (step c) Always start x →
    x.outcomes.countP (skips c counted) ≤ x.attaches + 1
  /-- The resolver is sent what the record says. -/
  resolver : ∀ x, Reaches (step c) Always start x →
    x.stage.history.sent = x.outcomes.filterMap sentDatagram

/-- The engine is attached and the stage runs. -/
def attached (engine : Fd) (x : Path) : Bool :=
  x.mux.snapshot.engine == some engine && x.stage.running

/-- The engine is attached, the mux is in `FORWARD` and the stage runs. -/
def forwarding (engine : Fd) (x : Path) : Bool :=
  attached engine x && decide (x.mux.snapshot.state = .forward)

/-- A packet that the stage took. -/
def Packet.isAccepted : Packet → Bool
  | .accepted _ => true
  | .direct _ => false

/-! ### Datagrams -/

theorem header_byte : ∀ words < 16, (64 + words) &&& 0x0F = words ∧
    ((64 + words) &&& 0xF0) >>> 4 = 4 ∧ ((96 + words) &&& 0xF0) >>> 4 = 6 := by decide

theorem byteAt_lt {p : List UInt8} {i n : ℕ} (h : byteAt p i = some n) : n < 256 := by
  rw [byteAt, Option.map_eq_some_iff] at h
  obtain ⟨byte, -, rfl⟩ := h
  exact UInt8.toNat_lt byte

theorem port_of_bytes {high low : ℕ} (hlow : low < 256) :
    (high <<< 8) ||| low = 256 * high + low := by
  rw [← Nat.shiftLeft_add_eq_or_of_lt hlow, Nat.shiftLeft_eq, Nat.mul_comm]

/-- The classifier reads the destination port of a datagram. -/
theorem UdpDatagram.port_eq {raw payload : List UInt8} {port : ℕ}
    (h : UdpDatagram raw port payload) (hport : isUdpPort53 raw raw.length = some true) :
    port = 53 := by
  unfold isUdpPort53 at hport
  by_cases hshort : raw.length < 8
  · rw [if_pos hshort] at hport
    cases hport
  · rw [if_neg hshort] at hport
    cases h with
    | v4 hwords hversion _ _ hprotocol hhigh hlow hsame _ =>
      obtain ⟨hihl, hfour, -⟩ := header_byte _ hwords.2
      simp only [hversion, Option.bind_eq_bind, Option.bind_some, hfour, if_true, hihl, hprotocol,
        hhigh, hlow, port_of_bytes (byteAt_lt hlow)] at hport
      grind
    | v6 hclass hversion hnext hhigh hlow hsame _ =>
      obtain ⟨-, -, hsix⟩ := header_byte _ hclass
      simp only [hversion, Option.bind_eq_bind, Option.bind_some, hsix, hnext, hhigh, hlow,
        port_of_bytes (byteAt_lt hlow)] at hport
      grind

/-! ### The invariant of every run -/

/-- The packet is one of the record. -/
def Known (x : Path) : Packet → Prop
  | .accepted serial => serial < x.stage.nextSerial
  | .direct number => number < x.reads.length

/-- What holds in every run: serials are handed out in order, and a stage that runs has not begun to
stop. -/
structure Tidy (c : Codec) (x : Path) : Prop where
  ok : StageOk c x.stage
  sorted : (line x.stage).Pairwise (· < ·)
  waiting : ∀ serial ∈ line x.stage, serial < x.stage.nextSerial
  reads : ∀ r ∈ x.reads, Known x r.packet
  outcomes : ∀ e ∈ x.outcomes, Known x e.1
  room : x.stage.inbound.length ≤ queueDepth
  live : x.stage.running = true → x.stage.stop = .live ∧ x.stage.tx ≠ .exited

variable {c : Codec} {x y : Path} {a : Action}

theorem after_system (x : Path) (system : DnsStageBlocking.System) (a : Action) :
    (x.after c system a).system = system := by
  unfold Path.after
  split <;> rfl

/-- The stage stays or makes a step of its own, and the transmit loop only when it is its turn. -/
theorem stage_step (hstep : step c x a = some y) :
    y.stage = x.stage ∨
      ∃ event, ControlDDnsStage.step c x.stage event = some y.stage ∧
        ∀ e, event = .tx e → a = .stage (.tx e) := by
  unfold step at hstep
  split_ifs at hstep
  obtain ⟨system, hsystem, rfl⟩ := Option.map_eq_some_iff.mp hstep
  rw [Path.stage, after_system]
  cases a with
  | mux action =>
    left
    simp only [DnsStageBlocking.step] at hsystem
    split_ifs at hsystem
    obtain ⟨m, -, rfl⟩ := Option.map_eq_some_iff.mp hsystem
    rfl
  | egress bytes =>
    simp only [DnsStageBlocking.step, DnsStageBlocking.egressStep] at hsystem
    split at hsystem
    case h_1 s hworking =>
      split_ifs at hsystem with hasks
      · obtain ⟨m, -, rfl⟩ := Option.map_eq_some_iff.mp hsystem
        exact Or.inr ⟨.offer bytes, rfl, fun e he ↦ by cases he⟩
      · obtain ⟨m, -, rfl⟩ := Option.map_eq_some_iff.mp hsystem
        exact Or.inl rfl
    case h_2 => cases hsystem
  | stage event =>
    right
    simp only [DnsStageBlocking.step] at hsystem
    split_ifs at hsystem
    obtain ⟨s, hs, rfl⟩ := Option.map_eq_some_iff.mp hsystem
    exact ⟨event, hs, fun e he ↦ by rw [he]⟩

/-- A stage that runs has not begun to stop. -/
theorem live_step {s s' : Stage} {event : ControlDDnsStage.Action}
    (h : s.running = true → s.stop = .live ∧ s.tx ≠ .exited)
    (hstep : ControlDDnsStage.step c s event = some s') :
    s'.running = true → s'.stop = .live ∧ s'.tx ≠ .exited := by
  cases event with
  | offer raw => grind [ControlDDnsStage.step, offer]
  | tx event =>
    cases txStep_move hstep with
    | exit _ hrunning => exact fun hrunning' ↦ absurd hrunning' (ne_true_of_eq_false hrunning)
    | interrupt _ hstop => exact fun hrunning ↦ absurd (h hrunning).1 hstop
    | fail =>
      intro hrunning
      exact ⟨by simpa using (h (by simpa using hrunning)).1, TxPc.noConfusion⟩
    | poll | idle | take | pass | bypass | check | overLimit | allocate | collide | choose
    | exhaust | put | schedule | send | sendFails =>
      exact fun hrunning ↦ ⟨(h hrunning).1, TxPc.noConfusion⟩
  | rx event =>
    cases rxStep_move hstep with
    | closed | ioError => exact Bool.noConfusion
    | answer | mismatch => simpa using h
    | exit | listen | short | unknown | unbuilt | write | receive | timeout | replyFails => exact h
  | expire timer => grind [ControlDDnsStage.step, expire]
  | stop => grind [ControlDDnsStage.step, stopStep]
  | onEngineAttached => grind [ControlDDnsStage.step]

/-- The queue has `QUEUE_DEPTH` places. -/
theorem room_step {s s' : Stage} {event : ControlDDnsStage.Action}
    (h : s.inbound.length ≤ queueDepth) (hstep : ControlDDnsStage.step c s event = some s') :
    s'.inbound.length ≤ queueDepth := by
  cases event with
  | offer raw => grind [ControlDDnsStage.step, offer]
  | tx event =>
    cases txStep_move hstep with
    | take _ hinbound =>
      rw [hinbound] at h
      exact Nat.le_of_succ_le h
    | fail => simpa using h
    | poll | exit | idle | pass | bypass | check | overLimit | allocate | collide | choose
    | exhaust | put | schedule | send | sendFails | interrupt => exact h
  | rx event => rwa [(queue_frame hstep (Or.inl ⟨event, rfl⟩)).1]
  | expire timer => rwa [(queue_frame hstep (Or.inr ⟨timer, rfl⟩)).1]
  | stop => grind [ControlDDnsStage.step, stopStep]
  | onEngineAttached => grind [ControlDDnsStage.step]

/-- A packet of the record stays one. -/
theorem Move.known {p : Packet} (hmove : Move c x a y) (h : Known x p) : Known y p := by
  have hmono : x.stage.nextSerial ≤ y.stage.nextSerial ∧ x.reads.length ≤ y.reads.length := by
    cases hmove with
    | quiet _ hreads _ hserial => exact ⟨hserial.ge, by rw [hreads]⟩
    | accept _ _ hreads _ hserial =>
      exact ⟨by omega, by rw [hreads, List.length_cons]; exact Nat.le_succ _⟩
    | direct _ _ _ hreads _ hserial =>
      exact ⟨hserial.ge, by rw [hreads, List.length_cons]; exact Nat.le_succ _⟩
    | finish _ _ hreads _ hserial => exact ⟨hserial.ge, by rw [hreads]⟩
    | clear _ _ hreads _ hserial => exact ⟨hserial.ge, by rw [hreads]⟩
  cases p with
  | accepted serial => exact lt_of_lt_of_le h hmono.1
  | direct number => exact lt_of_lt_of_le h hmono.2

/-- The packets that wait keep their order, and the record knows them. -/
theorem Move.line_ok (hmove : Move c x a y) (hsorted : (line x.stage).Pairwise (· < ·))
    (hwaiting : ∀ serial ∈ line x.stage, serial < x.stage.nextSerial) :
    (line y.stage).Pairwise (· < ·) ∧ ∀ serial ∈ line y.stage, serial < y.stage.nextSerial := by
  have hshrink : (line y.stage).Sublist (line x.stage) →
      y.stage.nextSerial = x.stage.nextSerial →
      (line y.stage).Pairwise (· < ·) ∧ ∀ serial ∈ line y.stage, serial < y.stage.nextSerial := by
    intro hsub hserial
    refine ⟨hsorted.sublist hsub, fun serial hmem ↦ ?_⟩
    rw [hserial]
    exact hwaiting serial (hsub.subset hmem)
  cases hmove with
  | quiet _ _ hline hserial => exact hshrink (by rw [hline]) hserial
  | accept _ _ _ hline hserial =>
    rw [hline, hserial, List.pairwise_append]
    refine ⟨⟨hsorted, List.pairwise_singleton _ _, fun serial hmem next hnext ↦ ?_⟩, ?_⟩
    · rw [List.mem_singleton.mp hnext]
      exact hwaiting serial hmem
    · intro serial hmem
      rcases List.mem_append.mp hmem with hold | hnew
      · exact Nat.lt_succ_of_lt (hwaiting serial hold)
      · rw [List.mem_singleton.mp hnew]
        exact Nat.lt_succ_self _
  | direct _ _ _ _ hline hserial => exact hshrink (by rw [hline]) hserial
  | finish _ _ _ hline hserial =>
    exact hshrink (by rw [hline]; exact List.sublist_cons_self _ _) hserial
  | clear _ _ _ hline hserial => exact hshrink hline hserial

/-- What a step adds to the record is known after it. -/
theorem Move.record_ok (hmove : Move c x a y)
    (hwaiting : ∀ serial ∈ line x.stage, serial < x.stage.nextSerial)
    (hreads : ∀ r ∈ x.reads, Known x r.packet) (houtcomes : ∀ e ∈ x.outcomes, Known x e.1) :
    (∀ r ∈ y.reads, Known y r.packet) ∧ ∀ e ∈ y.outcomes, Known y e.1 := by
  have hknown : ∀ p, Known x p → Known y p := fun p h ↦ hmove.known h
  cases hmove with
  | quiet hsame hsame' _ _ =>
    rw [hsame, hsame']
    exact ⟨fun r hr ↦ hknown _ (hreads r hr), fun e he ↦ hknown _ (houtcomes e he)⟩
  | accept _ hsame hread _ hserial =>
    rw [hsame, hread]
    refine ⟨List.forall_mem_cons.mpr ⟨?_, fun r hr ↦ hknown _ (hreads r hr)⟩,
      fun e he ↦ hknown _ (houtcomes e he)⟩
    simp only [Known, hserial]
    exact Nat.lt_succ_self _
  | direct _ _ houtcome hread _ _ =>
    have hnew : Known y (.direct x.reads.length) := by
      simp only [Known, hread, List.length_cons]
      exact Nat.lt_succ_self _
    rw [houtcome, hread]
    exact ⟨List.forall_mem_cons.mpr ⟨hnew, fun r hr ↦ hknown _ (hreads r hr)⟩,
      List.forall_mem_cons.mpr ⟨hnew, fun e he ↦ hknown _ (houtcomes e he)⟩⟩
  | @finish serial outcome _ houtcome hread hline _ =>
    have hold : Known x (.accepted serial) :=
      hwaiting serial (by rw [hline]; exact List.mem_cons_self)
    rw [houtcome, hread]
    exact ⟨fun r hr ↦ hknown _ (hreads r hr),
      List.forall_mem_cons.mpr ⟨hknown _ hold, fun e he ↦ hknown _ (houtcomes e he)⟩⟩
  | clear _ hsame hsame' _ _ =>
    rw [hsame, hsame']
    exact ⟨fun r hr ↦ hknown _ (hreads r hr), fun e he ↦ hknown _ (houtcomes e he)⟩

theorem tidy_step (h : Tidy c x) (hstep : step c x a = some y) : Tidy c y := by
  have hmove := move_step hstep
  obtain ⟨hsorted, hwaiting⟩ := hmove.line_ok h.sorted h.waiting
  obtain ⟨hreads, houtcomes⟩ := hmove.record_ok h.waiting h.reads h.outcomes
  rcases stage_step hstep with hsame | ⟨event, hevent, -⟩
  · refine ⟨?_, hsorted, hwaiting, hreads, houtcomes, ?_, ?_⟩
    · rw [hsame]
      exact h.ok
    · rw [hsame]
      exact h.room
    · rw [hsame]
      exact h.live
  · exact ⟨stageOk_step h.ok hevent, hsorted, hwaiting, hreads, houtcomes,
      room_step h.room hevent, live_step h.live hevent⟩

/-! ### One packet -/

theorem fates_of_eq {p : Packet} (houtcomes : y.outcomes = x.outcomes) : y.fates p = x.fates p := by
  rw [Path.fates, Path.fates, houtcomes]

theorem fates_cons_self {p : Packet} {outcome : Outcome}
    (houtcomes : y.outcomes = (p, outcome) :: x.outcomes) : y.fates p = outcome :: x.fates p := by
  rw [Path.fates, houtcomes, List.filter_cons_of_pos (by simp), List.map_cons]
  rfl

theorem fates_cons_ne {p other : Packet} {outcome : Outcome} (hne : other ≠ p)
    (houtcomes : y.outcomes = (other, outcome) :: x.outcomes) : y.fates p = x.fates p := by
  rw [Path.fates, houtcomes, List.filter_cons_of_neg (by simpa using hne)]
  rfl

/-- A packet that the record does not know has no outcome. -/
theorem fates_eq_nil {p : Packet} (houtcomes : ∀ e ∈ x.outcomes, Known x e.1) (hp : ¬ Known x p) :
    x.fates p = [] := by
  rw [Path.fates, List.map_eq_nil_iff, List.filter_eq_nil_iff]
  intro e he hsame
  rw [decide_eq_true_eq] at hsame
  exact hp (hsame ▸ houtcomes e he)

/-- A serial names one packet. -/
theorem offered_unique {s : Stage} {o o' : Offered} (h : StageOk c s)
    (ho : o ∈ s.history.offered) (ho' : o' ∈ s.history.offered) (hserial : o.serial = o'.serial) :
    o = o' :=
  List.inj_on_of_nodup_map h.lineage.unique ho ho' hserial

theorem writeToEngine_of_forwarding {engine : Fd} (hforwarding : forwarding engine x = true)
    (bytes : List UInt8) : writeToEngine x.mux bytes = .written engine bytes := by
  simp only [forwarding, attached, Bool.and_eq_true, beq_iff_eq, decide_eq_true_eq] at hforwarding
  obtain ⟨⟨hengine, -⟩, hstate⟩ := hforwarding
  rw [writeToEngine, if_neg (not_not.mpr hstate), hengine]

/-- What the transmit loop sends for a query comes from the packet with its serial. -/
theorem allowed_sent {engine : Fd} {bytes : List UInt8} {q : Query} {id : ℕ} (hpcap : UdpOnly c)
    (htidy : Tidy c x) (hquery : x.stage.tx.query = some q)
    (hoffered : ⟨q.serial, bytes⟩ ∈ x.stage.history.offered)
    (hport : isUdpPort53 bytes bytes.length = some true) :
    Allowed engine bytes (.sent (writeTransactionId q.dnsPayload id)) := by
  obtain ⟨o, ho, hq⟩ := htidy.ok.lineage.query q hquery
  obtain rfl := offered_unique htidy.ok ho hoffered (queryOf_serial hq).symm
  obtain ⟨hip, hlength, udp, hudp, hpayload⟩ := queryOf_packet hq
  have hdatagram := hpcap bytes q.ip udp q.dnsPayload hip hudp hpayload
  rw [hdatagram.port_eq hport] at hdatagram
  rw [writeTransactionId, if_pos hlength]
  exact .sent hdatagram hlength

/-- The outcome of a packet that ends while the engine stays. -/
theorem allowed_of_ended {engine : Fd} {bytes : List UInt8} {serial : ℕ} {outcome : Outcome}
    (hpcap : UdpOnly c) (htidy : Tidy c x) (hforwarding : forwarding engine x = true)
    (hoffered : ⟨serial, bytes⟩ ∈ x.stage.history.offered)
    (hport : isUdpPort53 bytes bytes.length = some true) (hended : Ended c x serial outcome) :
    Allowed engine bytes outcome := by
  cases hended with
  | @passed o htx hpasses =>
    have hsame := offered_unique htidy.ok (htidy.ok.lineage.taken o htx) hoffered rfl
    rw [writeToEngine_of_forwarding hforwarding, hsame]
    exact .written
  | overLimit htx hfull => exact .overLimit hfull
  | noFreeId htx hspent =>
    -- At most `maxPending` candidates are taken, so the loop finds one of the 65536 before.
    obtain ⟨seen, hcard, hattempt, -⟩ := htidy.ok.capacity.allocating _ _ htx
    unfold maxPending at hcard
    omega
  | @sent id q htx => exact allowed_sent hpcap htidy (by rw [htx]; rfl) hoffered hport
  | sendFailed htx => exact .sendFailed

/-- A packet while the engine stays: it waits with its bytes and without an outcome, or it has ended
and does not come back. -/
inductive Kept (engine : Fd) (bytes : List UInt8) (p : Packet) (x : Path) : Prop
  | waits {serial : ℕ} (hp : p = .accepted serial) (hmem : serial ∈ line x.stage)
      (hoffered : ⟨serial, bytes⟩ ∈ x.stage.history.offered)
      (hport : isUdpPort53 bytes bytes.length = some true) (hfates : x.fates p = [])
  | ended (hknown : Known x p) (hgone : ¬ Waiting x p) (hsettled : Settled engine bytes p x)

/-- A packet that has ended stays so: what is added to the record is about another one. -/
theorem ended_step {engine : Fd} {bytes : List UInt8} {p : Packet} (hmove : Move c x a y)
    (hknown : Known x p) (hgone : ¬ Waiting x p) (hsettled : Settled engine bytes p x) :
    Known y p ∧ ¬ Waiting y p ∧ Settled engine bytes p y := by
  obtain ⟨outcome, hfates, hallowed⟩ := hsettled
  have hend : ¬ Waiting y p ∧ y.fates p = x.fates p := by
    cases hmove with
    | quiet houtcomes _ hline _ =>
      refine ⟨fun ⟨serial, hmem, hp⟩ ↦ hgone ⟨serial, hline ▸ hmem, hp⟩, fates_of_eq houtcomes⟩
    | accept _ houtcomes _ hline _ =>
      refine ⟨?_, fates_of_eq houtcomes⟩
      rintro ⟨serial, hmem, rfl⟩
      rw [hline, List.mem_append, List.mem_singleton] at hmem
      rcases hmem with hold | rfl
      · exact hgone ⟨serial, hold, rfl⟩
      · exact absurd hknown (lt_irrefl _)
    | direct _ _ houtcomes _ hline _ =>
      refine ⟨fun ⟨serial, hmem, hp⟩ ↦ hgone ⟨serial, hline ▸ hmem, hp⟩,
        fates_cons_ne ?_ houtcomes⟩
      rintro rfl
      exact absurd hknown (lt_irrefl _)
    | @finish serial' _ _ houtcomes _ hline _ =>
      refine ⟨fun ⟨serial, hmem, hp⟩ ↦ hgone ⟨serial, ?_, hp⟩, fates_cons_ne ?_ houtcomes⟩
      · rw [hline]
        exact List.mem_cons_of_mem _ hmem
      · rintro rfl
        exact hgone ⟨serial', by rw [hline]; exact List.mem_cons_self, rfl⟩
    | clear _ houtcomes _ hline _ =>
      exact ⟨fun ⟨serial, hmem, hp⟩ ↦ hgone ⟨serial, hline.subset hmem, hp⟩,
        fates_of_eq houtcomes⟩
  exact ⟨hmove.known hknown, hend.1, outcome, hend.2.trans hfates, hallowed⟩

theorem kept_step {engine : Fd} {bytes : List UInt8} {p : Packet} (hpcap : UdpOnly c)
    (htidy : Tidy c x) (hforwarding : forwarding engine x = true)
    (h : Kept engine bytes p x) (hstep : step c x a = some y) : Kept engine bytes p y := by
  have hmove := move_step hstep
  cases h with
  | ended hknown hgone hsettled =>
    obtain ⟨hknown', hgone', hsettled'⟩ := ended_step hmove hknown hgone hsettled
    exact .ended hknown' hgone' hsettled'
  | @waits serial hp hmem hoffered hport hfates =>
    subst hp
    have hoffered' : ⟨serial, bytes⟩ ∈ y.stage.history.offered := by
      rcases stage_step hstep with hsame | ⟨event, hevent, -⟩
      · rwa [hsame]
      · exact offered_mono hevent hoffered
    have hold : Known x (.accepted serial) := htidy.waiting serial hmem
    have hknown : Known y (.accepted serial) := hmove.known hold
    cases hmove with
    | quiet houtcomes _ hline _ =>
      exact .waits rfl (hline ▸ hmem) hoffered' hport ((fates_of_eq houtcomes).trans hfates)
    | accept _ houtcomes _ hline _ =>
      refine .waits rfl ?_ hoffered' hport ((fates_of_eq houtcomes).trans hfates)
      rw [hline]
      exact List.mem_append_left _ hmem
    | direct _ _ houtcomes _ hline _ =>
      exact .waits rfl (hline ▸ hmem) hoffered' hport
        ((fates_cons_ne (by simp) houtcomes).trans hfates)
    | @finish serial' outcome hended houtcomes _ hline _ =>
      have hsorted := htidy.sorted
      rw [hline] at hmem hsorted
      by_cases hsame : serial = serial'
      · subst hsame
        have hallowed := allowed_of_ended hpcap htidy hforwarding hoffered hport hended
        refine .ended hknown ?_ ⟨outcome, ?_, hallowed⟩
        · rintro ⟨other, hother, hp⟩
          obtain rfl := Packet.accepted.inj hp
          exact lt_irrefl _ ((List.pairwise_cons.mp hsorted).1 _ hother)
        · rw [fates_cons_self houtcomes, hfates]
      · have hne : Packet.accepted serial' ≠ .accepted serial :=
          fun heq ↦ hsame (Packet.accepted.inj heq).symm
        refine .waits rfl ?_ hoffered' hport ((fates_cons_ne hne houtcomes).trans hfates)
        exact (List.mem_cons.mp hmem).resolve_left hsame
    | clear hstop _ _ _ _ =>
      -- A stage that is being stopped does not run.
      simp only [forwarding, attached, Bool.and_eq_true] at hforwarding
      rw [(htidy.live hforwarding.1.2).1] at hstop
      cases hstop

/-- The pump can read a packet. -/
theorem exists_step_egress {engine : Fd} {bytes : List UInt8} (hreads : Reads x engine)
    (hbytes : bytes ≠ []) : ∃ y, step c x (.egress bytes) = some y := by
  obtain ⟨s, hworking, hstate, hengine, htun⟩ := hreads
  have hmux : ∀ taken, ∃ m,
      PacketMux.step x.mux (DnsStageBlocking.egressPacket bytes taken) = some m := by
    intro taken
    have hsource : ¬ (s.source .egress = none ∨ bytes = []) := not_or.mpr ⟨htun, hbytes⟩
    simp only [DnsStageBlocking.egressPacket, PacketMux.step, pumpStep, hworking, if_neg hsource,
      handlePacket, handleEgress_eq hstate hengine]
    cases asksStage s bytes with
    | true => cases taken <;> exact ⟨_, rfl⟩
    | false => exact ⟨_, rfl⟩
  simp only [step, inOrder, if_true, DnsStageBlocking.step, DnsStageBlocking.egressStep, hworking]
  cases asksStage s bytes with
  | true =>
    obtain ⟨m, hm⟩ := hmux (offer x.stage bytes).2
    exact ⟨_, by rw [if_pos rfl, hm]; rfl⟩
  | false =>
    obtain ⟨m, hm⟩ := hmux false
    exact ⟨_, by rw [if_neg Bool.false_ne_true, hm]; rfl⟩

theorem offered_of_taken {s : Stage} {raw : List UInt8} (htaken : (offer s raw).2 = true) :
    ⟨s.nextSerial, raw⟩ ∈ (offer s raw).1.history.offered := by
  unfold offer at htaken ⊢
  split_ifs at htaken ⊢
  exact List.mem_cons_self

/-- The packet that the pump reads is a new one, and it is kept from then on. -/
theorem kept_of_read {engine : Fd} {bytes : List UInt8} (htidy : Tidy c x)
    (hread : ReadMove x engine bytes y) :
    ∃ packet, y.reads = ⟨packet, bytes⟩ :: x.reads ∧ ¬ Known x packet ∧
      Kept engine bytes packet y := by
  cases hread with
  | taken hport htaken hstage hreads houtcomes =>
    have hnew : ¬ Known x (.accepted x.stage.nextSerial) := lt_irrefl _
    refine ⟨_, hreads, hnew, .waits rfl ?_ ?_ hport ?_⟩
    · rw [hstage, (line_offer_taken htaken).1]
      exact List.mem_append_right _ (List.mem_singleton_self _)
    · rw [hstage]
      exact offered_of_taken htaken
    · rw [fates_of_eq houtcomes]
      exact fates_eq_nil htidy.outcomes hnew
  | direct hstage hreads houtcomes =>
    have hnew : ¬ Known x (.direct x.reads.length) := lt_irrefl _
    refine ⟨_, hreads, hnew, .ended ?_ ?_ ⟨_, ?_, .written⟩⟩
    · simp only [Known, hreads, List.length_cons]
      exact Nat.lt_succ_self _
    · rintro ⟨serial, -, hp⟩
      cases hp
    · rw [fates_cons_self houtcomes, fates_eq_nil htidy.outcomes hnew]

end WindscribeVpn.Tunnel.EgressFates
