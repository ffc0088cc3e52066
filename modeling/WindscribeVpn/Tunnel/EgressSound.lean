import WindscribeVpn.Tunnel.EgressProgress

/-!
# The promise of the egress path

`Accounted` says that the record agrees with the stage: what the resolver was sent, and how many
queries under windscribe.com skipped it. The flag of the bypass is used up by each of them and set
again by the notice of an attachment. `shouldBypass` reads and clears the flag in one step: a notice
in between would leave it cleared, as a notice before would.

`egressSound_of_udpOnly` is the promise for a mux that stays in `FORWARD` and for the packets that
the stage takes. `not_egressSound_attached_everyPacket` shows that both restrictions are needed.
`setTun` takes the mux through `DROP` with the engine attached, and `writeToEngine` drops a packet
that the stage passes through meanwhile. A query that finds the queue full goes to the engine,
whatever its name is.
-/

set_option autoImplicit false
set_option relaxedAutoImplicit false

namespace WindscribeVpn.Tunnel.EgressFates

open Foundations.Runs PacketMux ControlDDnsStage
open DnsStageBlocking (asksStage)

variable {c : Codec} {x y : Path} {a : Action}

/-! ### The bypass and the resolver -/

theorem queryOf_eq_none {o : Offered} (serial : ℕ) (h : queryOf c o = none) :
    queryOf c ⟨serial, o.raw⟩ = none := by
  simp only [queryOf, Option.bind_eq_bind, Option.bind_eq_none_iff] at h ⊢
  intro ip hip udp hudp payload hpayload
  have hshort := h ip hip udp hudp payload hpayload
  split_ifs at hshort ⊢
  rfl

theorem skips_of_written {p : Packet} {outcome : Outcome} (counted : Packet → Bool)
    (h : ∀ engine bytes, outcome ≠ .written engine bytes) :
    skips c counted (p, outcome) = false := by
  unfold skips
  cases outcome with
  | written engine bytes => exact absurd rfl (h engine bytes)
  | _ => exact Bool.and_false _

/-- A packet without a query is not a query under windscribe.com. -/
theorem skips_of_no_query {o : Offered} {p : Packet} (counted : Packet → Bool)
    (hnone : queryOf c o = none) : skips c counted (p, writeToEngine x.mux o.raw) = false := by
  have hasks : asksWindscribe c o.raw = false := by
    rw [asksWindscribe, queryOf_eq_none 0 hnone]
    exact Bool.and_false _
  unfold writeToEngine
  split_ifs
  · exact skips_of_written counted nofun
  · split
    · simp only [skips, hasks, Bool.and_false]
    · exact skips_of_written counted nofun

/-- The flag of the bypass, as the number of queries it lets past. -/
def allowance (s : Stage) : ℕ := if s.windscribeBypassAvailable then 1 else 0

/-- Only a packet that was just taken from the queue can skip the resolver. -/
theorem countP_skips_of_not_taken (event : TxEvent) (counted : Packet → Bool)
    (hother : ∀ o, x.stage.tx ≠ .taken o) :
    (stageOutcome c x event).countP (skips c counted) = 0 := by
  unfold stageOutcome
  split
  · rename_i o htx
    exact absurd htx (hother o)
  · split_ifs <;> simp [skips_of_written]
  · split_ifs <;> simp [skips_of_written]
  · split_ifs <;> simp [skips_of_written]
  · rfl

/-- A query that skips the resolver uses the flag up. -/
theorem allowance_txStep {event : TxEvent} {s' : Stage} (counted : Packet → Bool)
    (hstep : txStep c x.stage event = some s') :
    (stageOutcome c x event).countP (skips c counted) + allowance s' ≤ allowance x.stage := by
  cases txStep_move hstep with
  | pass htx hnone =>
    have hpasses := passes_of_no_query (s := x.stage) hnone
    simp only [stageOutcome, htx, if_pos hpasses, List.countP_singleton,
      skips_of_no_query counted hnone]
    exact (Nat.zero_add _).le
  | bypass htx hquery hbypass =>
    have havailable : x.stage.windscribeBypassAvailable = true :=
      (Bool.and_eq_true_iff.mp hbypass).1
    have hpasses := (passes_of_query hquery).trans hbypass
    simp only [stageOutcome, htx, if_pos hpasses, allowance, havailable]
    exact List.countP_le_length
  | check htx hquery hbypass =>
    have hpasses := (passes_of_query hquery).trans (Bool.eq_false_iff.mpr hbypass)
    simp only [stageOutcome, htx, hpasses, if_neg Bool.false_ne_true, List.countP_nil,
      Nat.zero_add]
    exact le_rfl
  | fail htx =>
    rw [countP_skips_of_not_taken _ counted (by simp [htx])]
    simp [allowance]
  | poll htx | exit htx | idle htx | take htx | overLimit htx | allocate htx | collide htx
  | choose htx | exhaust htx | put htx | schedule htx | send htx | sendFails htx
  | interrupt htx =>
    rw [countP_skips_of_not_taken _ counted (by simp [htx]), Nat.zero_add]
    exact le_rfl

theorem sentDatagram_writeToEngine {p : Packet} (m : Mux) (bytes : List UInt8) :
    sentDatagram (p, writeToEngine m bytes) = none := by
  unfold writeToEngine
  split_ifs
  · cases p <;> rfl
  · split <;> cases p <;> rfl

/-- Nothing is sent before the loop comes to its send. -/
theorem sent_stageOutcome_advance : (stageOutcome c x .advance).filterMap sentDatagram = [] := by
  cases htx : x.stage.tx with
  | taken o =>
    simp only [stageOutcome, htx]
    split_ifs
    · simp [sentDatagram_writeToEngine]
    · rfl
  | checking q | allocating attempt q =>
    simp only [stageOutcome, htx]
    split_ifs <;> rfl
  | head | polling | putting | sending | failing | scheduling | exited =>
    simp [stageOutcome, htx]

/-- The transmit loop sends what the record says. -/
theorem sent_txStep {event : TxEvent} {s' : Stage} (hstep : txStep c x.stage event = some s') :
    s'.history.sent = (stageOutcome c x event).filterMap sentDatagram ++ x.stage.history.sent := by
  cases txStep_move hstep with
  | send htx hsent =>
    simp only [stageOutcome, htx, if_pos hsent]
    rfl
  | sendFails htx hsent =>
    simp only [stageOutcome, htx, if_neg hsent]
    rfl
  | interrupt => simp [stageOutcome]
  | fail => simp [sent_stageOutcome_advance]
  | poll | exit | idle | take | pass | bypass | check | overLimit | allocate | collide | choose
  | exhaust | put | schedule =>
    rw [sent_stageOutcome_advance]
    rfl

/-- Only the transmit loop sends, and only it and the notice write the flag. -/
theorem other_frame {s s' : Stage} {event : ControlDDnsStage.Action}
    (hother : ∀ e, event ≠ .tx e) (hstep : ControlDDnsStage.step c s event = some s') :
    s'.history.sent = s.history.sent ∧
      (event ≠ .onEngineAttached → allowance s' = allowance s) := by
  unfold allowance
  cases event with
  | offer raw => grind [ControlDDnsStage.step, offer]
  | tx event => exact absurd rfl (hother event)
  | rx event =>
    cases rxStep_move hstep with
    | answer | mismatch => exact ⟨by simp, fun _ ↦ by simp⟩
    | exit | listen | closed | short | unknown | unbuilt | write | receive | timeout | ioError
    | replyFails => exact ⟨rfl, fun _ ↦ rfl⟩
  | expire timer => grind [ControlDDnsStage.step, expire]
  | stop => grind [ControlDDnsStage.step, stopStep]
  | onEngineAttached => grind [ControlDDnsStage.step]

/-- What the record says of the bypass and of the resolver. -/
structure Accounted (c : Codec) (x : Path) : Prop where
  bypass : x.outcomes.countP (skips c Packet.isAccepted) + allowance x.stage ≤ x.attaches + 1
  resolver : x.stage.history.sent = x.outcomes.filterMap sentDatagram

/-- A read ends only packets that the stage does not take. -/
theorem readOutcome_direct {bytes : List UInt8} {e : Packet × Outcome}
    (he : e ∈ (readOutcome x bytes).2) : ∃ number, e.1 = .direct number := by
  unfold readOutcome at he
  split at he
  · split at he
    · cases he
    · exact ⟨_, by rw [List.mem_singleton.mp he]⟩
    · exact ⟨_, by rw [List.mem_singleton.mp he]⟩
    · cases he
  · cases he

theorem accounted_egress {bytes : List UInt8} (h : Accounted c x)
    (hstep : step c x (.egress bytes) = some y) : Accounted c y := by
  obtain ⟨s, m, -, -, -, rfl⟩ := step_egress hstep
  have hcount : (readOutcome x bytes).2.countP (skips c Packet.isAccepted) = 0 := by
    rw [List.countP_eq_zero]
    intro e he
    obtain ⟨number, hnumber⟩ := readOutcome_direct he
    simp [skips, hnumber, Packet.isAccepted]
  have hdatagrams : (readOutcome x bytes).2.filterMap sentDatagram = [] := by
    rw [List.filterMap_eq_nil_iff]
    intro e he
    obtain ⟨number, hnumber⟩ := readOutcome_direct he
    obtain ⟨p, outcome⟩ := e
    subst hnumber
    rfl
  have hstage : (if asksStage s bytes then (offer x.stage bytes).1 else x.stage).history.sent =
        x.stage.history.sent ∧
      allowance (if asksStage s bytes then (offer x.stage bytes).1 else x.stage) =
        allowance x.stage := by
    split_ifs
    · have hoffer : ControlDDnsStage.step c x.stage (.offer bytes) =
          some (offer x.stage bytes).1 := rfl
      have hother : ∀ e, ControlDDnsStage.Action.offer bytes ≠ .tx e := nofun
      have hframe := other_frame hother hoffer
      exact ⟨hframe.1, hframe.2 nofun⟩
    · exact ⟨rfl, rfl⟩
  refine ⟨?_, ?_⟩
  · simp only [Path.after, List.countP_append, hcount, Nat.zero_add]
    rw [Path.stage, hstage.2]
    exact h.bypass
  · simp only [Path.after, List.filterMap_append, hdatagrams, List.nil_append]
    rw [Path.stage, hstage.1]
    exact h.resolver

theorem accounted_stage {event : ControlDDnsStage.Action} (h : Accounted c x)
    (hstep : step c x (.stage event) = some y) : Accounted c y := by
  obtain ⟨s, hs, rfl⟩ := step_stage hstep
  by_cases htransmit : ∃ e, event = .tx e
  · obtain ⟨e, rfl⟩ := htransmit
    have hallowance := allowance_txStep Packet.isAccepted hs
    have hbefore := h.bypass
    refine ⟨?_, ?_⟩
    · rw [Path.stage, after_system]
      simp only [Path.after, List.countP_append]
      omega
    · simp only [Path.after, List.filterMap_append]
      rw [← h.resolver]
      exact sent_txStep hs
  · have hframe := other_frame (fun e he ↦ htransmit ⟨e, he⟩) hs
    by_cases hattach : event = .onEngineAttached
    · subst hattach
      have hbefore := h.bypass
      have hone : allowance s ≤ 1 := by
        unfold allowance
        split_ifs
        · exact le_rfl
        · exact Nat.zero_le _
      refine ⟨?_, hframe.1.trans h.resolver⟩
      rw [Path.stage, after_system]
      simp only [Path.after]
      omega
    · have hsame : (x.after c ⟨x.mux, s⟩ (.stage event)).outcomes = x.outcomes ∧
          (x.after c ⟨x.mux, s⟩ (.stage event)).attaches = x.attaches := by
        cases event with
        | tx e => exact absurd ⟨e, rfl⟩ htransmit
        | onEngineAttached => exact absurd rfl hattach
        | _ => exact ⟨rfl, rfl⟩
      refine ⟨?_, ?_⟩
      · rw [Path.stage, after_system, hsame.1, hsame.2, hframe.2 hattach]
        exact h.bypass
      · rw [Path.stage, after_system, hsame.1, hframe.1]
        exact h.resolver

theorem accounted_step (h : Accounted c x) (hstep : step c x a = some y) : Accounted c y := by
  cases a with
  | mux action =>
    unfold step at hstep
    split_ifs at hstep
    obtain ⟨system, hsystem, rfl⟩ := Option.map_eq_some_iff.mp hstep
    simp only [DnsStageBlocking.step] at hsystem
    split_ifs at hsystem
    obtain ⟨m, -, rfl⟩ := Option.map_eq_some_iff.mp hsystem
    unfold Path.after
    split
    all_goals first | exact ⟨h.bypass, h.resolver⟩ | simp_all
  | egress bytes => exact accounted_egress h hstep
  | stage event => exact accounted_stage h hstep

/-! ### The promise holds -/

section Started

variable (tun : Fd) (mtu : ℕ) (nextFd : Fd) (counter : BitVec 32)

theorem tidy_started (c : Codec) : Tidy c (Path.started tun mtu nextFd counter) where
  ok :=
    stageOk_of_reaches
      (Relation.ReflTransGen.refl : Reaches (ControlDDnsStage.step c) Always (.started counter) _)
  sorted := List.Pairwise.nil
  waiting := nofun
  reads := nofun
  outcomes := nofun
  room := Nat.zero_le _
  live := fun _ ↦ ⟨rfl, nofun⟩

theorem accounted_started (c : Codec) : Accounted c (Path.started tun mtu nextFd counter) :=
  ⟨le_rfl, rfl⟩

theorem tidy_of_reaches {admits : Path → Action → Prop}
    (hreach : Reaches (step c) admits (Path.started tun mtu nextFd counter) x) : Tidy c x :=
  hreach.invariant (Tidy c) (fun _ _ _ h _ hstep ↦ tidy_step h hstep)
    (tidy_started tun mtu nextFd counter c)

theorem accounted_of_reaches {admits : Path → Action → Prop}
    (hreach : Reaches (step c) admits (Path.started tun mtu nextFd counter) x) : Accounted c x :=
  hreach.invariant (Accounted c) (fun _ _ _ h _ hstep ↦ accounted_step h hstep)
    (accounted_started tun mtu nextFd counter c)

end Started

/-- The sample packet is a datagram to port 53. -/
theorem udpOnly_of_sample (h : c.newPacket = sampleCodec.newPacket) : UdpOnly c := by
  intro raw ip udp payload hip hudp hpayload
  rw [h] at hip
  simp only [sampleCodec] at hip
  split_ifs at hip with hraw
  subst hraw
  obtain rfl := Option.some.inj hip
  obtain rfl := Option.some.inj hudp
  obtain rfl := Option.some.inj hpayload
  exact @UdpDatagram.v4 sampleRaw 53 [0x12, 0x34] 5 0 0 53 (by decide) rfl rfl rfl rfl rfl rfl rfl
    (by decide)

/-- **The fate of a packet.** For every packet that the egress pump reads in `FORWARD` with an
engine, while the mux forwards to that engine and the stage runs: it ends in exactly one of the
promised ways. At most one query under windscribe.com that the stage takes skips the resolver for
each engine attach, and one more for the start. -/
theorem egressSound_of_udpOnly (c : Codec) (hpcap : UdpOnly c) (tun : Fd) (mtu : ℕ) (nextFd : Fd)
    (counter : BitVec 32) :
    EgressSound c forwarding Packet.isAccepted (Path.started tun mtu nextFd counter) where
  bounds := fun _ _ hlen ↦ isUdpPort53_take hlen
  fate := by
    intro x engine bytes hreach hreads hbytes _
    have htidy := tidy_of_reaches tun mtu nextFd counter hreach
    obtain ⟨y, hstep⟩ := exists_step_egress (c := c) hreads hbytes
    obtain ⟨s, hworking, hstate, hengine, -⟩ := hreads
    obtain ⟨packet, hread, hnew, hkept⟩ :=
      kept_of_read htidy (readMove_step hworking hstate hengine hstep)
    refine ⟨y, packet, hstep, hread, fun r hr hsame ↦ hnew (hsame ▸ htidy.reads r hr), ?_⟩
    intro actions z hrun
    exact fate_of_kept hpcap (tidy_step htidy hstep) hkept hrun
  bypass := by
    intro x hreach
    exact le_trans (Nat.le_add_right _ _)
      (accounted_of_reaches tun mtu nextFd counter hreach).bypass
  resolver := fun x hreach ↦ (accounted_of_reaches tun mtu nextFd counter hreach).resolver

/-- The promise for the sample packet. -/
theorem egressSound_of_udpOnly_sample :
    EgressSound sampleCodec forwarding Packet.isAccepted (Path.started 7 1280 8 0) :=
  egressSound_of_udpOnly sampleCodec (udpOnly_of_sample rfl) 7 1280 8 0

/-! ### Runs with a held packet and with a full queue -/

/-- The libraries on the sample, and every message asks for windscribe.com. -/
def windscribeCodec : Codec where
  newPacket := sampleCodec.newPacket
  dnsMessage _ := some ["windscribe.com"]

/-- `sampleRaw` without the last bytes of its UDP header. -/
def truncatedRaw : List UInt8 := sampleRaw.take 24

/-- An engine is attached and both pumps are on it. -/
def attachRun : List Action :=
  List.flatten [DnsStageBlocking.pumps .egress 6, DnsStageBlocking.pumps .ingress 6,
    [.mux (.control .attachEngine), .stage .onEngineAttached,
      .mux (.control (.socketpair true)), .mux (.pump .egress .idle)],
    DnsStageBlocking.pumps .egress 5, [.mux (.pump .ingress .idle)],
    DnsStageBlocking.pumps .ingress 5]

/-- `setTun` publishes `DROP`, then the transmit loop passes a packet through. -/
def holdRun : List Action :=
  [.mux (.control (.setTun 9 1280)), .mux (.control .publish), .stage (.tx .advance),
    .stage (.tx .advance), .stage (.tx .advance)]

/-- The snapshot with the attached engine. -/
def attachedSnapshot : Snapshot := ⟨.forward, some 7, some 8, 2, 1280⟩

/-- A packet that the stage passes through while `setTun` is under way is dropped. -/
theorem not_egressSound_of_setTun (counted : Packet → Bool) :
    ¬ EgressSound windscribeCodec attached counted (Path.started 7 1280 8 0) := by
  intro hsound
  obtain ⟨x, hreach, hcheck⟩ := exists_reaches_of_run (step windscribeCodec) Always
    (Path.started 7 1280 8 0) attachRun
    (fun x ↦ decide ((x.mux.pump .egress).pc = .working attachedSnapshot) && attached 8 x &&
      (step windscribeCodec x (.egress truncatedRaw)).any fun y ↦
        (run (guarded (step windscribeCodec) fun x _ ↦ attached 8 x = true) y holdRun).any fun z ↦
          decide ((y.reads.head?.map fun r ↦ z.fates r.packet) = some [Outcome.held])) (by decide)
  simp only [Bool.and_eq_true, decide_eq_true_eq, Option.any_eq_true] at hcheck
  obtain ⟨⟨hworking, hattached⟩, y, hstep, z, hrun, hheld⟩ := hcheck
  obtain ⟨y', packet, hstep', hread, -, hfate⟩ := hsound.fate x 8 truncatedRaw hreach
    ⟨attachedSnapshot, hworking, rfl, rfl, fun hdropped ↦ by cases hdropped⟩ (by decide) hattached
  obtain rfl := Option.some.inj (hstep.symm.trans hstep')
  have hfates : z.fates packet = [.held] := by
    rw [hread] at hheld
    exact Option.some.inj hheld
  rcases (hfate holdRun z hrun).1 with ⟨-, hnone, -⟩ | ⟨outcome, hone, hallowed⟩
  · rw [hfates] at hnone
    cases hnone
  · obtain rfl := (List.cons.inj (hfates.symm.trans hone)).1
    cases hallowed

/-- The egress pump is at its read with the published snapshot. -/
structure Flowing (s : Snapshot) (x : Path) : Prop where
  working : (x.mux.pump .egress).pc = .working s
  epoch : (x.mux.pump .egress).localEpoch = s.epoch
  published : x.mux.snapshot = s
  running : x.mux.running = true

/-- A packet that was handled leaves the pump at the head of its loop. -/
theorem step_packet {m m' : Mux} {bytes : List UInt8} {stage : Option OfferResult}
    (hstep : PacketMux.step m (.pump .egress (.packet bytes stage)) = some m') :
    m'.pump .egress = { m.pump .egress with pc := .head } ∧ m'.snapshot = m.snapshot ∧
      m'.running = m.running := by
  simp only [PacketMux.step, pumpStep] at hstep
  split at hstep
  case h_1 s hworking =>
    split_ifs at hstep
    obtain ⟨handled, hhandled, rfl⟩ := Option.map_eq_some_iff.mp hstep
    simp only [handlePacket] at hhandled
    obtain ⟨fate, -, rfl⟩ := Option.map_eq_some_iff.mp hhandled
    cases fate <;> simp [Mux.setPump, Mux.countEgress]
  case h_2 => cases hstep

/-- From the head of its loop the pump comes back to its read. -/
theorem flowing_of_head {s : Snapshot} (hpc : (x.mux.pump .egress).pc = .head)
    (hepoch : (x.mux.pump .egress).localEpoch = s.epoch) (hpublished : x.mux.snapshot = s)
    (hrunning : x.mux.running = true) :
    ∃ y, Reaches (step c) Always x y ∧ Flowing s y ∧ y.stage = x.stage ∧
      y.outcomes = x.outcomes ∧ y.attaches = x.attaches := by
  let pump (pc : PumpPc) : Mux := x.mux.setPump .egress { x.mux.pump .egress with pc := pc }
  let path (m : Mux) : Path := { x with system := ⟨m, x.stage⟩ }
  have hrun : run (step c) x (List.replicate 3 (.mux (.pump .egress .advance))) =
      some (path (pump (.working s))) := by
    simp [List.replicate_succ, step, inOrder, DnsStageBlocking.step, DnsStageBlocking.readsEgress,
      PacketMux.step, pumpStep, advancePump, hpc, hepoch, hpublished, hrunning, Path.after,
      Mux.setPump, path, pump]
  refine ⟨_, reaches_always_of_run hrun, ⟨?_, ?_, hpublished, hrunning⟩, rfl, rfl, rfl⟩
  · simp [path, pump, Mux.setPump]
  · simp [path, pump, Mux.setPump, hepoch]

theorem length_offer (s : Stage) (raw : List UInt8) :
    (offer s raw).1.inbound.length =
      s.inbound.length + if (offer s raw).2 then 1 else 0 := by
  unfold offer
  split
  · rfl
  · split
    · rfl
    · simp

/-- The pump reads a query under windscribe.com: it goes to the queue or to the engine. -/
theorem exists_read {s : Snapshot} {engine : Fd} {bytes : List UInt8} (hflowing : Flowing s x)
    (hstate : s.state = .forward) (hengine : s.engine = some engine) (htun : s.tun ≠ none)
    (hbytes : bytes ≠ []) (hasks : asksWindscribe c bytes = true) :
    ∃ z, Reaches (step c) Always x z ∧ Flowing s z ∧ z.attaches = x.attaches ∧
      z.outcomes.countP (skips c fun _ ↦ true) + z.stage.inbound.length =
        x.outcomes.countP (skips c fun _ ↦ true) + x.stage.inbound.length + 1 := by
  obtain ⟨y, hstep⟩ := exists_step_egress (c := c)
    ⟨s, hflowing.working, hstate, hengine, htun⟩ hbytes
  have hread := readMove_step hflowing.working hstate hengine hstep
  have hplaces : y.outcomes.countP (skips c fun _ ↦ true) + y.stage.inbound.length =
      x.outcomes.countP (skips c fun _ ↦ true) + x.stage.inbound.length + 1 := by
    have hlength := length_offer x.stage bytes
    cases hread with
    | taken _ htaken hstage _ houtcomes =>
      rw [houtcomes, hstage, hlength, htaken, if_pos rfl]
      omega
    | direct hstage _ houtcomes =>
      have hskips : skips c (fun _ ↦ true)
          (.direct x.reads.length, .written engine bytes) = true := hasks
      have hqueue : y.stage.inbound.length = x.stage.inbound.length := by
        rcases hstage with hsame | ⟨hdeclined, hstage⟩
        · rw [hsame]
        · rw [hstage, hlength, hdeclined]
          rfl
      rw [houtcomes, hqueue, List.countP_cons_of_pos hskips]
      omega
  obtain ⟨s', m, taken, hworking, hm, rfl⟩ := step_egress hstep
  obtain ⟨hpump, hsnapshot, hrunning⟩ := step_packet hm
  obtain ⟨z, hreach, hflowing', hstage, houtcomes, hattaches⟩ :=
    flowing_of_head (c := c) (s := s) (x := x.after c ⟨m, _⟩ (.egress bytes))
      (by rw [Path.mux, after_system, hpump])
      (by rw [Path.mux, after_system, hpump]; exact hflowing.epoch)
      (by rw [Path.mux, after_system, hsnapshot]; exact hflowing.published)
      (by rw [Path.mux, after_system, hrunning]; exact hflowing.running)
  refine ⟨z, (Relation.ReflTransGen.single ⟨_, trivial, hstep⟩).trans hreach, hflowing',
    hattaches, ?_⟩
  rw [houtcomes, hstage]
  exact hplaces

/-- Without a step of the transmit loop, every read of the query adds to the queue or to the queries
that skip the resolver. -/
theorem exists_reads {s : Snapshot} {engine : Fd} {bytes : List UInt8} (hflowing : Flowing s x)
    (hstate : s.state = .forward) (hengine : s.engine = some engine) (htun : s.tun ≠ none)
    (hbytes : bytes ≠ []) (hasks : asksWindscribe c bytes = true) (n : ℕ) :
    ∃ z, Reaches (step c) Always x z ∧ Flowing s z ∧ z.attaches = x.attaches ∧
      z.outcomes.countP (skips c fun _ ↦ true) + z.stage.inbound.length =
        x.outcomes.countP (skips c fun _ ↦ true) + x.stage.inbound.length + n := by
  induction n with
  | zero => exact ⟨x, Relation.ReflTransGen.refl, hflowing, rfl, rfl⟩
  | succ n ih =>
    obtain ⟨y, hreach, hflowing', hattaches, hcount⟩ := ih
    obtain ⟨z, hreach', hflowing'', hattaches', hcount'⟩ :=
      exists_read hflowing' hstate hengine htun hbytes hasks
    refine ⟨z, hreach.trans hreach', hflowing'', hattaches'.trans hattaches, ?_⟩
    omega

/-- Queries under windscribe.com that find the queue full go to the engine, however many they
are. -/
theorem not_egressSound_of_full (stays : Fd → Path → Bool) :
    ¬ EgressSound windscribeCodec stays (fun _ ↦ true) (Path.started 7 1280 8 0) := by
  intro hsound
  obtain ⟨x, hreach, hcheck⟩ := exists_reaches_of_run (step windscribeCodec) Always
    (Path.started 7 1280 8 0) attachRun
    (fun x ↦ decide ((x.mux.pump .egress).pc = .working attachedSnapshot ∧
      (x.mux.pump .egress).localEpoch = 2 ∧ x.mux.snapshot = attachedSnapshot ∧
      x.mux.running = true ∧ x.attaches = 1)) (by decide)
  obtain ⟨hworking, hepoch, hpublished, hrunning, hattaches⟩ := of_decide_eq_true hcheck
  obtain ⟨y, hreach', -, hattaches', hcount⟩ :=
    exists_reads (s := attachedSnapshot) ⟨hworking, hepoch, hpublished, hrunning⟩ rfl rfl nofun
      (by decide) (show asksWindscribe windscribeCodec sampleRaw = true by decide)
      (queueDepth + 3)
  have hroom := (tidy_of_reaches 7 1280 8 0 (hreach.trans hreach')).room
  have hbound := hsound.bypass y (hreach.trans hreach')
  omega

/-- The promise fails when the engine stays attached but the mux does not stay in `FORWARD`, and it
fails when every query under windscribe.com is counted. -/
theorem not_egressSound_attached_everyPacket :
    UdpOnly windscribeCodec ∧
      ¬ EgressSound windscribeCodec attached (fun _ ↦ true) (Path.started 7 1280 8 0) ∧
      ¬ EgressSound windscribeCodec attached Packet.isAccepted (Path.started 7 1280 8 0) ∧
      ¬ EgressSound windscribeCodec forwarding (fun _ ↦ true) (Path.started 7 1280 8 0) :=
  ⟨udpOnly_of_sample rfl, not_egressSound_of_full _, not_egressSound_of_setTun _,
    not_egressSound_of_full _⟩

end WindscribeVpn.Tunnel.EgressFates
