import WindscribeVpn.Tunnel.PacketMuxQuiesce
import WindscribeVpn.Tunnel.DnsStageReuse

/-!
# The DNS stage behind a blocked tunnel

`handleEgress` drops a packet when its snapshot has no engine, so that a blocked tunnel blocks DNS
too, and otherwise offers UDP/53 to the DNS stage. The stage sends from its own queue and thread.
This module joins the two: a `System` is the mux and the stage, and the egress pump's step with a
packet is the step of both.

`NoEscape` says that after a `detachEngine` that settled, and until the next `attachEngine`, the
stage sends nothing to the resolver. `not_noEscape_queued` is a run in which it does: the query was
accepted before the detachment and is still in the queue when it has settled. `noEscape_of_drained`
is the promise for every run in which the stage has nothing in hand when such a detachment returns
and the quiesce is sound.
-/

set_option autoImplicit false
set_option relaxedAutoImplicit false

namespace WindscribeVpn.Tunnel.DnsStageBlocking

open Foundations.Runs PacketMux ControlDDnsStage

/-! ### The mux and the stage together -/

/-- The mux and the DNS stage it offers queries to. -/
structure System where
  mux : Mux
  stage : Stage

/-- An action of the system. -/
inductive Action
  /-- A step of the mux other than an egress packet. -/
  | mux (action : PacketMux.Action)
  /-- The egress pump has read a packet. -/
  | egress (bytes : List UInt8)
  /-- A step of the stage other than `offer`. -/
  | stage (action : ControlDDnsStage.Action)
  deriving DecidableEq, Repr

/-- The mux action of an egress packet with the stage's answer. -/
def egressPacket (bytes : List UInt8) (taken : Bool) : PacketMux.Action :=
  .pump .egress (.packet bytes (some (if taken then .taken else .declined)))

/-- `handleEgress` asks the stage only for a UDP/53 packet that is not dropped. -/
def asksStage (s : Snapshot) (bytes : List UInt8) : Bool :=
  s.state ≠ .drop && s.engine.isSome && isUdpPort53 bytes bytes.length == some true

/-- The egress pump's step with a packet. -/
def egressStep (x : System) (bytes : List UInt8) : Option System :=
  match (x.mux.pump .egress).pc with
  | .working s =>
    if asksStage s bytes then
      let offered := offer x.stage bytes
      (PacketMux.step x.mux (egressPacket bytes offered.2)).map fun m ↦ ⟨m, offered.1⟩
    else (PacketMux.step x.mux (egressPacket bytes false)).map fun m ↦ ⟨m, x.stage⟩
  | _ => none

/-- The step of the mux in which the egress pump has read a packet. -/
def readsEgress : PacketMux.Action → Bool
  | .pump .egress (.packet _ _) => true
  | _ => false

/-- The step of the stage that the egress pump makes. -/
def isOffer : ControlDDnsStage.Action → Bool
  | .offer _ => true
  | _ => false

/-- One step of the system. -/
def step (c : Codec) (x : System) : Action → Option System
  | .mux action =>
    if readsEgress action then none
    else (PacketMux.step x.mux action).map fun m ↦ ⟨m, x.stage⟩
  | .egress bytes => egressStep x bytes
  | .stage action =>
    if isOffer action then none
    else (ControlDDnsStage.step c x.stage action).map fun s ↦ ⟨x.mux, s⟩

/-- A started mux with a started stage. -/
def System.started (tun : Fd) (mtu : ℕ) (nextFd : Fd) (counter : BitVec 32) : System :=
  ⟨Mux.started tun mtu nextFd, Stage.started counter⟩

/-! ### The promise and the condition -/

/-- The steps between a detachment and the next attachment. -/
def Detached (a : Action) : Prop := a ≠ .mux (.control .attachEngine)

instance decidableDetached (a : Action) : Decidable (Detached a) :=
  inferInstanceAs (Decidable (a ≠ _))

/-- After a `detachEngine` whose quiesce settled has returned, and until the next `attachEngine`,
the stage sends nothing to the resolver. -/
def NoEscape (c : Codec) (admits : System → Action → Prop) (start : System) : Prop :=
  ∀ x target blocked, Reaches (step c) admits start x →
    x.mux.control = .quiesced .detachEngine target true → admits x (.mux (.control .resume)) →
    step c x (.mux (.control .resume)) = some blocked →
    ∀ later, Reaches (step c) (fun y a ↦ admits y a ∧ Detached a) blocked later →
      later.stage.history.sent = blocked.stage.history.sent

/-- The transmit loop has no packet in hand that it may still send. -/
def TxPc.spent : TxPc → Bool
  | .head | .polling | .failing _ _ | .scheduling _ _ | .exited => true
  | .taken _ | .checking _ | .allocating _ _ | .putting _ _ | .sending _ _ => false

/-- The queue is empty and the transmit loop has nothing to send. -/
def Drained (s : Stage) : Prop := s.inbound = [] ∧ TxPc.spent s.tx = true

instance decidableDrained (s : Stage) : Decidable (Drained s) := inferInstanceAs (Decidable (_ ∧ _))

/-- A `detachEngine` whose quiesce settled is about to return. -/
def settledDetach : Control → Bool
  | .quiesced .detachEngine _ true => true
  | _ => false

/-- The condition on one step: the mux meets its own condition, and when a settled `detachEngine`
returns the stage is drained. -/
def Settled (x : System) : Action → Prop
  | .mux action => Genuine x.mux action ∧
    (action = .control .resume → settledDetach x.mux.control = true → Drained x.stage)
  | .egress _ | .stage _ => True

instance decidableSettled (x : System) : (a : Action) → Decidable (Settled x a)
  | .mux action => inferInstanceAs (Decidable (Genuine x.mux action ∧
      (action = .control .resume → settledDetach x.mux.control = true → Drained x.stage)))
  | .egress _ | .stage _ => inferInstanceAs (Decidable True)

/-! ### What a step of the system does to its parts -/

/-- The mux stays or makes a step of its own. -/
theorem mux_step {c : Codec} {a : Action} {x y : System} (hstep : step c x a = some y) :
    y.mux = x.mux ∨ ∃ action, PacketMux.step x.mux action = some y.mux ∧
      (Settled x a → Genuine x.mux action) ∧ (Detached a → action ≠ .control .attachEngine) := by
  cases a with
  | mux action =>
    right
    simp only [step] at hstep
    split_ifs at hstep
    obtain ⟨m, hm, rfl⟩ := Option.map_eq_some_iff.mp hstep
    exact ⟨action, hm, fun hsettled ↦ hsettled.1, fun hdetached heq ↦ hdetached (by rw [heq])⟩
  | egress bytes =>
    right
    simp only [step, egressStep] at hstep
    split at hstep
    case h_1 s hworking =>
      split_ifs at hstep
      all_goals
        obtain ⟨m, hm, rfl⟩ := Option.map_eq_some_iff.mp hstep
        exact ⟨_, hm, fun _ ↦ trivial, fun _ ↦ by simp [egressPacket]⟩
    case h_2 => cases hstep
  | stage action =>
    left
    simp only [step] at hstep
    split_ifs at hstep
    obtain ⟨s, -, rfl⟩ := Option.map_eq_some_iff.mp hstep
    rfl

/-- The stage stays, makes a step of its own other than `offer`, or is offered a packet by a pump
whose snapshot has an engine. -/
theorem stage_step {c : Codec} {a : Action} {x y : System} (hstep : step c x a = some y) :
    y.stage = x.stage ∨
      (∃ action, ControlDDnsStage.step c x.stage action = some y.stage ∧
        ∀ raw, action ≠ .offer raw) ∨
      ∃ s, (x.mux.pump .egress).pc.held = some s ∧ s.engine.isSome = true := by
  cases a with
  | mux action =>
    left
    simp only [step] at hstep
    split_ifs at hstep
    obtain ⟨m, -, rfl⟩ := Option.map_eq_some_iff.mp hstep
    rfl
  | egress bytes =>
    simp only [step, egressStep] at hstep
    split at hstep
    case h_1 s hworking =>
      split_ifs at hstep with hasks
      · refine Or.inr (Or.inr ⟨s, by rw [hworking]; rfl, ?_⟩)
        unfold asksStage at hasks
        simp only [Bool.and_eq_true] at hasks
        exact hasks.1.2
      · obtain ⟨m, -, rfl⟩ := Option.map_eq_some_iff.mp hstep
        exact Or.inl rfl
    case h_2 => cases hstep
  | stage action =>
    simp only [step] at hstep
    split_ifs at hstep with hoffer
    obtain ⟨s, hs, rfl⟩ := Option.map_eq_some_iff.mp hstep
    refine Or.inr (Or.inl ⟨action, hs, ?_⟩)
    rintro raw rfl
    exact hoffer rfl

/-! ### The window of a detached tunnel -/

/-- No snapshot of the mux has an engine, published, held or still to be published. -/
structure Unplugged (m : Mux) : Prop where
  published : m.snapshot.engine = none
  held : ∀ d s, (m.pump d).pc.held = some s → s.engine = none
  latched : ∀ call target l, m.control = .latched call target l → target.engine = none
  restored : ∀ tun mtu cur, m.control.call = some (.setTun tun mtu cur) → cur.engine = none
  attaching : m.control ≠ .attaching ∧ m.control.call ≠ some .attachEngine

theorem Unplugged.pervades {m : Mux} (h : Unplugged m) :
    Pervades (fun s ↦ s.engine = none) m :=
  ⟨h.published, h.held, h.latched, fun tun mtu cur hcall _ ↦ h.restored tun mtu cur hcall⟩

/-- The controller comes to an attachment only when it is called for one. -/
theorem attaching_controlStep {event : ControlEvent} {m m' : Mux}
    (hattaching : m.control ≠ .attaching ∧ m.control.call ≠ some .attachEngine)
    (hother : event ≠ .attachEngine) (hstep : controlStep m event = some m') :
    m'.control ≠ .attaching ∧ m'.control.call ≠ some .attachEngine := by
  cases event <;> simp only [controlStep, Mux.resume] at hstep <;>
    grind [Mux.beginQuiesce, Mux.beginDetach, Mux.closeMuxSide, Control.call]

theorem unplugged_step {a : PacketMux.Action} {m m' : Mux} (h : Unplugged m)
    (hother : a ≠ .control .attachEngine) (hstep : PacketMux.step m a = some m') :
    Unplugged m' := by
  have hboth : Pervades (fun s ↦ s.engine = none) m' ∧
      (m'.control ≠ .attaching ∧ m'.control.call ≠ some .attachEngine) := by
    cases a with
    | pump d event =>
      obtain ⟨_, _, _, hsame, _⟩ := pumpStep_move hstep
      exact ⟨pervades_pumpStep h.pervades hstep, by rw [hsame.control]; exact h.attaching⟩
    | control event =>
      have hevent : event ≠ .attachEngine := fun hsame ↦ hother (congrArg _ hsame)
      refine ⟨?_, attaching_controlStep h.attaching hevent hstep⟩
      refine pervades_controlStep h.pervades ?_ (fun _ _ _ _ ↦ h.published) ?_ hstep
      · rintro tun engine epoch mtu - (rfl | rfl)
        · rfl
        · exact h.published
      · exact fun hattaching ↦ absurd hattaching h.attaching.1
  exact ⟨hboth.1.published, hboth.1.held, hboth.1.latched,
    fun tun mtu cur hcall ↦ hboth.1.restored tun mtu cur hcall 0, hboth.2⟩

/-- Only a send reaches the resolver. -/
theorem sent_step {c : Codec} {a : ControlDDnsStage.Action} {s s' : Stage}
    (hstep : ControlDDnsStage.step c s a = some s') :
    s'.history.sent = s.history.sent ∨ ∃ id q, s.tx = .sending id q := by
  cases a with
  | offer raw => grind [ControlDDnsStage.step, offer]
  | tx event =>
    cases txStep_move hstep with
    | send htx => exact Or.inr ⟨_, _, htx⟩
    | fail => exact Or.inl (by simp)
    | poll | exit | idle | take | pass | bypass | check | overLimit | allocate | collide | choose
    | exhaust | put | schedule | sendFails | interrupt => exact Or.inl rfl
  | rx event =>
    left
    cases rxStep_move hstep with
    | answer | mismatch => simp
    | exit | listen | closed | short | unknown | unbuilt | write | receive | timeout | ioError
    | replyFails => rfl
  | expire timer => grind [ControlDDnsStage.step, expire]
  | stop => grind [ControlDDnsStage.step, stopStep]
  | onEngineAttached => grind [ControlDDnsStage.step]

/-- With an empty queue the transmit loop comes into no packet. -/
theorem spent_txStep {c : Codec} {event : TxEvent} {s s' : Stage} (hinbound : s.inbound = [])
    (hspent : TxPc.spent s.tx = true) (hstep : txStep c s event = some s') :
    s'.inbound = [] ∧ TxPc.spent s'.tx = true := by
  cases txStep_move hstep with
  | poll | exit | idle | schedule | interrupt => exact ⟨hinbound, rfl⟩
  | fail => exact ⟨by simpa using hinbound, rfl⟩
  | take _ hqueue =>
    rw [hinbound] at hqueue
    cases hqueue
  | pass htx | bypass htx | check htx | overLimit htx | allocate htx | collide htx | choose htx
  | exhaust htx | put htx | send htx | sendFails htx =>
    rw [htx] at hspent
    cases hspent

/-- A drained stage that is offered nothing sends nothing and stays drained. -/
theorem drained_step {c : Codec} {a : ControlDDnsStage.Action} {s s' : Stage} (h : Drained s)
    (hother : ∀ raw, a ≠ .offer raw) (hstep : ControlDDnsStage.step c s a = some s') :
    Drained s' ∧ s'.history.sent = s.history.sent := by
  obtain ⟨hinbound, hspent⟩ := h
  have hsent : s'.history.sent = s.history.sent := by
    rcases sent_step hstep with hsame | ⟨id, q, hsending⟩
    · exact hsame
    · rw [hsending] at hspent
      cases hspent
  refine ⟨?_, hsent⟩
  cases a with
  | offer raw => exact absurd rfl (hother raw)
  | tx event => exact spent_txStep hinbound hspent hstep
  | rx event =>
    have htx := (tx_frame hstep (by simp)).1
    have hqueue := (queue_frame hstep (Or.inl ⟨event, rfl⟩)).1
    exact ⟨hqueue.trans hinbound, by rw [htx]; exact hspent⟩
  | expire timer =>
    have htx := (tx_frame hstep (by simp)).1
    have hqueue := (queue_frame hstep (Or.inr ⟨timer, rfl⟩)).1
    exact ⟨hqueue.trans hinbound, by rw [htx]; exact hspent⟩
  | stop =>
    have htx := (tx_frame hstep (by simp)).1
    refine ⟨?_, by rw [htx]; exact hspent⟩
    simp only [ControlDDnsStage.step, stopStep] at hstep
    grind
  | onEngineAttached =>
    obtain rfl := Option.some.inj hstep
    exact ⟨hinbound, hspent⟩

/-- The mux has no engine, the stage is drained, and nothing was sent since. -/
structure Blocked (sent : List Datagram) (x : System) : Prop where
  unplugged : Unplugged x.mux
  drained : Drained x.stage
  unsent : x.stage.history.sent = sent

theorem blocked_step {c : Codec} {sent : List Datagram} {a : Action} {x y : System}
    (h : Blocked sent x) (hdetached : Detached a) (hstep : step c x a = some y) :
    Blocked sent y := by
  have hunplugged : Unplugged y.mux := by
    rcases mux_step hstep with hsame | ⟨action, haction, -, hother⟩
    · rw [hsame]
      exact h.unplugged
    · exact unplugged_step h.unplugged (hother hdetached) haction
  rcases stage_step hstep with hsame | ⟨action, haction, hother⟩ | ⟨s, hheld, hengine⟩
  · exact ⟨hunplugged, by rw [hsame]; exact h.drained, by rw [hsame]; exact h.unsent⟩
  · obtain ⟨hdrained, hsent⟩ := drained_step h.drained hother haction
    exact ⟨hunplugged, hdrained, hsent.trans h.unsent⟩
  · rw [h.unplugged.held _ s hheld] at hengine
    cases hengine

/-- The mux of a run that meets the condition keeps its invariant. -/
theorem wired_of_settled {c : Codec} {tun : Fd} {mtu : ℕ} {nextFd : Fd} {counter : BitVec 32}
    {x : System} (hreach : Reaches (step c) Settled (System.started tun mtu nextFd counter) x) :
    Wired x.mux := by
  refine hreach.invariant (fun y ↦ Wired y.mux) ?_ (wired_started tun mtu nextFd)
  intro a y z hwired hsettled hstep
  rcases mux_step hstep with hsame | ⟨action, haction, hgenuine, -⟩
  · rw [hsame]
    exact hwired
  · exact wired_step hwired (hgenuine hsettled) haction

/-- A settled `detachEngine` that returns leaves the mux without an engine. -/
theorem unplugged_of_resume {m m' : Mux} {target : Snapshot} (h : Wired m)
    (hquiesced : m.control = .quiesced .detachEngine target true)
    (hstep : PacketMux.step m (.control .resume) = some m') : Unplugged m' := by
  have hctrl := h.control_ok
  simp only [ControlOk, hquiesced] at hctrl
  obtain ⟨hsnapshot, hretires, hheld⟩ := hctrl
  have hengine : target.engine = none := hretires
  simp only [PacketMux.step, controlStep, hquiesced, Mux.resume, Option.some.injEq] at hstep
  rw [← hstep]
  refine ⟨?_, fun d s hs ↦ ?_, ?_, ?_, ?_⟩
  · simp only [Mux.closeMuxSide, hsnapshot]
    exact hengine
  · rw [hheld trivial d s hs]
    exact hengine
  · simp
  · simp [Control.call]
  · simp [Control.call]

/-- **No query escapes.** In every run whose steps meet the condition, nothing is sent to the
resolver between a settled `detachEngine` and the next `attachEngine`. -/
theorem noEscape_of_drained (c : Codec) (tun : Fd) (mtu : ℕ) (nextFd : Fd) (counter : BitVec 32) :
    NoEscape c Settled (System.started tun mtu nextFd counter) := by
  intro x target blocked hreach hquiesced hsettled hresume later hlater
  have hwired := wired_of_settled hreach
  obtain ⟨m, hm, rfl⟩ : ∃ m, PacketMux.step x.mux (.control .resume) = some m ∧
      blocked = ⟨m, x.stage⟩ := by
    simp only [step] at hresume
    split_ifs at hresume
    obtain ⟨m, hm, hblocked⟩ := Option.map_eq_some_iff.mp hresume
    exact ⟨m, hm, hblocked.symm⟩
  have hdrained : Drained x.stage := hsettled.2 rfl (by rw [hquiesced]; rfl)
  have hblocked : Blocked x.stage.history.sent later :=
    hlater.invariant (Blocked x.stage.history.sent)
      (fun _ _ _ h hadmits hstep ↦ blocked_step h hadmits.2 hstep)
      ⟨unplugged_of_resume hwired hquiesced hm, hdrained, rfl⟩
  exact hblocked.unsent

/-! ### Runs with a query -/

/-- Several steps of one pump. -/
def pumps (d : Direction) (n : ℕ) : List Action := List.replicate n (.mux (.pump d .advance))

/-- An engine is attached, both pumps are on it, and the egress pump reads a query. -/
def acceptRun : List Action :=
  List.flatten [pumps .egress 6, pumps .ingress 6,
    [.mux (.control .attachEngine), .mux (.control (.socketpair true)), .mux (.pump .egress .idle)],
    pumps .egress 5, [.mux (.pump .ingress .idle)], pumps .ingress 5, [.egress sampleRaw]]

/-- The engine is detached and both pumps acknowledge. -/
def detachRun : List Action :=
  List.flatten [[.mux (.control .detachEngine), .mux (.control .publish)], pumps .egress 5,
    [.mux (.pump .ingress .idle)], pumps .ingress 5,
    [.mux (.control .settle), .mux (.control .clear)]]

/-- The transmit loop takes a packet and sends its query. -/
def transmitRun : List Action :=
  List.flatten [List.replicate 6 (.stage (.tx .advance)), [.stage (.tx (.send true))]]

/-- A run that meets the condition: the query is sent before the engine is detached. -/
theorem noEscape_of_drained_sent :
    ∃ x blocked target,
      Reaches (step sampleCodec) Settled (System.started 7 1280 8 0) x ∧
      x.mux.control = .quiesced .detachEngine target true ∧
      step sampleCodec x (.mux (.control .resume)) = some blocked ∧
      blocked.stage.history.sent.length = 1 ∧
      ∀ later, Reaches (step sampleCodec) (fun y a ↦ Settled y a ∧ Detached a) blocked later →
        later.stage.history.sent = blocked.stage.history.sent := by
  obtain ⟨x, hreach, hcheck⟩ := exists_reaches_of_run (step sampleCodec) Settled
    (System.started 7 1280 8 0) (acceptRun ++ transmitRun ++ detachRun)
    (fun x ↦ decide (x.mux.control =
      .quiesced .detachEngine ⟨.drop, some 7, none, 3, 1280⟩ true ∧
      Settled x (.mux (.control .resume)) ∧ x.stage.history.sent.length = 1)) (by decide)
  obtain ⟨hquiesced, hsettled, hsent⟩ := of_decide_eq_true hcheck
  have hresume : ∃ blocked, step sampleCodec x (.mux (.control .resume)) = some blocked ∧
      blocked.stage = x.stage := by
    simp [step, readsEgress, PacketMux.step, controlStep, hquiesced]
  obtain ⟨blocked, hblocked, hstage⟩ := hresume
  exact ⟨x, blocked, _, hreach, hquiesced, hblocked, by rw [hstage]; exact hsent,
    noEscape_of_drained sampleCodec 7 1280 8 0 x _ blocked hreach hquiesced hsettled hblocked⟩

/-- A query that was accepted before the engine was detached is sent after the detachment has
settled and returned. -/
theorem not_noEscape_queued : ¬ NoEscape sampleCodec Always (System.started 7 1280 8 0) := by
  intro hsafe
  obtain ⟨x, hreach, hcheck⟩ := exists_reaches_of_run (step sampleCodec) Always
    (System.started 7 1280 8 0) (acceptRun ++ detachRun)
    (fun x ↦ decide (x.mux.control =
      .quiesced .detachEngine ⟨.drop, some 7, none, 3, 1280⟩ true) &&
      (step sampleCodec x (.mux (.control .resume))).any fun blocked ↦
        (run (guarded (step sampleCodec) fun y a ↦ Always y a ∧ Detached a) blocked transmitRun).any
          fun later ↦ later.stage.history.sent ≠ blocked.stage.history.sent) (by decide)
  simp only [Bool.and_eq_true, decide_eq_true_eq, Option.any_eq_true] at hcheck
  obtain ⟨hquiesced, blocked, hresume, later, hrun, hsent⟩ := hcheck
  exact hsent (hsafe x _ blocked hreach hquiesced trivial hresume later
    (reaches_of_run transmitRun hrun))

end WindscribeVpn.Tunnel.DnsStageBlocking
