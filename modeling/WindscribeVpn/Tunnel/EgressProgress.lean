import WindscribeVpn.Tunnel.EgressFates

/-!
# How long a packet waits in the DNS stage

`work` is the measure of a packet that waits: the packets that the transmit loop ends before it, and
the steps that are left for the one in its hands. Every step of the transmit loop lowers it and no
step of another party raises it while the stage runs, so a packet has ended after `patience` steps
of the loop. `fate_of_kept` says this of every run in which the mux forwards to the engine, and that
the loop can go on as long as the packet waits.
-/

set_option autoImplicit false
set_option relaxedAutoImplicit false

namespace WindscribeVpn.Tunnel.EgressFates

open Foundations.Runs PacketMux ControlDDnsStage

variable {c : Codec} {x y : Path} {a : Action}

/-! ### The steps until a packet has ended -/

/-- The packets that the transmit loop ends before this one. -/
def ahead (serial : ℕ) (s : Stage) : ℕ :=
  if inHand s.tx = some serial then 0
  else (s.inbound.map Offered.serial).idxOf serial + 1

/-- More than the steps that the transmit loop makes until it is at its poll. -/
def left : TxPc → ℕ
  | .head => 1
  | .polling | .exited => 0
  | .taken _ => 65543
  | .checking _ => 65542
  | .allocating attempt _ => 5 + (65536 - attempt)
  | .putting _ _ => 4
  | .sending _ _ => 3
  | .failing _ _ | .scheduling _ _ => 2

/-- The measure of a packet that waits. -/
def work (serial : ℕ) (s : Stage) : ℕ := ahead serial s * roundSteps + left s.tx

theorem left_lt (pc : TxPc) : left pc < roundSteps := by
  unfold roundSteps
  cases pc <;> simp only [left] <;> omega

/-- With the same packets before this one, the measure is that of the loop. -/
theorem work_lt_of_ahead {serial : ℕ} {s s' : Stage} (hahead : ahead serial s' = ahead serial s)
    (hleft : left s'.tx < left s.tx) : work serial s' < work serial s := by
  unfold work
  rw [hahead]
  exact Nat.add_lt_add_left hleft _

/-- With one packet fewer, the measure falls by a round. -/
theorem work_lt_of_ahead_succ {serial : ℕ} {s s' : Stage}
    (hahead : ahead serial s = ahead serial s' + 1) : work serial s' < work serial s := by
  have hlt := left_lt s'.tx
  unfold work
  rw [hahead, Nat.add_one_mul]
  omega

/-- A packet that has another one in the loop's hands before it waits for the queue only. -/
theorem ahead_of_finish {serial other : ℕ} {s s' : Stage} (hsorted : (line s).Pairwise (· < ·))
    (hhand : inHand s.tx = some other) (hhand' : inHand s'.tx = none)
    (hinbound : s'.inbound = s.inbound) (hmem : serial ∈ line s') :
    ahead serial s' = ahead serial s := by
  have hqueue : serial ∈ s.inbound.map Offered.serial := by
    rw [line, hhand', hinbound] at hmem
    exact hmem
  have hne : other ≠ serial := by
    rintro rfl
    rw [line, hhand] at hsorted
    exact lt_irrefl _ ((List.pairwise_cons.mp hsorted).1 _ hqueue)
  simp only [ahead, hhand, hhand', hinbound, Option.some.injEq, hne, if_false, reduceCtorEq]

theorem ahead_of_same {serial : ℕ} {s s' : Stage} (hhand : inHand s'.tx = inHand s.tx)
    (hinbound : s'.inbound = s.inbound) : ahead serial s' = ahead serial s := by
  rw [ahead, ahead, hhand, hinbound]

/-- Every step of the transmit loop lowers the measure of a packet that waits. -/
theorem work_txStep {serial : ℕ} {s s' : Stage} {event : TxEvent} (hlive : s.stop = .live)
    (hsorted : (line s).Pairwise (· < ·)) (hstep : txStep c s event = some s')
    (hmem : serial ∈ line s') : work serial s' < work serial s := by
  cases txStep_move hstep with
  | poll htx | exit htx =>
    refine work_lt_of_ahead (ahead_of_same ?_ rfl) ?_
    · simp [inHand, htx]
    · simp [left, htx]
  | idle htx hempty => simp [line, inHand, hempty] at hmem
  | @take o rest htx hinbound =>
    refine work_lt_of_ahead_succ ?_
    by_cases hsame : o.serial = serial
    · simp [ahead, inHand, htx, hinbound, hsame]
    · simp [ahead, inHand, htx, hinbound, hsame, List.idxOf_cons_ne]
  | pass htx | bypass htx | overLimit htx | send htx | sendFails htx =>
    refine work_lt_of_ahead (ahead_of_finish hsorted (by rw [htx]; rfl) rfl rfl hmem) ?_
    simp [left, htx]
  | exhaust htx =>
    refine work_lt_of_ahead (ahead_of_finish hsorted (by rw [htx]; rfl) rfl rfl hmem) ?_
    simp only [left, htx]
    omega
  | check htx hquery =>
    have hserial := queryOf_serial hquery
    refine work_lt_of_ahead (ahead_of_same ?_ rfl) ?_
    · simp [inHand, htx, hserial]
    · simp [left, htx]
  | allocate htx | put htx | schedule htx =>
    refine work_lt_of_ahead (ahead_of_same ?_ rfl) ?_
    · simp [inHand, htx]
    · simp [left, htx]
  | collide htx hmore | choose htx hmore =>
    refine work_lt_of_ahead (ahead_of_same ?_ rfl) ?_
    · simp [inHand, htx]
    · simp only [left, htx]
      omega
  | fail htx =>
    refine work_lt_of_ahead (ahead_of_same ?_ (by simp)) ?_
    · simp [inHand, htx]
    · simp [left, htx]
  | interrupt _ hstop => exact absurd hlive hstop

/-- A packet behind this one does not change its place. -/
theorem work_offer {serial : ℕ} {s : Stage} (raw : List UInt8) (hmem : serial ∈ line s) :
    work serial (offer s raw).1 = work serial s := by
  unfold offer
  split_ifs
  · rfl
  · rfl
  · simp only [work, ahead]
    by_cases hhand : inHand s.tx = some serial
    · rw [if_pos hhand, if_pos hhand]
    · have hqueue : serial ∈ s.inbound.map Offered.serial := by
        rcases List.mem_append.mp hmem with htx | hqueue
        · exact absurd (Option.mem_toList.mp htx) hhand
        · exact hqueue
      rw [if_neg hhand, if_neg hhand, List.map_append, List.idxOf_append_of_mem hqueue]

/-- The other parties leave the measure alone. -/
theorem work_other {serial : ℕ} {s s' : Stage} {event : ControlDDnsStage.Action}
    (hlive : s.stop = .live) (hmem : serial ∈ line s) (hother : ∀ e, event ≠ .tx e)
    (hstep : ControlDDnsStage.step c s event = some s') : work serial s' = work serial s := by
  have hsame : s'.inbound = s.inbound → work serial s' = work serial s := by
    intro hinbound
    have htx := (tx_frame hstep hother).1
    rw [work, work, ahead_of_same (by rw [htx]) hinbound, htx]
  cases event with
  | offer raw =>
    obtain rfl := Option.some.inj hstep
    exact work_offer raw hmem
  | tx event => exact absurd rfl (hother event)
  | rx event => exact hsame (queue_frame hstep (Or.inl ⟨event, rfl⟩)).1
  | expire timer => exact hsame (queue_frame hstep (Or.inr ⟨timer, rfl⟩)).1
  | stop =>
    refine hsame ?_
    simp only [ControlDDnsStage.step, stopStep, hlive] at hstep
    split_ifs at hstep <;> rw [← Option.some.inj hstep]
  | onEngineAttached =>
    obtain rfl := Option.some.inj hstep
    rfl

theorem stage_of_forwarding {engine : Fd} (hforwarding : forwarding engine x = true) :
    x.stage.running = true := by
  simp only [forwarding, attached, Bool.and_eq_true] at hforwarding
  exact hforwarding.1.2

/-- The measure along a run: a step of the transmit loop lowers it, no step raises it. -/
theorem work_step {engine : Fd} {serial : ℕ} (htidy : Tidy c x)
    (hforwarding : forwarding engine x = true) (hstep : step c x a = some y)
    (hx : serial ∈ line x.stage) (hy : serial ∈ line y.stage) :
    work serial y.stage + (if isTransmit a then 1 else 0) ≤ work serial x.stage := by
  obtain ⟨hlive, -⟩ := htidy.live (stage_of_forwarding hforwarding)
  by_cases htransmit : ∃ event, a = .stage (.tx event)
  · obtain ⟨event, rfl⟩ := htransmit
    obtain ⟨s, hs, rfl⟩ := step_stage hstep
    rw [Path.stage, after_system] at hy ⊢
    exact work_txStep hlive htidy.sorted hs hy
  · have hmark : isTransmit a = false := by
      cases a with
      | stage event =>
        cases event with
        | tx event => exact absurd ⟨event, rfl⟩ htransmit
        | _ => rfl
      | _ => rfl
    rw [hmark, if_neg Bool.false_ne_true, Nat.add_zero]
    rcases stage_step hstep with hsame | ⟨event, hevent, hturn⟩
    · rw [hsame]
    · have hother : ∀ e, event ≠ .tx e := fun e he ↦ htransmit ⟨e, hturn e he⟩
      exact (work_other hlive hx hother hevent).le

/-- A transmit loop that has not exited can make a step. -/
theorem exists_transmit (hexited : x.stage.tx ≠ .exited) :
    ∃ event, (step c x (.stage (.tx event))).isSome = true := by
  have hpath : ∀ event, (txStep c x.stage event).isSome = true →
      (step c x (.stage (.tx event))).isSome = true := by
    intro event hsome
    obtain ⟨s, hs⟩ := Option.isSome_iff_exists.mp hsome
    simp [step, inOrder, DnsStageBlocking.step, DnsStageBlocking.isOffer, ControlDDnsStage.step, hs]
  cases htx : x.stage.tx with
  | exited => exact absurd htx hexited
  | sending id q =>
    refine ⟨.send false, hpath _ ?_⟩
    simp [txStep, htx]
  | _ =>
    refine ⟨.advance, hpath _ ?_⟩
    simp only [txStep, txAdvance, htx]
    grind

/-- A step that is taken while the engine stays. -/
theorem guarded_eq_some {engine : Fd}
    (hstep : guarded (step c) (fun x _ ↦ forwarding engine x = true) x a = some y) :
    forwarding engine x = true ∧ step c x a = some y := by
  unfold guarded at hstep
  split_ifs at hstep with hforwarding
  exact ⟨hforwarding, hstep⟩

/-- A packet that waits has less work before it than `patience`. -/
theorem work_lt_patience {serial : ℕ} {s : Stage} (hroom : s.inbound.length ≤ queueDepth)
    (hmem : serial ∈ line s) : work serial s < patience := by
  have hahead : ahead serial s ≤ queueDepth := by
    unfold ahead
    split_ifs with hhand
    · exact Nat.zero_le _
    · have hqueue : serial ∈ s.inbound.map Offered.serial :=
        (List.mem_append.mp hmem).resolve_left fun htx ↦ hhand (Option.mem_toList.mp htx)
      have hlt := List.idxOf_lt_length_of_mem hqueue
      rw [List.length_map] at hlt
      exact le_trans hlt hroom
  have hleft := left_lt s.tx
  unfold work patience
  rw [Nat.add_one_mul]
  exact Nat.add_lt_add_of_le_of_lt (Nat.mul_le_mul_right _ hahead) hleft

/-- A packet that waits after a step has waited before it. -/
theorem waiting_of_step {engine : Fd} {bytes : List UInt8} {serial : ℕ}
    (h : Kept engine bytes (.accepted serial) x) (hstep : step c x a = some y)
    (hmem : serial ∈ line y.stage) : serial ∈ line x.stage := by
  cases h with
  | waits hp hmem' =>
    obtain rfl := Packet.accepted.inj hp
    exact hmem'
  | ended hknown hgone hsettled =>
    obtain ⟨-, hgone', -⟩ := ended_step (move_step hstep) hknown hgone hsettled
    exact absurd ⟨serial, hmem, rfl⟩ hgone'

/-- A packet that is kept waits or has ended, and after enough steps of the transmit loop it has
ended. -/
theorem fate_of_kept {engine : Fd} {bytes : List UInt8} {p : Packet} {actions : List Action}
    {z : Path} (hpcap : UdpOnly c) (htidy : Tidy c y) (hkept : Kept engine bytes p y)
    (hrun : run (guarded (step c) fun x _ ↦ forwarding engine x = true) y actions = some z) :
    (Waiting z p ∧ z.fates p = [] ∧
        (forwarding engine z = true → ∃ event, (step c z (.stage (.tx event))).isSome = true) ∨
      Settled engine bytes p z) ∧
    (patience ≤ actions.countP isTransmit → Settled engine bytes p z) := by
  have hinv : ∀ a x y, Tidy c x ∧ Kept engine bytes p x →
      guarded (step c) (fun x _ ↦ forwarding engine x = true) x a = some y →
      Tidy c y ∧ Kept engine bytes p y := by
    intro a x y h hstep
    obtain ⟨hforwarding, hstep⟩ := guarded_eq_some hstep
    exact ⟨tidy_step h.1 hstep, kept_step hpcap h.1 hforwarding h.2 hstep⟩
  have hlast : Tidy c z ∧ Kept engine bytes p z :=
    (reaches_always_of_run hrun).invariant (fun x ↦ Tidy c x ∧ Kept engine bytes p x)
      (fun a x y h _ hstep ↦ hinv a x y h hstep) ⟨htidy, hkept⟩
  cases hlast.2 with
  | ended hknown hgone hsettled => exact ⟨Or.inr hsettled, fun _ ↦ hsettled⟩
  | @waits serial hp hmem hoffered hport hfates =>
    refine ⟨Or.inl ⟨⟨serial, hmem, hp⟩, hfates, fun hforwarding ↦ ?_⟩, fun hpatience ↦ ?_⟩
    · exact exists_transmit (hlast.1.live (stage_of_forwarding hforwarding)).2
    · subst hp
      obtain ⟨hstart, hcount⟩ := countP_le_measure
        (fun x ↦ Tidy c x ∧ Kept engine bytes (.accepted serial) x)
        (fun x ↦ serial ∈ line x.stage) (fun x ↦ work serial x.stage) isTransmit hinv
        (fun a x y h hstep hy ↦ waiting_of_step h.2 (guarded_eq_some hstep).2 hy)
        (fun a x y h hstep hy ↦ work_step h.1 (guarded_eq_some hstep).1 (guarded_eq_some hstep).2
          (waiting_of_step h.2 (guarded_eq_some hstep).2 hy) hy)
        hrun ⟨htidy, hkept⟩ hmem
      have hwork := work_lt_patience htidy.room hstart
      omega

end WindscribeVpn.Tunnel.EgressFates
