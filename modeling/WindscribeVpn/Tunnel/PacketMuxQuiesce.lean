import WindscribeVpn.Tunnel.PacketMux

/-!
# Quiesce soundness of the packet path

`detachEngine` and `setTun` publish a snapshot without the descriptor they retire and wait in
`quiesce` until a latch of two is counted down. `QuiesceSound` is what the comments there promise:
once the wait has ended because the latch reached zero, no pump ever again holds a snapshot older
than the published one, so none holds the descriptor that is closed next.

A pump counts down whatever latch is pending when it notices a new epoch. Two things let an
acknowledgement count that does not belong to the pending quiesce. A pump that adopted an earlier
epoch may read the latch after the next quiesce has assigned it, and a pump that has already
acknowledged may fail, be restarted with local epoch `-1`, and acknowledge again.
`not_quiesceSound_stale` and `not_quiesceSound_restart` run both. `Genuine` is the condition that
excludes exactly these two and the overflow of the epoch counter, and `quiesceSound_of_genuine` is
the promise for every run whose steps all meet it.

The invariant is `Wired`. Its heart is a count: while the controller awaits the latch of a quiesce,
the latch stands at the number of pumps that have not acknowledged that quiesce. `PumpMove` says
once what a step of a pump can do and `ControlMove` what one of the controller can, and the
invariant is derived from the two.
-/

set_option autoImplicit false
set_option relaxedAutoImplicit false

namespace WindscribeVpn.Tunnel.PacketMux

open Foundations.Runs

/-! ### The promise and the condition -/

/-- The quiesce whose latch is assigned and whose `await` has not returned: its target. -/
def Control.pending : Control → Option Snapshot
  | .latched _ target _ | .awaiting _ target _ => some target
  | .idle | .awaited _ _ _ | .quiesced _ _ _ | .attaching | .stopping => none

/-- The pump has adopted a new epoch and has not counted down for it yet. -/
def PumpPc.beforeCountDown : PumpPc → Bool
  | .adopted _ | .acking _ _ => true
  | .supervise | .head | .entered | .loaded _ | .working _ | .backoff | .exited => false

/-- The snapshot whose epoch the pump has adopted when the read of the latch is next. -/
def PumpPc.adopting : PumpPc → Option Snapshot
  | .adopted s => some s
  | .supervise | .head | .entered | .loaded _ | .acking _ _ | .working _ | .backoff | .exited =>
    none

/-- The pump has adopted the target's epoch and is past the acknowledgement. -/
def Pump.Acknowledged (p : Pump) (target : Snapshot) : Prop :=
  p.localEpoch = target.epoch ∧ p.pc.beforeCountDown = false

instance decidableAcknowledged (p : Pump) (target : Snapshot) :
    Decidable (p.Acknowledged target) :=
  inferInstanceAs (Decidable (_ ∧ _))

/-- The condition on one step. A pump reads the latch of a pending quiesce only for the snapshot
that quiesce publishes, a pump that has acknowledged a pending quiesce does not fail before it ends,
and the epoch counter has not reached the largest `int` when the controller moves. -/
def Genuine (m : Mux) : Action → Prop
  | .pump d .advance =>
    ∀ target ∈ m.control.pending, ∀ s ∈ (m.pump d).pc.adopting, s.epoch = target.epoch
  | .pump d (.fail _) => ∀ target ∈ m.control.pending, ¬ (m.pump d).Acknowledged target
  | .pump _ .idle | .pump _ (.packet _ _) => True
  | .control _ => m.snapshot.epoch < intMax

instance decidableGenuine (m : Mux) : (a : Action) → Decidable (Genuine m a)
  | .pump d .advance => inferInstanceAs (Decidable
      (∀ target ∈ m.control.pending, ∀ s ∈ (m.pump d).pc.adopting, s.epoch = target.epoch))
  | .pump d (.fail _) =>
    inferInstanceAs (Decidable (∀ target ∈ m.control.pending, ¬ (m.pump d).Acknowledged target))
  | .pump _ .idle | .pump _ (.packet _ _) => inferInstanceAs (Decidable True)
  | .control _ => inferInstanceAs (Decidable (m.snapshot.epoch < intMax))

/-- What `quiesce` promises along the runs that meet a restriction. Whenever it has returned because
the latch reached zero: from then on every pump holds only snapshots at least as new as the
published one; when the caller is `detachEngine`, no pump holds the mux side it closes next, then or
later; and when the caller is `setTun`, no pump holds the TUN it retires, then or later, until some
`setTun` brings that descriptor back. -/
def QuiesceSound (admits : Mux → Action → Prop) (start : Mux) : Prop :=
  ∀ m call target, Reaches step admits start m → m.control = .quiesced call target true →
    (∀ later, Reaches step admits m later → ∀ d s, (later.pump d).pc.held = some s →
      target.epoch ≤ s.epoch) ∧
    (∀ fd, (∀ tun mtu cur, call ≠ .setTun tun mtu cur) → m.engineMuxSide = some fd →
      ∀ later, Reaches step admits m later → ∀ d s, (later.pump d).pc.held = some s →
        s.engine ≠ some fd) ∧
    (∀ tun mtu cur old, call = .setTun tun mtu cur → cur.tun = some old → tun ≠ old →
      ∀ later, Reaches step (fun x a ↦ admits x a ∧ ∀ mtu', a ≠ .control (.setTun old mtu')) m
        later → ∀ d s, (later.pump d).pc.held = some s → s.tun ≠ some old)

/-! ### What a step of a pump can do -/

/-- The moves of a pump thread: the event, the pump afterwards and the latch counted down. -/
inductive PumpMove (m : Mux) (p : Pump) : PumpEvent → Pump → Option LatchId → Prop
  | start (hpc : p.pc = .supervise) :
      PumpMove m p .advance { p with pc := .head, localEpoch := -1, buf := none } none
  | leave (hpc : p.pc = .supervise ∨ p.pc = .head) :
      PumpMove m p .advance { p with pc := .exited } none
  | enter (hpc : p.pc = .head) : PumpMove m p .advance { p with pc := .entered } none
  | load (hpc : p.pc = .entered) : PumpMove m p .advance { p with pc := .loaded m.snapshot } none
  | adopt {s : Snapshot} (hpc : p.pc = .loaded s) (hnew : s.epoch ≠ p.localEpoch) :
      PumpMove m p .advance (p.adopt s) none
  | keep {s : Snapshot} (hpc : p.pc = .loaded s) (hsame : s.epoch = p.localEpoch) :
      PumpMove m p .advance { p with pc := .working s } none
  | readLatch {s : Snapshot} (hpc : p.pc = .adopted s) :
      PumpMove m p .advance { p with pc := .acking s m.quiesceLatch } none
  | countDown {s : Snapshot} {ack : Option LatchId} (hpc : p.pc = .acking s ack) :
      PumpMove m p .advance { p with pc := .working s } ack
  | restart (hpc : p.pc = .backoff) : PumpMove m p .advance { p with pc := .supervise } none
  | iterate {s : Snapshot} {event : PumpEvent} (hpc : p.pc = .working s)
      (hevent : ∀ healthy, event ≠ .fail healthy) :
      PumpMove m p event { p with pc := .head } none
  | fail {s : Snapshot} {healthy : Bool} (hheld : p.pc.held = some s) :
      PumpMove m p (.fail healthy) (p.failed m.running healthy) none

/-- The part of the mux that no pump writes. -/
structure SameWiring (m m' : Mux) : Prop where
  snapshot : m'.snapshot = m.snapshot
  quiesceLatch : m'.quiesceLatch = m.quiesceLatch
  nextLatch : m'.nextLatch = m.nextLatch
  running : m'.running = m.running
  engineMuxSide : m'.engineMuxSide = m.engineMuxSide
  nextFd : m'.nextFd = m.nextFd
  control : m'.control = m.control

theorem sameWiring_setPump (m : Mux) (d : Direction) (p : Pump) : SameWiring m (m.setPump d p) :=
  ⟨rfl, rfl, rfl, rfl, rfl, rfl, rfl⟩

theorem handlePacket_frame {m m' : Mux} {d : Direction} {s : Snapshot} {bytes : List UInt8}
    {stage : Option OfferResult} (h : handlePacket m d s bytes stage = some m') :
    SameWiring m m' ∧ m'.latches = m.latches ∧ m'.pump = m.pump := by
  cases d with
  | ingress =>
    simp only [handlePacket, Option.some.injEq] at h
    subst h
    exact ⟨⟨rfl, rfl, rfl, rfl, rfl, rfl, rfl⟩, rfl, rfl⟩
  | egress =>
    simp only [handlePacket, Option.map_eq_some_iff] at h
    obtain ⟨fate, -, rfl⟩ := h
    cases fate <;> exact ⟨⟨rfl, rfl, rfl, rfl, rfl, rfl, rfl⟩, rfl, rfl⟩

/-- Everything a step of a pump does: it makes one `PumpMove`, counts that move's latch down, and
leaves the rest of the mux alone. -/
theorem pumpStep_move {m m' : Mux} {d : Direction} {event : PumpEvent}
    (h : pumpStep m d event = some m') :
    ∃ p' ack, PumpMove m (m.pump d) event p' ack ∧ SameWiring m m' ∧
      m'.latches = (m.countDown ack).latches ∧ m'.pump = Function.update m.pump d p' := by
  cases event with
  | advance =>
    simp only [pumpStep, advancePump] at h
    split at h
    case h_1 hpc =>
      split_ifs at h
      · obtain rfl := Option.some.inj h
        exact ⟨_, none, .start hpc, sameWiring_setPump _ _ _, rfl, rfl⟩
      · obtain rfl := Option.some.inj h
        exact ⟨_, none, .leave (Or.inl hpc), sameWiring_setPump _ _ _, rfl, rfl⟩
    case h_2 hpc =>
      split_ifs at h
      · obtain rfl := Option.some.inj h
        exact ⟨_, none, .enter hpc, sameWiring_setPump _ _ _, rfl, rfl⟩
      · obtain rfl := Option.some.inj h
        exact ⟨_, none, .leave (Or.inr hpc), sameWiring_setPump _ _ _, rfl, rfl⟩
    case h_3 hpc =>
      obtain rfl := Option.some.inj h
      exact ⟨_, none, .load hpc, sameWiring_setPump _ _ _, rfl, rfl⟩
    case h_4 s hpc =>
      split_ifs at h with hnew
      · obtain rfl := Option.some.inj h
        exact ⟨_, none, .adopt hpc hnew, sameWiring_setPump _ _ _, rfl, rfl⟩
      · obtain rfl := Option.some.inj h
        exact ⟨_, none, .keep hpc (not_not.mp hnew), sameWiring_setPump _ _ _, rfl, rfl⟩
    case h_5 s hpc =>
      obtain rfl := Option.some.inj h
      exact ⟨_, none, .readLatch hpc, sameWiring_setPump _ _ _, rfl, rfl⟩
    case h_6 s ack hpc =>
      obtain rfl := Option.some.inj h
      refine ⟨_, ack, .countDown hpc, ?_, rfl, ?_⟩
      · cases ack <;> exact ⟨rfl, rfl, rfl, rfl, rfl, rfl, rfl⟩
      · cases ack <;> rfl
    case h_7 => cases h
    case h_8 hpc =>
      obtain rfl := Option.some.inj h
      exact ⟨_, none, .restart hpc, sameWiring_setPump _ _ _, rfl, rfl⟩
    case h_9 => cases h
  | idle =>
    simp only [pumpStep] at h
    split at h
    case h_1 s hpc =>
      obtain rfl := Option.some.inj h
      exact ⟨_, none, .iterate hpc (by simp), sameWiring_setPump _ _ _, rfl, rfl⟩
    case h_2 => cases h
  | packet bytes stage =>
    simp only [pumpStep] at h
    split at h
    case h_1 s hpc =>
      split_ifs at h
      obtain ⟨handled, hhandled, rfl⟩ := Option.map_eq_some_iff.mp h
      obtain ⟨hsame, hlatches, hpump⟩ := handlePacket_frame hhandled
      refine ⟨_, none, .iterate hpc (by simp), ?_, hlatches, ?_⟩
      · exact ⟨hsame.1, hsame.2, hsame.3, hsame.4, hsame.5, hsame.6, hsame.7⟩
      · simp only [Mux.setPump, hpump]
    case h_2 => cases h
  | fail healthy =>
    simp only [pumpStep] at h
    split_ifs at h with hheld
    obtain ⟨s, hs⟩ := Option.isSome_iff_exists.mp hheld
    obtain rfl := Option.some.inj h
    exact ⟨_, none, .fail hs, sameWiring_setPump _ _ _, rfl, rfl⟩

/-! ### The invariant -/

/-- What holds between a pump and the wiring: the snapshot it holds is no newer than the published
one and is that one when the epochs agree, its local epoch is that of the snapshot it adopted, and
the latch it read belongs to the pending quiesce exactly when its snapshot does. -/
structure PumpOk (m : Mux) (p : Pump) : Prop where
  held_le : ∀ s, p.pc.held = some s → s.epoch ≤ m.snapshot.epoch
  held_eq : ∀ s, p.pc.held = some s → s.epoch = m.snapshot.epoch → s = m.snapshot
  local_le : p.localEpoch ≤ m.snapshot.epoch
  local_le_held : ∀ s, p.pc.held = some s → p.localEpoch ≤ s.epoch
  local_adopted : ∀ s, p.pc = .adopted s → p.localEpoch = s.epoch
  local_acking : ∀ s ack, p.pc = .acking s ack → p.localEpoch = s.epoch
  local_reset : p.pc = .supervise ∨ p.pc = .backoff → p.localEpoch = -1
  ack_lt : ∀ s l, p.pc = .acking s (some l) → l < m.nextLatch
  ack_latched : ∀ call target l s, m.control = .latched call target l → p.pc ≠ .acking s (some l)
  ack_awaiting : ∀ call target l s ack, m.control = .awaiting call target l →
    p.pc = .acking s ack → (ack = some l ↔ s.epoch = target.epoch)

/-- The descriptor a method retires is absent from the snapshot its quiesce publishes. -/
def Call.Retires : Call → Snapshot → Prop
  | .setTun _ _ _, target => target.tun = none
  | .detachEngine, target | .attachEngine, target => target.engine = none

/-- One for a pump that has not acknowledged a quiesce, zero for one that has. -/
def unacked (p : Pump) (target : Snapshot) : ℕ := if p.Acknowledged target then 0 else 1

/-- What holds at each point of the controller. While it awaits a latch, the latch stands at the
number of pumps that have not acknowledged. -/
def ControlOk (m : Mux) : Prop :=
  match m.control with
  | .latched call target l =>
    m.quiesceLatch = some l ∧ m.latches l = 2 ∧ target.epoch = m.snapshot.epoch + 1 ∧
      call.Retires target
  | .awaiting call target l =>
    m.quiesceLatch = some l ∧ m.snapshot = target ∧
      m.latches l = unacked (m.pump .egress) target + unacked (m.pump .ingress) target ∧
      call.Retires target
  | .awaited call target settled | .quiesced call target settled =>
    m.snapshot = target ∧ call.Retires target ∧
      (settled = true → ∀ d s, (m.pump d).pc.held = some s → s = target)
  | .idle | .attaching | .stopping => True

/-- The invariant of the mux along runs that meet `Genuine`. -/
structure Wired (m : Mux) : Prop where
  epoch_nonneg : 0 ≤ m.snapshot.epoch
  latch_lt : ∀ l, m.quiesceLatch = some l → l < m.nextLatch
  side_lt : ∀ fd, m.engineMuxSide = some fd → fd < m.nextFd
  pump_ok : ∀ d, PumpOk m (m.pump d)
  control_ok : ControlOk m

theorem wired_started (tun : Fd) (mtu : ℕ) (nextFd : Fd) : Wired (Mux.started tun mtu nextFd) where
  epoch_nonneg := by simp [Mux.started]
  latch_lt := by simp [Mux.started]
  side_lt := by simp [Mux.started]
  pump_ok := fun d ↦ by constructor <;> simp [Mux.started, Pump.fresh, PumpPc.held]
  control_ok := trivial

/-- `PumpOk` reads only the snapshot, the number of latches and the controller. -/
theorem PumpOk.of_sameWiring {m m' : Mux} {p : Pump} (h : PumpOk m p) (hsame : SameWiring m m') :
    PumpOk m' p where
  held_le := by rw [hsame.snapshot]; exact h.held_le
  held_eq := by rw [hsame.snapshot]; exact h.held_eq
  local_le := by rw [hsame.snapshot]; exact h.local_le
  local_le_held := h.local_le_held
  local_adopted := h.local_adopted
  local_acking := h.local_acking
  local_reset := h.local_reset
  ack_lt := by rw [hsame.nextLatch]; exact h.ack_lt
  ack_latched := by rw [hsame.control]; exact h.ack_latched
  ack_awaiting := by rw [hsame.control]; exact h.ack_awaiting

/-- A move to a place where no snapshot is held and no latch was read. -/
theorem pumpOk_of_free {m : Mux} {p : Pump} (hpc : p.pc.held = none)
    (hlocal : p.localEpoch ≤ m.snapshot.epoch)
    (hreset : p.pc = .supervise ∨ p.pc = .backoff → p.localEpoch = -1) : PumpOk m p := by
  constructor <;> grind [PumpPc.held]

/-- A latch read for the pending quiesce is read for its snapshot, and a pending quiesce that is not
yet published has no pump on it. -/
theorem latch_of_genuine {m : Mux} {d : Direction} {s : Snapshot} (h : Wired m)
    (hgenuine : Genuine m (.pump d .advance)) (hpc : (m.pump d).pc = .adopted s) :
    (∀ call target l, m.control = .latched call target l → False) ∧
      ∀ call target l, m.control = .awaiting call target l →
        m.quiesceLatch = some l ∧ s.epoch = target.epoch := by
  have hctrl := h.control_ok
  constructor
  · intro call target l hlatched
    simp only [ControlOk, hlatched] at hctrl
    have hepoch : s.epoch = target.epoch :=
      hgenuine target (by rw [hlatched]; rfl) s (by rw [hpc]; rfl)
    have hle := (h.pump_ok d).held_le s (by rw [hpc]; rfl)
    omega
  · intro call target l hawaiting
    simp only [ControlOk, hawaiting] at hctrl
    exact ⟨hctrl.1, hgenuine target (by rw [hawaiting]; rfl) s (by rw [hpc]; rfl)⟩

/-- A move of a pump keeps what holds between it and the wiring. -/
theorem pumpOk_move {m : Mux} {d : Direction} {event : PumpEvent} {p' : Pump}
    {ack : Option LatchId} (h : Wired m) (hgenuine : Genuine m (.pump d event))
    (hmove : PumpMove m (m.pump d) event p' ack) : PumpOk m p' := by
  have hok := h.pump_ok d
  have hnonneg := h.epoch_nonneg
  cases hmove with
  | start hpc => exact pumpOk_of_free rfl (by simp only; omega) (by simp)
  | leave hpc => exact pumpOk_of_free rfl hok.local_le (by simp)
  | enter hpc => exact pumpOk_of_free rfl hok.local_le (by simp)
  | load hpc =>
    have hlocal := hok.local_le
    constructor <;> grind [PumpPc.held]
  | adopt hpc hnew =>
    have hheld := hok.held_le _ (by rw [hpc]; rfl)
    have heq := hok.held_eq _ (by rw [hpc]; rfl)
    constructor <;> grind [PumpPc.held, Pump.adopt]
  | keep hpc hsame =>
    have hheld := hok.held_le _ (by rw [hpc]; rfl)
    have heq := hok.held_eq _ (by rw [hpc]; rfl)
    constructor <;> grind [PumpPc.held]
  | readLatch hpc =>
    have hheld := hok.held_le _ (by rw [hpc]; rfl)
    have heq := hok.held_eq _ (by rw [hpc]; rfl)
    have hlocal := hok.local_adopted _ hpc
    have hlatch := latch_of_genuine h hgenuine hpc
    have hlt := h.latch_lt
    constructor <;> grind [PumpPc.held]
  | countDown hpc =>
    have hheld := hok.held_le _ (by rw [hpc]; rfl)
    have heq := hok.held_eq _ (by rw [hpc]; rfl)
    have hlocal := hok.local_acking _ _ hpc
    constructor <;> grind [PumpPc.held]
  | restart hpc => exact pumpOk_of_free rfl hok.local_le fun _ ↦ hok.local_reset (Or.inr hpc)
  | iterate hpc _ => exact pumpOk_of_free rfl hok.local_le (by simp)
  | fail hheld =>
    refine pumpOk_of_free (Pump.failed_held _ _ _) ?_ fun _ ↦ Pump.failed_localEpoch _ _ _
    rw [Pump.failed_localEpoch]
    omega

/-- A move of a pump takes the latch of the awaited quiesce down by as much as it takes down the
number of pumps that have not acknowledged it. -/
theorem unacked_move {m : Mux} {d : Direction} {event : PumpEvent} {p' : Pump}
    {ack : Option LatchId} {call : Call} {target : Snapshot} {l : LatchId} (h : Wired m)
    (hgenuine : Genuine m (.pump d event)) (hmove : PumpMove m (m.pump d) event p' ack)
    (hawaiting : m.control = .awaiting call target l) :
    unacked p' target + (if ack = some l then 1 else 0) = unacked (m.pump d) target := by
  have hok := h.pump_ok d
  have hnonneg := h.epoch_nonneg
  have hctrl := h.control_ok
  simp only [ControlOk, hawaiting] at hctrl
  obtain ⟨-, hsnapshot, -, -⟩ := hctrl
  rw [hsnapshot] at hnonneg
  cases hmove with
  | start hpc =>
    have hreset := hok.local_reset (Or.inl hpc)
    grind [unacked, Pump.Acknowledged]
  | leave hpc => grind [unacked, Pump.Acknowledged, PumpPc.beforeCountDown]
  | enter hpc => grind [unacked, Pump.Acknowledged, PumpPc.beforeCountDown]
  | load hpc => grind [unacked, Pump.Acknowledged, PumpPc.beforeCountDown]
  | adopt hpc hnew =>
    have hle := hok.held_le _ (by rw [hpc]; rfl)
    have hlocal := hok.local_le_held _ (by rw [hpc]; rfl)
    grind [unacked, Pump.Acknowledged, PumpPc.beforeCountDown, Pump.adopt]
  | keep hpc hsame => grind [unacked, Pump.Acknowledged, PumpPc.beforeCountDown]
  | readLatch hpc => grind [unacked, Pump.Acknowledged, PumpPc.beforeCountDown]
  | countDown hpc =>
    have hiff := hok.ack_awaiting _ _ _ _ _ hawaiting hpc
    have hlocal := hok.local_acking _ _ hpc
    grind [unacked, Pump.Acknowledged, PumpPc.beforeCountDown]
  | restart hpc => grind [unacked, Pump.Acknowledged, PumpPc.beforeCountDown]
  | iterate hpc _ => grind [unacked, Pump.Acknowledged, PumpPc.beforeCountDown]
  | fail hheld =>
    have hnot := hgenuine target (by rw [hawaiting]; rfl)
    grind [unacked, Pump.Acknowledged, Pump.failed_localEpoch]

/-- A pump after a move holds what it held before, or the published snapshot. -/
theorem held_move {m : Mux} {p p' : Pump} {event : PumpEvent} {ack : Option LatchId} {s : Snapshot}
    (hmove : PumpMove m p event p' ack) (hheld : p'.pc.held = some s) :
    p.pc.held = some s ∨ s = m.snapshot := by
  cases hmove with
  | load hpc => exact Or.inr (Option.some.inj hheld).symm
  | adopt hpc _ => exact Or.inl (by rw [hpc]; exact hheld)
  | keep hpc _ => exact Or.inl (by rw [hpc]; exact hheld)
  | readLatch hpc => exact Or.inl (by rw [hpc]; exact hheld)
  | countDown hpc => exact Or.inl (by rw [hpc]; exact hheld)
  | fail _ =>
    rw [Pump.failed_held] at hheld
    cases hheld
  | start _ | leave _ | enter _ | restart _ | iterate _ _ => cases hheld

/-- The awaited latch and the acknowledgements move together when a pump moves. -/
theorem latch_count_pumpStep {m m' : Mux} {d : Direction} {event : PumpEvent} {p' : Pump}
    {ack : Option LatchId} {call : Call} {target : Snapshot} {l : LatchId} (h : Wired m)
    (hgenuine : Genuine m (.pump d event)) (hmove : PumpMove m (m.pump d) event p' ack)
    (hlatches : m'.latches = (m.countDown ack).latches)
    (hpump : m'.pump = Function.update m.pump d p')
    (hawaiting : m.control = .awaiting call target l) :
    m'.latches l = unacked (m'.pump .egress) target + unacked (m'.pump .ingress) target := by
  have hctrl := h.control_ok
  simp only [ControlOk, hawaiting] at hctrl
  obtain ⟨-, -, hcount, -⟩ := hctrl
  have hmoved := unacked_move h hgenuine hmove hawaiting
  have hlatch : m'.latches l = m.latches l - (if ack = some l then 1 else 0) := by
    rw [hlatches]
    cases ack with
    | none => simp [Mux.countDown]
    | some other =>
      by_cases hother : other = l
      · subst hother
        simp [Mux.countDown]
      · simp [Mux.countDown, hother, Function.update_of_ne (Ne.symm hother)]
  rw [hlatch, hcount, hpump]
  cases d with
  | egress =>
    simp only [Function.update_self,
      Function.update_of_ne (show Direction.ingress ≠ .egress by decide)]
    omega
  | ingress =>
    simp only [Function.update_self,
      Function.update_of_ne (show Direction.egress ≠ .ingress by decide)]
    omega

/-- A step of a pump keeps the invariant. -/
theorem wired_pumpStep {m m' : Mux} {d : Direction} {event : PumpEvent} (h : Wired m)
    (hgenuine : Genuine m (.pump d event)) (hstep : pumpStep m d event = some m') : Wired m' := by
  obtain ⟨p', ack, hmove, hsame, hlatches, hpump⟩ := pumpStep_move hstep
  have hheld : ∀ e s, (m'.pump e).pc.held = some s →
      (m.pump e).pc.held = some s ∨ s = m.snapshot := by
    intro e s hs
    rw [hpump] at hs
    by_cases he : e = d
    · subst he
      rw [Function.update_self] at hs
      exact held_move hmove hs
    · rw [Function.update_of_ne he] at hs
      exact Or.inl hs
  refine ⟨?_, ?_, ?_, ?_, ?_⟩
  · rw [hsame.snapshot]
    exact h.epoch_nonneg
  · rw [hsame.quiesceLatch, hsame.nextLatch]
    exact h.latch_lt
  · rw [hsame.engineMuxSide, hsame.nextFd]
    exact h.side_lt
  · intro e
    rw [hpump]
    by_cases he : e = d
    · subst he
      rw [Function.update_self]
      exact (pumpOk_move h hgenuine hmove).of_sameWiring hsame
    · rw [Function.update_of_ne he]
      exact (h.pump_ok e).of_sameWiring hsame
  · have hctrl := h.control_ok
    unfold ControlOk at hctrl ⊢
    rw [hsame.control]
    cases hcontrol : m.control with
    | idle => trivial
    | attaching => trivial
    | stopping => trivial
    | latched call target l =>
      simp only [hcontrol] at hctrl ⊢
      have hack : ack ≠ some l := by
        intro hack
        subst hack
        cases hmove with
        | countDown hpc => exact (h.pump_ok d).ack_latched _ _ _ _ hcontrol hpc
      refine ⟨hsame.quiesceLatch.trans hctrl.1, ?_, by rw [hsame.snapshot]; exact hctrl.2.2.1,
        hctrl.2.2.2⟩
      rw [hlatches, ← hctrl.2.1]
      cases ack with
      | none => rfl
      | some other => exact Function.update_of_ne (fun hl ↦ hack (by rw [hl])) _ _
    | awaiting call target l =>
      simp only [hcontrol] at hctrl ⊢
      exact ⟨hsame.quiesceLatch.trans hctrl.1, hsame.snapshot.trans hctrl.2.1,
        latch_count_pumpStep h hgenuine hmove hlatches hpump hcontrol, hctrl.2.2.2⟩
    | awaited call target settled =>
      simp only [hcontrol] at hctrl ⊢
      refine ⟨hsame.snapshot.trans hctrl.1, hctrl.2.1, fun hsettled e s hs ↦ ?_⟩
      rcases hheld e s hs with hold | hnew
      · exact hctrl.2.2 hsettled e s hold
      · exact hnew.trans hctrl.1
    | quiesced call target settled =>
      simp only [hcontrol] at hctrl ⊢
      refine ⟨hsame.snapshot.trans hctrl.1, hctrl.2.1, fun hsettled e s hs ↦ ?_⟩
      rcases hheld e s hs with hold | hnew
      · exact hctrl.2.2 hsettled e s hold
      · exact hnew.trans hctrl.1

/-! ### Steps of the controller -/

/-- What a step of the controller does, guards included. -/
inductive ControlMove (m : Mux) : ControlEvent → Mux → Prop
  | setTun {tun : Fd} {mtu : ℕ} (hidle : m.control = .idle) :
      ControlMove m (.setTun tun mtu) (m.beginQuiesce (.setTun tun mtu m.snapshot)
        ⟨.drop, none, m.snapshot.engine, nextEpoch m.snapshot.epoch, mtu⟩)
  | detach (hidle : m.control = .idle) :
      ControlMove m .detachEngine (m.beginDetach .detachEngine .idle)
  | attach (hidle : m.control = .idle) :
      ControlMove m .attachEngine (m.beginDetach .attachEngine .attaching)
  | stopped (hidle : m.control = .idle) (hstopped : m.running = false) : ControlMove m .stop m
  | stop (hidle : m.control = .idle) (hrunning : m.running = true) :
      ControlMove m .stop { m with
        running := false
        snapshot := ⟨.drop, none, none, nextEpoch m.snapshot.epoch, m.snapshot.mtu⟩
        control := .stopping }
  | publish {call : Call} {target : Snapshot} {ack : LatchId}
      (hlatched : m.control = .latched call target ack) :
      ControlMove m .publish { m with snapshot := target, control := .awaiting call target ack }
  | settle {call : Call} {target : Snapshot} {ack : LatchId}
      (hawaiting : m.control = .awaiting call target ack) (hzero : m.latches ack = 0) :
      ControlMove m .settle { m with control := .awaited call target true }
  | timeout {call : Call} {target : Snapshot} {ack : LatchId}
      (hawaiting : m.control = .awaiting call target ack) :
      ControlMove m .timeout { m with control := .awaited call target false }
  | clear {call : Call} {target : Snapshot} {settled : Bool}
      (hawaited : m.control = .awaited call target settled) :
      ControlMove m .clear { m with
        quiesceLatch := none, control := .quiesced call target settled }
  | restored {tun : Fd} {mtu : ℕ} {cur target : Snapshot} {settled : Bool}
      (hquiesced : m.control = .quiesced (.setTun tun mtu cur) target settled) :
      ControlMove m .resume { m with
        snapshot := ⟨cur.state, some tun, cur.engine, nextEpoch m.snapshot.epoch, mtu⟩
        control := .idle }
  | detached {target : Snapshot} {settled : Bool}
      (hquiesced : m.control = .quiesced .detachEngine target settled) :
      ControlMove m .resume { m.closeMuxSide with control := .idle }
  | attaching {target : Snapshot} {settled : Bool}
      (hquiesced : m.control = .quiesced .attachEngine target settled) :
      ControlMove m .resume { m.closeMuxSide with control := .attaching }
  | attached (hattaching : m.control = .attaching) :
      ControlMove m (.socketpair true) { m with
        engineMuxSide := some m.nextFd
        nextFd := m.nextFd + 1
        snapshot := ⟨.forward, m.snapshot.tun, some m.nextFd, nextEpoch m.snapshot.epoch,
          m.snapshot.mtu⟩
        control := .idle }
  | unattached (hattaching : m.control = .attaching) :
      ControlMove m (.socketpair false) { m with control := .idle }
  | joined (hstopping : m.control = .stopping) :
      ControlMove m .joined { m.closeMuxSide with control := .idle }

/-- The controller makes no other steps. -/
theorem controlStep_move {m m' : Mux} {event : ControlEvent}
    (hstep : controlStep m event = some m') : ControlMove m event m' := by
  cases event with
  | setTun tun mtu =>
    simp only [controlStep] at hstep
    split_ifs at hstep with hidle
    obtain rfl := Option.some.inj hstep
    exact .setTun hidle
  | detachEngine =>
    simp only [controlStep] at hstep
    split_ifs at hstep with hidle
    obtain rfl := Option.some.inj hstep
    exact .detach hidle
  | attachEngine =>
    simp only [controlStep] at hstep
    split_ifs at hstep with hidle
    obtain rfl := Option.some.inj hstep
    exact .attach hidle
  | stop =>
    simp only [controlStep] at hstep
    split_ifs at hstep with hbusy hstopped
    · obtain rfl := Option.some.inj hstep
      exact .stopped (not_not.mp hbusy) (by simpa using hstopped)
    · obtain rfl := Option.some.inj hstep
      exact .stop (not_not.mp hbusy) (by simpa using hstopped)
  | publish =>
    simp only [controlStep] at hstep
    split at hstep
    case h_1 call target ack hlatched =>
      obtain rfl := Option.some.inj hstep
      exact .publish hlatched
    case h_2 => cases hstep
  | settle =>
    simp only [controlStep] at hstep
    split at hstep
    case h_1 call target ack hawaiting =>
      split_ifs at hstep with hzero
      obtain rfl := Option.some.inj hstep
      exact .settle hawaiting hzero
    case h_2 => cases hstep
  | timeout =>
    simp only [controlStep] at hstep
    split at hstep
    case h_1 call target ack hawaiting =>
      obtain rfl := Option.some.inj hstep
      exact .timeout hawaiting
    case h_2 => cases hstep
  | clear =>
    simp only [controlStep] at hstep
    split at hstep
    case h_1 call target settled hawaited =>
      obtain rfl := Option.some.inj hstep
      exact .clear hawaited
    case h_2 => cases hstep
  | resume =>
    simp only [controlStep] at hstep
    split at hstep
    case h_1 call target settled hquiesced =>
      obtain rfl := Option.some.inj hstep
      cases call with
      | setTun tun mtu cur => exact .restored hquiesced
      | detachEngine => exact .detached hquiesced
      | attachEngine => exact .attaching hquiesced
    case h_2 => cases hstep
  | socketpair created =>
    simp only [controlStep] at hstep
    split at hstep
    case h_1 hattaching =>
      cases created with
      | true =>
        obtain rfl := Option.some.inj hstep
        exact .attached hattaching
      | false =>
        obtain rfl := Option.some.inj hstep
        exact .unattached hattaching
    case h_2 => cases hstep
  | joined =>
    simp only [controlStep] at hstep
    split at hstep
    case h_1 hstopping =>
      obtain rfl := Option.some.inj hstep
      exact .joined hstopping
    case h_2 => cases hstep

/-- The controller leaves the snapshot or publishes the next one, and no quiesce is pending
afterwards. -/
theorem PumpOk.of_unpending {m m' : Mux} {p : Pump} (h : PumpOk m p)
    (hsnapshot : m'.snapshot = m.snapshot ∨ m'.snapshot.epoch = m.snapshot.epoch + 1)
    (hlatch : m'.nextLatch = m.nextLatch) (hpending : m'.control.pending = none) :
    PumpOk m' p := by
  obtain ⟨hle, heq, hlocal, hlocalHeld, hadopted, hacking, hreset, hlt, -, -⟩ := h
  constructor <;> grind [Control.pending]

/-- The start of a quiesce: its latch is new, so no pump has read it. -/
theorem wired_beginQuiesce {m : Mux} {call : Call} {target : Snapshot} (h : Wired m)
    (htarget : target.epoch = m.snapshot.epoch + 1) (hretires : call.Retires target) :
    Wired (m.beginQuiesce call target) where
  epoch_nonneg := h.epoch_nonneg
  latch_lt := by
    intro l hl
    simp only [Mux.beginQuiesce, Option.some.injEq] at hl
    exact hl ▸ Nat.lt_succ_self _
  side_lt := h.side_lt
  pump_ok := fun d ↦ by
    obtain ⟨hle, heq, hlocal, hlocalHeld, hadopted, hacking, hreset, hlt, -, -⟩ := h.pump_ok d
    constructor <;> grind [Mux.beginQuiesce]
  control_ok := by
    refine ⟨rfl, ?_, htarget, hretires⟩
    simp [Mux.beginQuiesce]

theorem wired_beginDetach {m : Mux} {call : Call} {next : Control} (h : Wired m)
    (hepoch : m.snapshot.epoch < intMax) (hcall : ∀ tun mtu cur, call ≠ .setTun tun mtu cur)
    (hnext : next = .idle ∨ next = .attaching) : Wired (m.beginDetach call next) := by
  unfold Mux.beginDetach
  dsimp only
  split_ifs
  · refine ⟨h.epoch_nonneg, h.latch_lt, h.side_lt, fun d ↦ ?_, ?_⟩
    · refine (h.pump_ok d).of_unpending (Or.inl rfl) rfl ?_
      rcases hnext with rfl | rfl <;> rfl
    · rcases hnext with rfl | rfl <;> trivial
  · refine wired_beginQuiesce h (nextEpoch_of_lt hepoch) ?_
    cases call with
    | setTun tun mtu cur => exact absurd rfl (hcall tun mtu cur)
    | detachEngine => rfl
    | attachEngine => rfl

/-- Publishing the target of a quiesce: no pump is on it yet, so both acknowledgements are out. -/
theorem wired_publish {m : Mux} {call : Call} {target : Snapshot} {l : LatchId} (h : Wired m)
    (hlatched : m.control = .latched call target l) :
    Wired { m with snapshot := target, control := .awaiting call target l } := by
  have hctrl := h.control_ok
  simp only [ControlOk, hlatched] at hctrl
  obtain ⟨hquiesce, htwo, hepoch, hretires⟩ := hctrl
  have hnonneg := h.epoch_nonneg
  refine ⟨?_, h.latch_lt, h.side_lt, fun d ↦ ?_, ?_⟩
  · simp only
    omega
  · obtain ⟨hle, heq, hlocal, hlocalHeld, hadopted, hacking, hreset, hlt, hnot, -⟩ := h.pump_ok d
    have hfree := fun s ↦ hnot _ _ _ s hlatched
    constructor <;> grind [PumpPc.held]
  · have hone : ∀ d, unacked (m.pump d) target = 1 := by
      intro d
      have hlocal := (h.pump_ok d).local_le
      unfold unacked
      rw [if_neg]
      rintro ⟨hsame, -⟩
      omega
    refine ⟨hquiesce, rfl, ?_, hretires⟩
    simp only [hone]
    exact htwo

/-- When the awaited latch stands at zero, every snapshot a pump holds is the published one. -/
theorem held_of_latch_zero {m : Mux} {call : Call} {target : Snapshot} {l : LatchId} (h : Wired m)
    (hawaiting : m.control = .awaiting call target l) (hzero : m.latches l = 0) (d : Direction)
    (s : Snapshot) (hheld : (m.pump d).pc.held = some s) : s = target := by
  have hctrl := h.control_ok
  simp only [ControlOk, hawaiting] at hctrl
  obtain ⟨-, hsnapshot, hcount, -⟩ := hctrl
  have hnone : unacked (m.pump d) target = 0 := by
    cases d <;> omega
  have hacknowledged : (m.pump d).Acknowledged target := by
    unfold unacked at hnone
    split_ifs at hnone with hack
    exact hack
  have hlower := (h.pump_ok d).local_le_held s hheld
  have hupper := (h.pump_ok d).held_le s hheld
  have hepoch : s.epoch = m.snapshot.epoch := by
    rw [hacknowledged.1] at hlower
    rw [hsnapshot] at hupper ⊢
    omega
  exact ((h.pump_ok d).held_eq s hheld hepoch).trans hsnapshot

/-- A step of the controller that publishes the next epoch and leaves no quiesce open. -/
theorem Wired.of_published {m m' : Mux} (h : Wired m)
    (hsnapshot : m'.snapshot.epoch = m.snapshot.epoch + 1) (hlatch : m'.nextLatch = m.nextLatch)
    (hquiesce : m'.quiesceLatch = m.quiesceLatch) (hpump : m'.pump = m.pump)
    (hside : ∀ fd, m'.engineMuxSide = some fd → fd < m'.nextFd)
    (hcontrol : m'.control = .idle ∨ m'.control = .stopping) : Wired m' := by
  have hnonneg := h.epoch_nonneg
  refine ⟨by omega, by rw [hquiesce, hlatch]; exact h.latch_lt, hside, fun d ↦ ?_, ?_⟩
  · rw [hpump]
    refine (h.pump_ok d).of_unpending (Or.inr hsnapshot) hlatch ?_
    rcases hcontrol with hcontrol | hcontrol <;> rw [hcontrol] <;> rfl
  · unfold ControlOk
    rcases hcontrol with hcontrol | hcontrol <;> rw [hcontrol] <;> trivial

/-- A step of the controller that publishes nothing and leaves no quiesce pending. -/
theorem Wired.of_unpublished {m m' : Mux} (h : Wired m) (hsnapshot : m'.snapshot = m.snapshot)
    (hlatch : m'.nextLatch = m.nextLatch)
    (hquiesce : m'.quiesceLatch = m.quiesceLatch ∨ m'.quiesceLatch = none)
    (hpump : m'.pump = m.pump) (hside : m'.engineMuxSide = m.engineMuxSide ∨
      m'.engineMuxSide = none) (hfd : m'.nextFd = m.nextFd)
    (hpending : m'.control.pending = none) (hcontrol : ControlOk m') : Wired m' := by
  refine ⟨by rw [hsnapshot]; exact h.epoch_nonneg, ?_, ?_, fun d ↦ ?_, hcontrol⟩
  · intro l hl
    rw [hlatch]
    rcases hquiesce with hquiesce | hquiesce
    · exact h.latch_lt l (hquiesce ▸ hl)
    · rw [hquiesce] at hl
      cases hl
  · intro fd hfdside
    rw [hfd]
    rcases hside with hside | hside
    · exact h.side_lt fd (hside ▸ hfdside)
    · rw [hside] at hfdside
      cases hfdside
  · rw [hpump]
    exact (h.pump_ok d).of_unpending (Or.inl hsnapshot) hlatch hpending

/-- A step of the controller keeps the invariant. -/
theorem wired_controlStep {m m' : Mux} {event : ControlEvent} (h : Wired m)
    (hepoch : m.snapshot.epoch < intMax) (hstep : controlStep m event = some m') : Wired m' := by
  have hctrl := h.control_ok
  have hnext := nextEpoch_of_lt hepoch
  cases controlStep_move hstep with
  | setTun => exact wired_beginQuiesce h hnext rfl
  | detach => exact wired_beginDetach h hepoch (by simp) (Or.inl rfl)
  | attach => exact wired_beginDetach h hepoch (by simp) (Or.inr rfl)
  | stopped => exact h
  | stop => exact h.of_published hnext rfl rfl rfl h.side_lt (Or.inr rfl)
  | publish hlatched => exact wired_publish h hlatched
  | settle hawaiting hzero =>
    simp only [ControlOk, hawaiting] at hctrl
    refine h.of_unpublished rfl rfl (Or.inl rfl) rfl (Or.inl rfl) rfl rfl ?_
    exact ⟨hctrl.2.1, hctrl.2.2.2, fun _ d s hs ↦ held_of_latch_zero h hawaiting hzero d s hs⟩
  | timeout hawaiting =>
    simp only [ControlOk, hawaiting] at hctrl
    refine h.of_unpublished rfl rfl (Or.inl rfl) rfl (Or.inl rfl) rfl rfl ?_
    exact ⟨hctrl.2.1, hctrl.2.2.2, by simp⟩
  | clear hawaited =>
    simp only [ControlOk, hawaited] at hctrl
    exact h.of_unpublished rfl rfl (Or.inr rfl) rfl (Or.inl rfl) rfl rfl hctrl
  | restored => exact h.of_published hnext rfl rfl rfl h.side_lt (Or.inl rfl)
  | detached | attaching | joined =>
    exact h.of_unpublished rfl rfl (Or.inl rfl) rfl (Or.inr rfl) rfl rfl trivial
  | attached =>
    refine h.of_published hnext rfl rfl rfl ?_ (Or.inl rfl)
    intro fd hfd
    exact Option.some.inj hfd ▸ Nat.lt_succ_self _
  | unattached => exact h.of_unpublished rfl rfl (Or.inl rfl) rfl (Or.inl rfl) rfl rfl trivial

/-- Every step that meets the condition keeps the invariant. -/
theorem wired_step {a : Action} {m m' : Mux} (h : Wired m) (hgenuine : Genuine m a)
    (hstep : step m a = some m') : Wired m' := by
  cases a with
  | pump d event => exact wired_pumpStep h hgenuine hstep
  | control event => exact wired_controlStep h hgenuine hstep

/-- The invariant holds along every run that meets the condition. -/
theorem wired_of_reaches {m m' : Mux} (h : Wired m) (hreach : Reaches step Genuine m m') :
    Wired m' :=
  hreach.invariant Wired (fun _ _ _ hwired hgenuine hstep ↦ wired_step hwired hgenuine hstep) h

/-! ### What a settled quiesce leaves behind -/

/-- A detachment begins with nothing published, no pump moved and no descriptor handed out. -/
theorem beginDetach_frame (m : Mux) (call : Call) (next : Control) :
    (m.beginDetach call next).snapshot = m.snapshot ∧ (m.beginDetach call next).pump = m.pump ∧
      (m.beginDetach call next).nextFd = m.nextFd := by
  simp only [Mux.beginDetach]
  split_ifs
  · exact ⟨rfl, rfl, rfl⟩
  · exact ⟨rfl, rfl, rfl⟩

/-- The controller moves no pump. -/
theorem controlStep_pump {m m' : Mux} {event : ControlEvent}
    (hstep : controlStep m event = some m') :
    m'.pump = m.pump := by
  cases controlStep_move hstep with
  | detach | attach => exact (beginDetach_frame ..).2.1
  | setTun | stopped | stop | publish | settle | timeout | clear | restored | detached | attaching
  | attached | unattached | joined => rfl

/-- After any step a pump holds what it held before, or the snapshot that was published. -/
theorem held_step {a : Action} {m m' : Mux} {d : Direction} {s : Snapshot}
    (hstep : step m a = some m') (hheld : (m'.pump d).pc.held = some s) :
    (m.pump d).pc.held = some s ∨ s = m.snapshot := by
  cases a with
  | pump e event =>
    obtain ⟨p', ack, hmove, -, -, hpump⟩ := pumpStep_move hstep
    rw [hpump] at hheld
    by_cases he : d = e
    · subst he
      rw [Function.update_self] at hheld
      exact held_move hmove hheld
    · rw [Function.update_of_ne he] at hheld
      exact Or.inl hheld
  | control event =>
    rw [controlStep_pump hstep] at hheld
    exact Or.inl hheld

/-- The controller never publishes an older epoch. -/
theorem epoch_le_controlStep {m m' : Mux} {event : ControlEvent} (h : Wired m)
    (hepoch : m.snapshot.epoch < intMax) (hstep : controlStep m event = some m') :
    m.snapshot.epoch ≤ m'.snapshot.epoch := by
  have hctrl := h.control_ok
  have hnext : m.snapshot.epoch ≤ nextEpoch m.snapshot.epoch := by
    rw [nextEpoch_of_lt hepoch]
    omega
  cases controlStep_move hstep with
  | publish hlatched =>
    simp only [ControlOk, hlatched] at hctrl
    have htarget := hctrl.2.2.1
    simp only
    omega
  | stop | restored | attached => exact hnext
  | detach | attach => rw [(beginDetach_frame ..).1]
  | setTun | stopped | settle | timeout | clear | detached | attaching | unattached | joined =>
    exact le_rfl

/-- The published snapshot and every snapshot a pump holds have at least this epoch. -/
def EpochFloor (floor : ℤ) (m : Mux) : Prop :=
  floor ≤ m.snapshot.epoch ∧ ∀ d s, (m.pump d).pc.held = some s → floor ≤ s.epoch

theorem epochFloor_step {floor : ℤ} {a : Action} {m m' : Mux} (hfloor : EpochFloor floor m)
    (h : Wired m) (hgenuine : Genuine m a) (hstep : step m a = some m') : EpochFloor floor m' := by
  refine ⟨?_, fun d s hheld ↦ ?_⟩
  · cases a with
    | pump d event =>
      obtain ⟨_, _, _, hsame, _⟩ := pumpStep_move hstep
      rw [hsame.snapshot]
      exact hfloor.1
    | control event => exact le_trans hfloor.1 (epoch_le_controlStep h hgenuine hstep)
  · rcases held_step hstep hheld with hold | rfl
    · exact hfloor.2 d s hold
    · exact hfloor.1

/-- The call the controller is in while its quiesce has not returned to it. -/
def Control.call : Control → Option Call
  | .latched call _ _ | .awaiting call _ _ | .awaited call _ _ | .quiesced call _ _ => some call
  | .idle | .attaching | .stopping => none

/-- A property of snapshots that every snapshot of the mux has: the published one, those the pumps
hold, the one that is latched to be published, and the one that a `setTun` publishes at its end. -/
structure Pervades (P : Snapshot → Prop) (m : Mux) : Prop where
  published : P m.snapshot
  held : ∀ d s, (m.pump d).pc.held = some s → P s
  latched : ∀ call target ack, m.control = .latched call target ack → P target
  restored : ∀ tun mtu cur, m.control.call = some (.setTun tun mtu cur) →
    ∀ epoch, P ⟨cur.state, some tun, cur.engine, epoch, mtu⟩

section Pervades

variable {P : Snapshot → Prop} {m m' : Mux}

/-- Between two calls only the published snapshot and those of the pumps are left. -/
theorem pervades_of_call_none (hpublished : P m.snapshot)
    (hheld : ∀ d s, (m.pump d).pc.held = some s → P s) (hcall : m.control.call = none) :
    Pervades P m where
  published := hpublished
  held := hheld
  latched := by
    intro call target ack hlatched
    rw [hlatched] at hcall
    cases hcall
  restored := by
    intro tun mtu cur hsome
    rw [hcall] at hsome
    cases hsome

/-- Within a call, past the latch. -/
theorem pervades_of_call (h : Pervades P m) (hpublished : P m'.snapshot)
    (hpump : m'.pump = m.pump) (hcall : m'.control.call = m.control.call)
    (hpast : ∀ call target ack, m'.control ≠ .latched call target ack) : Pervades P m' where
  published := hpublished
  held := by
    rw [hpump]
    exact h.held
  latched := fun call target ack hlatched ↦ absurd hlatched (hpast call target ack)
  restored := by
    rw [hcall]
    exact h.restored

/-- A quiesce begins with a target that has the property. -/
theorem pervades_beginQuiesce {call : Call} {target : Snapshot} (h : Pervades P m)
    (htarget : P target)
    (hrestored : ∀ tun mtu cur, call = .setTun tun mtu cur →
      ∀ epoch, P ⟨cur.state, some tun, cur.engine, epoch, mtu⟩) :
    Pervades P (m.beginQuiesce call target) where
  published := h.published
  held := h.held
  latched := by
    rintro _ _ _ ⟨⟩
    exact htarget
  restored := by
    intro tun mtu cur hcall
    exact hrestored tun mtu cur (Option.some.inj hcall)

/-- A detachment begins: there is nothing to detach, or the target drops the engine. -/
theorem pervades_beginDetach {call : Call} {next : Control} (h : Pervades P m)
    (hcall : call = .detachEngine ∨ call = .attachEngine)
    (hnext : next = .idle ∨ next = .attaching)
    (hdrop : P ⟨.drop, m.snapshot.tun, none, nextEpoch m.snapshot.epoch, m.snapshot.mtu⟩) :
    Pervades P (m.beginDetach call next) := by
  simp only [Mux.beginDetach]
  split_ifs with hnone
  · rcases hnext with rfl | rfl
    · exact pervades_of_call_none h.published h.held rfl
    · exact pervades_of_call_none h.published h.held rfl
  · refine pervades_beginQuiesce h hdrop ?_
    rintro tun mtu cur rfl
    rcases hcall with hcall | hcall <;> cases hcall

/-- The controller only publishes what has the property, if the targets it sets out with and the
snapshot of a new engine do. -/
theorem pervades_controlStep {event : ControlEvent} (h : Pervades P m)
    (hdrop : ∀ tun engine epoch mtu, tun = none ∨ tun = m.snapshot.tun →
      engine = none ∨ engine = m.snapshot.engine → P ⟨.drop, tun, engine, epoch, mtu⟩)
    (hset : ∀ tun mtu, event = .setTun tun mtu →
      ∀ epoch, P ⟨m.snapshot.state, some tun, m.snapshot.engine, epoch, mtu⟩)
    (hattach : m.control = .attaching →
      ∀ epoch, P ⟨.forward, m.snapshot.tun, some m.nextFd, epoch, m.snapshot.mtu⟩)
    (hstep : controlStep m event = some m') : Pervades P m' := by
  cases controlStep_move hstep with
  | setTun =>
    refine pervades_beginQuiesce h (hdrop _ _ _ _ (Or.inl rfl) (Or.inr rfl)) ?_
    rintro _ _ _ ⟨⟩
    exact hset _ _ rfl
  | detach =>
    exact pervades_beginDetach h (Or.inl rfl) (Or.inl rfl)
      (hdrop _ _ _ _ (Or.inr rfl) (Or.inl rfl))
  | attach =>
    exact pervades_beginDetach h (Or.inr rfl) (Or.inr rfl)
      (hdrop _ _ _ _ (Or.inr rfl) (Or.inl rfl))
  | stopped => exact h
  | stop => exact pervades_of_call_none (hdrop _ _ _ _ (Or.inl rfl) (Or.inl rfl)) h.held rfl
  | publish hlatched =>
    exact pervades_of_call h (h.latched _ _ _ hlatched) rfl (by rw [hlatched]; rfl)
      fun _ _ _ ↦ Control.noConfusion
  | settle hwaits | timeout hwaits | clear hwaits =>
    exact pervades_of_call h h.published rfl (by rw [hwaits]; rfl)
      fun _ _ _ ↦ Control.noConfusion
  | restored hquiesced =>
    exact pervades_of_call_none (h.restored _ _ _ (by rw [hquiesced]; rfl) _) h.held rfl
  | attached hattaching => exact pervades_of_call_none (hattach hattaching _) h.held rfl
  | detached | attaching | unattached | joined =>
    exact pervades_of_call_none h.published h.held rfl

/-- A pump passes on what it found published. -/
theorem pervades_pumpStep {d : Direction} {event : PumpEvent} (h : Pervades P m)
    (hstep : step m (.pump d event) = some m') : Pervades P m' := by
  obtain ⟨_, _, _, hsame, _⟩ := pumpStep_move hstep
  refine ⟨?_, fun e s hheld ↦ ?_, ?_, ?_⟩
  · rw [hsame.snapshot]
    exact h.published
  · rcases held_step hstep hheld with hold | rfl
    · exact h.held e s hold
    · exact h.published
  · rw [hsame.control]
    exact h.latched
  · rw [hsame.control]
    exact h.restored

end Pervades

/-- A descriptor that no snapshot of the mux names as its engine, published, held or still to be
published, and that the next socket pair does not reuse. -/
structure EngineGone (fd : Fd) (m : Mux) : Prop where
  unused : fd < m.nextFd
  published : m.snapshot.engine ≠ some fd
  held : ∀ d s, (m.pump d).pc.held = some s → s.engine ≠ some fd
  latched : ∀ call target l, m.control = .latched call target l → target.engine ≠ some fd
  restored : ∀ tun mtu cur, m.control.call = some (.setTun tun mtu cur) → cur.engine ≠ some fd

theorem EngineGone.pervades {fd : Fd} {m : Mux} (hgone : EngineGone fd m) :
    Pervades (fun s ↦ s.engine ≠ some fd) m :=
  ⟨hgone.published, hgone.held, hgone.latched,
    fun tun mtu cur hcall _ ↦ hgone.restored tun mtu cur hcall⟩

/-- Descriptors are handed out in order. -/
theorem nextFd_le_controlStep {event : ControlEvent} {m m' : Mux}
    (hstep : controlStep m event = some m') : m.nextFd ≤ m'.nextFd := by
  cases controlStep_move hstep with
  | attached => exact Nat.le_succ _
  | detach | attach => exact Nat.le_of_eq (beginDetach_frame ..).2.2.symm
  | setTun | stopped | stop | publish | settle | timeout | clear | restored | detached | attaching
  | unattached | joined => exact Nat.le_refl _

theorem engineGone_step {fd : Fd} {a : Action} {m m' : Mux} (hgone : EngineGone fd m)
    (hstep : step m a = some m') : EngineGone fd m' := by
  have hboth : fd < m'.nextFd ∧ Pervades (fun s ↦ s.engine ≠ some fd) m' := by
    cases a with
    | pump d event =>
      obtain ⟨_, _, _, hsame, _⟩ := pumpStep_move hstep
      exact ⟨by rw [hsame.nextFd]; exact hgone.unused, pervades_pumpStep hgone.pervades hstep⟩
    | control event =>
      refine ⟨Nat.lt_of_lt_of_le hgone.unused (nextFd_le_controlStep hstep), ?_⟩
      refine pervades_controlStep hgone.pervades ?_ (fun _ _ _ _ ↦ hgone.published) ?_ hstep
      · rintro tun engine epoch mtu - (rfl | rfl)
        · exact Option.some_ne_none fd ∘ Eq.symm
        · exact hgone.published
      · rintro - epoch hsame
        exact absurd (Option.some.inj hsame) (Nat.ne_of_gt hgone.unused)
  exact ⟨hboth.1, hboth.2.published, hboth.2.held, hboth.2.latched,
    fun tun mtu cur hcall ↦ hboth.2.restored tun mtu cur hcall 0⟩

/-- A descriptor that no snapshot of the mux names as its TUN, published, held or still to be
published. -/
structure TunGone (old : Fd) (m : Mux) : Prop where
  published : m.snapshot.tun ≠ some old
  held : ∀ d s, (m.pump d).pc.held = some s → s.tun ≠ some old
  latched : ∀ call target l, m.control = .latched call target l → target.tun ≠ some old
  installed : ∀ tun mtu cur, m.control.call = some (.setTun tun mtu cur) → tun ≠ old

theorem TunGone.pervades {old : Fd} {m : Mux} (hgone : TunGone old m) :
    Pervades (fun s ↦ s.tun ≠ some old) m :=
  ⟨hgone.published, hgone.held, hgone.latched,
    fun tun mtu cur hcall _ hsame ↦ hgone.installed tun mtu cur hcall (Option.some.inj hsame)⟩

theorem tunGone_step {old : Fd} {a : Action} {m m' : Mux} (hgone : TunGone old m)
    (hother : ∀ mtu, a ≠ .control (.setTun old mtu)) (hstep : step m a = some m') :
    TunGone old m' := by
  have hpervades : Pervades (fun s ↦ s.tun ≠ some old) m' := by
    cases a with
    | pump d event => exact pervades_pumpStep hgone.pervades hstep
    | control event =>
      refine pervades_controlStep hgone.pervades ?_ ?_ (fun _ _ ↦ hgone.published) hstep
      · rintro tun engine epoch mtu (rfl | rfl) -
        · exact Option.some_ne_none old ∘ Eq.symm
        · exact hgone.published
      · rintro tun mtu rfl epoch hsame
        obtain rfl := Option.some.inj hsame
        exact hother mtu rfl
  refine ⟨hpervades.published, hpervades.held, hpervades.latched, ?_⟩
  rintro tun mtu cur hcall rfl
  exact hpervades.restored tun mtu cur hcall 0 rfl

/-! ### Every run that meets the condition is sound -/

/-- A settled quiesce of `detachEngine` has retired the mux side that is closed next. -/
theorem engineGone_of_quiesced {m : Mux} {call : Call} {target : Snapshot} {fd : Fd} (h : Wired m)
    (hquiesced : m.control = .quiesced call target true)
    (hcall : ∀ tun mtu cur, call ≠ .setTun tun mtu cur) (hside : m.engineMuxSide = some fd) :
    EngineGone fd m := by
  have hctrl := h.control_ok
  simp only [ControlOk, hquiesced] at hctrl
  obtain ⟨hsnapshot, hretires, hheld⟩ := hctrl
  have hengine : target.engine = none := by
    cases call with
    | setTun tun mtu cur => exact absurd rfl (hcall tun mtu cur)
    | detachEngine => exact hretires
    | attachEngine => exact hretires
  refine ⟨h.side_lt fd hside, ?_, fun d s hs ↦ ?_, ?_, ?_⟩
  · rw [hsnapshot, hengine]
    simp
  · rw [hheld trivial d s hs, hengine]
    simp
  · rw [hquiesced]
    simp
  · rw [hquiesced]
    intro tun mtu cur hsame
    exact absurd (Option.some.inj hsame) (hcall tun mtu cur)

/-- A settled quiesce of `setTun` has retired the TUN it replaces. -/
theorem tunGone_of_quiesced {m : Mux} {tun : Fd} {mtu : ℕ} {cur target : Snapshot} {old : Fd}
    (h : Wired m) (hquiesced : m.control = .quiesced (.setTun tun mtu cur) target true)
    (hnew : tun ≠ old) : TunGone old m := by
  have hctrl := h.control_ok
  simp only [ControlOk, hquiesced] at hctrl
  obtain ⟨hsnapshot, hretires, hheld⟩ := hctrl
  have htun : target.tun = none := hretires
  refine ⟨?_, fun d s hs ↦ ?_, ?_, ?_⟩
  · rw [hsnapshot, htun]
    simp
  · rw [hheld trivial d s hs, htun]
    simp
  · rw [hquiesced]
    simp
  · rw [hquiesced]
    intro tun' mtu' cur' hsame
    simp only [Control.call, Option.some.injEq, Call.setTun.injEq] at hsame
    rw [← hsame.1]
    exact hnew

/-- **Quiesce soundness.** In every run whose steps all meet `Genuine`, a quiesce that ended because
its latch reached zero has moved both pumps to the published snapshot for good. -/
theorem quiesceSound_of_genuine (tun : Fd) (mtu : ℕ) (nextFd : Fd) :
    QuiesceSound Genuine (Mux.started tun mtu nextFd) := by
  intro m call target hreach hquiesced
  have hwired := wired_of_reaches (wired_started tun mtu nextFd) hreach
  have hctrl := hwired.control_ok
  simp only [ControlOk, hquiesced] at hctrl
  obtain ⟨hsnapshot, hretires, hheld⟩ := hctrl
  refine ⟨fun later hlater ↦ ?_, fun fd hcall hside later hlater ↦ ?_, ?_⟩
  · have hfloor : EpochFloor target.epoch m :=
      ⟨by rw [hsnapshot], fun d s hs ↦ by rw [hheld trivial d s hs]⟩
    have hboth : Wired later ∧ EpochFloor target.epoch later := by
      refine hlater.invariant (fun x ↦ Wired x ∧ EpochFloor target.epoch x) ?_ ⟨hwired, hfloor⟩
      intro a x y hx hgenuine hstep
      exact ⟨wired_step hx.1 hgenuine hstep, epochFloor_step hx.2 hx.1 hgenuine hstep⟩
    exact hboth.2.2
  · have hgone : EngineGone fd later :=
      hlater.invariant (EngineGone fd) (fun _ _ _ hx _ hstep ↦ engineGone_step hx hstep)
        (engineGone_of_quiesced hwired hquiesced hcall hside)
    exact hgone.held
  · rintro tun' mtu' cur old rfl - hnew later hlater
    have hgone : TunGone old later :=
      hlater.invariant (TunGone old) (fun _ _ _ hx hadmits hstep ↦ tunGone_step hx hadmits.2 hstep)
        (tunGone_of_quiesced hwired hquiesced hnew)
    exact hgone.held

/-- A pump takes several steps in a row. -/
def advances (d : Direction) (n : ℕ) : List Action := List.replicate n (.pump d .advance)

/-- An engine is attached and, once both pumps are on it, detached; both acknowledge. -/
def settledRun : List Action :=
  List.flatten [advances .egress 6, advances .ingress 6,
    [.control .attachEngine, .control (.socketpair true), .pump .egress .idle], advances .egress 5,
    [.pump .ingress .idle], advances .ingress 5,
    [.control .detachEngine, .control .publish, .pump .egress .idle], advances .egress 5,
    [.pump .ingress .idle], advances .ingress 5, [.control .settle, .control .clear]]

/-- Runs that meet the condition do settle: the detachment of `settledRun` ends with its latch at
zero, and from then on no pump holds the descriptor it closes. -/
theorem quiesceSound_of_genuine_settledRun :
    ∃ m target, Reaches step Genuine (Mux.started 7 1280 8) m ∧
      m.control = .quiesced .detachEngine target true ∧ m.engineMuxSide = some 8 ∧
      ∀ later, Reaches step Genuine m later → ∀ d s, (later.pump d).pc.held = some s →
        s.engine ≠ some 8 := by
  obtain ⟨m, hreach, hcheck⟩ := exists_reaches_of_run step Genuine (Mux.started 7 1280 8) settledRun
    (fun m ↦ decide (m.control = .quiesced .detachEngine ⟨.drop, some 7, none, 3, 1280⟩ true ∧
      m.engineMuxSide = some 8)) (by decide)
  obtain ⟨hquiesced, hside⟩ := of_decide_eq_true hcheck
  exact ⟨m, _, hreach, hquiesced, hside,
    (quiesceSound_of_genuine 7 1280 8 m _ _ hreach hquiesced).2.1 8 (by simp) hside⟩

/-! ### The two runs that break the promise -/

/-- An engine is attached while the egress pump is adopting the epoch of the attachment, and is
detached before that pump reads the latch: the latch it then counts down belongs to the detachment,
whose snapshot it has not seen. -/
def staleRun : List Action :=
  List.flatten [advances .egress 6, advances .ingress 6,
    [.control .attachEngine, .control (.socketpair true), .pump .egress .idle], advances .egress 3,
    [.control .detachEngine], advances .egress 1, [.control .publish], advances .egress 1,
    [.pump .ingress .idle], advances .ingress 5, [.control .settle, .control .clear]]

/-- The egress pump acknowledges a detachment, fails, is restarted and acknowledges it again, so the
latch reaches zero while the ingress pump still reads the engine's descriptor. -/
def restartRun : List Action :=
  List.flatten [advances .egress 6, advances .ingress 6,
    [.control .attachEngine, .control (.socketpair true), .pump .egress .idle], advances .egress 5,
    [.pump .ingress .idle], advances .ingress 5,
    [.control .detachEngine, .control .publish, .pump .egress .idle], advances .egress 5,
    [.pump .egress (.fail false)], advances .egress 7, [.control .settle, .control .clear]]

/-- The quiesce has returned because its latch reached zero, and the pump holds the mux side that is
closed next. -/
def holdsRetired (d : Direction) (m : Mux) : Bool :=
  match m.control, (m.pump d).pc.held with
  | .quiesced .detachEngine target true, some s =>
    m.engineMuxSide.isSome && s.engine == m.engineMuxSide && s.epoch < target.epoch
  | _, _ => false

/-- A reached state in which a pump holds the retired descriptor refutes the promise. -/
theorem not_quiesceSound_of_holdsRetired {d : Direction} {start m : Mux}
    (hreach : Reaches step Always start m) (hbad : holdsRetired d m = true) :
    ¬ QuiesceSound Always start := by
  intro hsound
  unfold holdsRetired at hbad
  split at hbad
  case h_1 target s hcontrol hheld =>
    simp only [Bool.and_eq_true, decide_eq_true_eq] at hbad
    have hfloor := (hsound m _ target hreach hcontrol).1 m Relation.ReflTransGen.refl d s hheld
    exact absurd hbad.2 (not_lt.mpr hfloor)
  case h_2 => cases hbad

/-- A stale acknowledgement lets `detachEngine` close a descriptor the egress pump still writes. -/
theorem not_quiesceSound_stale : ¬ QuiesceSound Always (Mux.started 7 1280 8) := by
  obtain ⟨m, hreach, hbad⟩ := exists_reaches_of_run step Always (Mux.started 7 1280 8) staleRun
    (holdsRetired .egress) (by decide)
  exact not_quiesceSound_of_holdsRetired hreach hbad

/-- A restarted pump lets `detachEngine` close a descriptor the ingress pump still reads. -/
theorem not_quiesceSound_restart : ¬ QuiesceSound Always (Mux.started 7 1280 8) := by
  obtain ⟨m, hreach, hbad⟩ := exists_reaches_of_run step Always (Mux.started 7 1280 8) restartRun
    (holdsRetired .ingress) (by decide)
  exact not_quiesceSound_of_holdsRetired hreach hbad

end WindscribeVpn.Tunnel.PacketMux
