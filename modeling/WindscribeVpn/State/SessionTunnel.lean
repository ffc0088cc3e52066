import WindscribeVpn.Tunnel.TunSession

/-!
# The tunnel as a session sees it

Who ends a session asks `TunnelManager.kt` for a few things: that the TUN is closed, held or
established with nothing behind it. What comes of it is told by three facts, whether a TUN is up,
whether an engine is attached, and whether a host is. `TunnelView` is this view, with the operations
of the manager on it. The theorems `view_*` connect it to the model of the manager: each operation
of the manager, run by the thread in the monitor, does to the view what the view's own operation
says.
-/

set_option autoImplicit false
set_option relaxedAutoImplicit false

namespace WindscribeVpn.State.SessionTunnel

open Tunnel.TunnelManager Foundations.Runs

/-- What a session sees of the tunnel: `hasTunnel`, an engine, and a host. -/
structure TunnelView where
  tunnelUp : Bool
  engine : Bool
  host : Bool
  deriving DecidableEq, Repr

/-- A TUN that carries nothing. -/
def TunnelView.held (v : TunnelView) : Bool := v.tunnelUp && !v.engine

/-- `disconnect`. -/
def TunnelView.disconnect (v : TunnelView) : TunHold → TunnelView
  | .none => { v with tunnelUp := false, engine := false }
  | .forHandover | .forBlocking => { v with engine := false }

/-- `releaseHeldTunnel`. -/
def TunnelView.releaseHeldTunnel (v : TunnelView) : TunnelView :=
  if v.held then { v with tunnelUp := false } else v

/-- `holdForBlocking`, which keeps what is up. -/
def TunnelView.holdForBlocking (v : TunnelView) : TunnelView := v

/-- `beginBlocking`; `establishes` says that the TUN and the mux behind it come up. -/
def TunnelView.beginBlocking (v : TunnelView) (establishes : Bool) : TunnelView :=
  if !v.tunnelUp && v.host && establishes then { v with tunnelUp := true } else v

/-- `onHoldExpired`; `blocking` is what the host answers to `blockingApplies`. -/
def TunnelView.onHoldExpired (v : TunnelView) (blocking : Bool) : TunnelView :=
  if v.held && !(v.host && blocking) then { v with tunnelUp := false } else v

theorem TunnelView.beginBlocking_tunnelUp (v : TunnelView) (establishes : Bool) :
    (v.beginBlocking establishes).tunnelUp = (v.tunnelUp || (v.host && establishes)) := by
  obtain ⟨up, engine, host⟩ := v
  cases up <;> cases host <;> cases establishes <;> rfl

/-- A release leaves a TUN only to an engine. -/
theorem TunnelView.releaseHeldTunnel_tunnelUp (v : TunnelView) :
    v.releaseHeldTunnel.tunnelUp = (v.tunnelUp && v.engine) := by
  obtain ⟨up, engine, host⟩ := v
  cases up <;> cases engine <;> rfl

/-- The view of a manager. -/
def view (s : Manager) : TunnelView := ⟨s.tunnelUp, s.activeEngine.isSome, s.host.isSome⟩

/-! ### The manager against the view -/

variable (s : Manager)

@[simp] theorem view_cancelHoldWatchdog : view s.cancelHoldWatchdog = view s := by
  unfold Manager.cancelHoldWatchdog
  split <;> rfl

@[simp] theorem view_closeTun : view s.closeTun = { view s with tunnelUp := false } := by
  unfold Manager.closeTun
  split_ifs with hup
  · split <;> rfl
  · have hdown : s.tunnelUp = false := by simpa using hup
    simp [view, hdown]

theorem view_finishHold (r : Request) : view (s.finishHold r) = view s := by
  cases r with
  | excludeForHandover =>
    exact (show view (s.finishHold .excludeForHandover) = view s.cancelHoldWatchdog from rfl).trans
      (view_cancelHoldWatchdog s)
  | excludeForBlocking =>
    exact (show view (s.finishHold .excludeForBlocking) = view s.cancelHoldWatchdog from rfl).trans
      (view_cancelHoldWatchdog s)
  | excludeConverted | first _ | replace _ | blocking => rfl

theorem view_excludeSelfWhileHolding (r : Request) (excludes : Bool) :
    view (s.excludeSelfWhileHolding r excludes) = view s := by
  unfold Manager.excludeSelfWhileHolding
  split
  · exact view_finishHold s r
  · split_ifs
    · rfl
    · exact view_finishHold s r

theorem view_disconnect (hold : TunHold) (excludes : Bool) :
    view (s.disconnect hold excludes) = (view s).disconnect hold := by
  cases hold with
  | none =>
    exact (show view (s.disconnect .none excludes) =
      view (Manager.closeTun { s with activeEngine := none, mux := none }) from rfl).trans
        (view_closeTun _)
  | forHandover | forBlocking => exact view_excludeSelfWhileHolding _ _ excludes

theorem held_view : (view s).held = true ↔ s.tunnelUp = true ∧ s.activeEngine.isSome = false := by
  simp [TunnelView.held, view]

theorem view_releaseHeldTunnel : view s.releaseHeldTunnel = (view s).releaseHeldTunnel := by
  unfold Manager.releaseHeldTunnel TunnelView.releaseHeldTunnel
  by_cases hheld : (view s).held = true
  · obtain ⟨hup, hengine⟩ := (held_view s).mp hheld
    rw [if_neg (by simp [hup, hengine]), if_pos hheld, view_closeTun]
    exact congrArg (fun v : TunnelView ↦ { v with tunnelUp := false }) (view_cancelHoldWatchdog s)
  · rw [if_neg hheld, if_pos]
    by_contra hkept
    exact hheld ((held_view s).mpr (by simpa using hkept))

theorem view_holdForBlocking (excludes : Bool) :
    view (s.holdForBlocking excludes) = (view s).holdForBlocking := by
  unfold Manager.holdForBlocking
  split_ifs
  · rfl
  · rw [view_excludeSelfWhileHolding]
    exact view_cancelHoldWatchdog s

theorem view_onHoldExpired (blocking : Bool) :
    view (s.onHoldExpired blocking) = (view s).onHoldExpired blocking := by
  unfold Manager.onHoldExpired TunnelView.onHoldExpired
  by_cases hheld : (view s).held = true
  · obtain ⟨hup, hengine⟩ := (held_view s).mp hheld
    rw [if_neg (by simp [hup, hengine]), hheld, Bool.true_and]
    by_cases hblocks : (s.host.isSome && blocking) = true
    · rw [if_pos hblocks, if_neg (by rw [Bool.not_eq_true', Bool.not_eq_false]; exact hblocks)]
      exact view_cancelHoldWatchdog s
    · rw [if_neg hblocks, if_pos (by rw [Bool.not_eq_true']; exact eq_false_of_ne_true hblocks)]
      exact view_closeTun { s with mux := none }
  · have hskip : (s.activeEngine.isSome || !s.tunnelUp) = true := by
      by_contra hkept
      exact hheld ((held_view s).mpr (by simpa [and_comm] using hkept))
    rw [if_pos hskip, if_neg (by simp [hheld])]

/-! ### The blocking TUN

`beginBlocking` leaves the monitor only with its TUN established and notified and its mux started,
or with a failure on the way. -/

variable {s} {t : Manager}

theorem view_beginBlocking_unneeded (hup : s.tunnelUp = true ∨ s.host = none)
    (establishes : Bool) : view s.beginBlocking = (view s).beginBlocking establishes := by
  have hkept : (view s).beginBlocking establishes = view s := by
    unfold TunnelView.beginBlocking
    rw [if_neg]
    rcases hup with hup | hnone
    · simp [view, hup]
    · simp [view, hnone]
  rw [hkept]
  unfold Manager.beginBlocking
  split_ifs
  · rfl
  · split <;> rfl

/-- The thread in the monitor asks its host. -/
theorem step_beginBlocking {h : HostId} (hdown : s.tunnelUp = false) (hmux : s.mux = none)
    (hhost : s.host = some h) (hstep : step s .beginBlocking = some t) :
    t.op = .requesting .blocking ∧ t.host = some h ∧ view t = view s := by
  simp only [step] at hstep
  split_ifs at hstep
  obtain rfl := Option.some.inj hstep
  unfold Manager.beginBlocking
  rw [if_neg (by simp [hdown, hmux])]
  split
  · rename_i hnone
    rw [hhost] at hnone
    cases hnone
  · exact ⟨rfl, hhost, rfl⟩

theorem step_opEstablish_failed {h : HostId} (hop : s.op = .requesting .blocking)
    (hhost : s.host = some h) (hstep : step s (.opEstablish false) = some t) :
    view t = { view s with tunnelUp := false } := by
  simp only [step, hop, hhost, Bool.false_eq_true, if_false] at hstep
  obtain rfl := Option.some.inj hstep
  exact view_closeTun s

theorem step_opEstablish {h : HostId} (hop : s.op = .requesting .blocking)
    (hhost : s.host = some h) (hstep : step s (.opEstablish true) = some t) :
    (∃ tun, t.op = .notifying .blocking tun) ∧ t.host = some h ∧ view t = view s := by
  simp only [step, hop, hhost, if_true] at hstep
  obtain rfl := Option.some.inj hstep
  exact ⟨⟨_, rfl⟩, hhost, rfl⟩

theorem step_opNotify {h : HostId} {tun : ℕ} (hop : s.op = .notifying .blocking tun)
    (hhost : s.host = some h) (hstep : step s .opNotify = some t) :
    t.op = .starting .blocking tun ∧ view t = { view s with tunnelUp := true } := by
  simp only [step, hop, hhost] at hstep
  obtain rfl := Option.some.inj hstep
  refine ⟨rfl, ?_⟩
  unfold Manager.onTunReplaced
  split_ifs <;> rfl

theorem step_opStart {tun : ℕ} {started : Bool} (hop : s.op = .starting .blocking tun)
    (hstep : step s (.opStart started) = some t) :
    view t = { view s with tunnelUp := s.tunnelUp && started } := by
  simp only [step, hop] at hstep
  obtain rfl := Option.some.inj hstep
  cases started with
  | true => simp [Manager.muxStarted, view]
  | false =>
    rw [Bool.and_false]
    exact view_closeTun s

section BeginBlocking

variable {h : HostId} (hdown : s.tunnelUp = false) (hmux : s.mux = none) (hhost : s.host = some h)

include hdown hmux hhost

/-- The host throws. -/
theorem view_beginBlocking_failed
    (hrun : run step s [.beginBlocking, .opEstablish false] = some t) :
    view t = (view s).beginBlocking false := by
  rw [run_cons, Option.bind_eq_some_iff] at hrun
  obtain ⟨asked, hasked, hrun⟩ := hrun
  obtain ⟨hop, hhost', hview⟩ := step_beginBlocking hdown hmux hhost hasked
  rw [run_cons, Option.bind_eq_some_iff] at hrun
  obtain ⟨failed, hfailed, hrun⟩ := hrun
  obtain rfl := Option.some.inj hrun
  rw [step_opEstablish_failed hop hhost' hfailed, hview]
  simp [TunnelView.beginBlocking, view, hdown]

/-- The TUN is established, and the mux behind it starts or throws. -/
theorem view_beginBlocking_established (started : Bool)
    (hrun : run step s [.beginBlocking, .opEstablish true, .opNotify, .opStart started] = some t) :
    view t = (view s).beginBlocking started := by
  rw [run_cons, Option.bind_eq_some_iff] at hrun
  obtain ⟨asked, hasked, hrun⟩ := hrun
  obtain ⟨hop, hhost', hview⟩ := step_beginBlocking hdown hmux hhost hasked
  rw [run_cons, Option.bind_eq_some_iff] at hrun
  obtain ⟨established, hestablished, hrun⟩ := hrun
  obtain ⟨⟨tun, hop⟩, hhost', hview'⟩ := step_opEstablish hop hhost' hestablished
  rw [run_cons, Option.bind_eq_some_iff] at hrun
  obtain ⟨notified, hnotified, hrun⟩ := hrun
  obtain ⟨hop, hup⟩ := step_opNotify hop hhost' hnotified
  rw [run_cons, Option.bind_eq_some_iff] at hrun
  obtain ⟨last, hlast, hrun⟩ := hrun
  obtain rfl := Option.some.inj hrun
  have htunnel : notified.tunnelUp = true := congrArg TunnelView.tunnelUp hup
  rw [step_opStart hop hlast, hup, hview', hview, htunnel, Bool.true_and]
  cases started <;> simp [TunnelView.beginBlocking, view, hdown, hhost]

end BeginBlocking

end WindscribeVpn.State.SessionTunnel
