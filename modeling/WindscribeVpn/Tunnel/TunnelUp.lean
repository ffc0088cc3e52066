import WindscribeVpn.Tunnel.TunSession

/-!
# What `tunnelUp` says

`hasTunnel` is the flag `tunnelUp`, and callers raise no blocking interface while it is set.
`Truthful` is what the flag promises whenever the monitor is free: a running mux, an attached host
with a live TUN, and the mux on a descriptor that host holds, which is the live one unless the
notification of a newer TUN is still under way.

`onTunReplaced` takes a missing mux for the first TUN of a session and sets the flag, but an
engine's thread may have established its TUN before `disconnect(None)` and enter the monitor after
it: `not_truthful_late` is that run. `Expected` is the condition under which no step does this, and
`truthful_of_expected` proves the promise for every run whose steps all meet it.
-/

set_option autoImplicit false
set_option relaxedAutoImplicit false

namespace WindscribeVpn.Tunnel.TunnelManager

open Foundations.Runs

/-- The descriptor a mux is on is held by the host: it is the live one, or it is retained until the
notification of the live one is delivered. -/
def Carried (s : Manager) (h : HostId) (m : Mux) : Prop :=
  (s.hosts h).liveTun = some m.tun ∨
    ∃ live k, (s.hosts h).liveTun = some live ∧ (k, m.tun) ∈ (s.hosts h).superseded ∧
      ∃ n ∈ s.inFlight, n.host = h ∧ n.tun = live

/-- What `tunnelUp` promises while the monitor is free. -/
def Truthful (s : Manager) : Prop :=
  s.op = .idle → s.tunnelUp = true →
    ∃ m h, s.mux = some m ∧ m.running = true ∧ s.host = some h ∧ Carried s h m

/-- A notification that `onTunReplaced` applies. -/
def Fresh (s : Manager) (h : HostId) (g : ℕ) : Prop :=
  s.host = some h ∧ s.appliedGeneration < g

instance decidableFresh (s : Manager) (h : HostId) (g : ℕ) : Decidable (Fresh s h g) :=
  inferInstanceAs (Decidable (_ ∧ _))

/-- The steps that set the flag for a TUN some mux is on or about to be started on, and attach a
host only while no TUN is up. -/
def Expected (s : Manager) : Action → Prop
  | .attachHost _ => s.tunnelUp = false
  | .deliver n => Fresh s n.host n.tun → s.mux.isSome = true
  | .opNotify => s.op.raising = true ∨ s.mux.isSome = true
  | _ => True

instance decidableExpected (s : Manager) : (a : Action) → Decidable (Expected s a)
  | .attachHost _ => inferInstanceAs (Decidable (s.tunnelUp = false))
  | .deliver n => inferInstanceAs (Decidable (Fresh s n.host n.tun → s.mux.isSome = true))
  | .opNotify => inferInstanceAs (Decidable (s.op.raising = true ∨ s.mux.isSome = true))
  | .detachHost _ | .connect _ _ | .disconnect _ _ | .onRevoked | .releaseHeldTunnel
  | .beginBlocking | .holdForBlocking _ | .opEstablish _ | .opStart _ | .opEngine _
  | .requestTun _ | .readListener _ | .destroy _ | .startTask _ | .expire _ =>
    inferInstanceAs (Decidable True)

/-- The flag is set only over a mux, or while the thread in the monitor is starting one. -/
def Backed (s : Manager) : Prop :=
  s.tunnelUp = true → s.mux.isSome = true ∨ ∃ r g, s.op = .starting r g

/-! ### Steps -/

theorem backed_of_down {s : Manager} (hdown : s.tunnelUp = false) : Backed s := by
  intro hup
  rw [hdown] at hup
  cases hup

/-- A step that leaves the flag and the mux alone, from a place where no mux is being started. -/
theorem backed_of_same {s s' : Manager} (h : Backed s) (hsame : SameSession s s')
    (hop : ∀ r g, s.op ≠ .starting r g) : Backed s' := by
  intro hup
  rw [hsame.up] at hup
  rw [hsame.mux]
  rcases h hup with hmux | ⟨r, g, hstarting⟩
  · exact Or.inl hmux
  · exact absurd hstarting (hop r g)

theorem backed_disconnect {s : Manager} (h : Backed s) (hold : TunHold) (excludes : Bool)
    (hop : s.op = .idle) : Backed (s.disconnect hold excludes) := by
  have hstopped : SameSession s { s with activeEngine := none } :=
    (sameSession_of_eq rfl rfl)
  cases hold with
  | none => exact backed_of_down (by simp [Manager.disconnect])
  | forHandover =>
    exact backed_of_same h (hstopped.trans (sameSession_exclude _ .excludeForHandover excludes))
      (by simp [hop])
  | forBlocking =>
    exact backed_of_same h (hstopped.trans (sameSession_exclude _ .excludeForBlocking excludes))
      (by simp [hop])

theorem backed_onHoldExpired {s : Manager} (h : Backed s) (blocking : Bool) (hop : s.op = .idle) :
    Backed (s.onHoldExpired blocking) := by
  unfold Manager.onHoldExpired
  split_ifs
  · exact h
  · have hsame : SameSession s { s.cancelHoldWatchdog with
        hold := none, reports := s.reports + 1 } :=
      (sameSession_unheld s).trans (sameSession_of_eq rfl rfl)
    exact backed_of_same h hsame (by simp [hop])
  · exact backed_of_down (by simp)

theorem backed_establishFailed {s : Manager} (h : Backed s) {r : Request}
    (hop : s.op = .requesting r) : Backed (s.establishFailed r) := by
  cases r with
  | first engine | replace engine =>
    exact backed_of_same h (sameSession_of_eq rfl rfl) (by simp [hop])
  | blocking => exact backed_of_down (by simp [Manager.establishFailed])
  | excludeForHandover =>
    exact backed_of_same h (sameSession_finishHold s .excludeForHandover) (by simp [hop])
  | excludeForBlocking =>
    exact backed_of_same h (sameSession_finishHold s .excludeForBlocking) (by simp [hop])
  | excludeConverted =>
    exact backed_of_same h (sameSession_finishHold s .excludeConverted) (by simp [hop])

/-- The thread's own notification is that of a TUN a mux is started on next, or a mux moves onto
it. -/
theorem backed_notified {s : Manager} (hs : Session s) (hexpected : Expected s .opNotify)
    {r : Request} {g : ℕ} {k : HostId} (hop : s.op = .notifying r g) (hhost : s.host = some k) :
    Backed ((s.onTunReplaced k g).notified r g) := by
  obtain ⟨hlt, -, -⟩ := hs.link.notifying r g k hop hhost
  rw [onTunReplaced_fresh hhost hlt]
  intro _
  rcases hexpected with hraising | hmux
  · rw [hop] at hraising
    cases r with
    | first engine | blocking => exact Or.inr ⟨_, g, rfl⟩
    | replace engine | excludeForHandover | excludeForBlocking | excludeConverted =>
      cases hraising
  · left
    rw [(sameSession_notified r g rfl).mux]
    simpa [Manager.releasePreviousTun] using hmux

theorem backed_muxStarted (s : Manager) (r : Request) (g : ℕ) (started : Bool) :
    Backed (s.muxStarted r g started) := by
  unfold Manager.muxStarted
  split_ifs
  · exact fun _ ↦ Or.inl rfl
  · exact backed_of_down (by simp)

theorem backed_delivered {s : Manager} (h : Backed s) {n : Notification}
    (hexpected : Expected s (.deliver n)) :
    Backed { s.onTunReplaced n.host n.tun with inFlight := s.inFlight.erase n } := by
  by_cases hfresh : Fresh s n.host n.tun
  · have hmux : s.mux.isSome = true := hexpected hfresh
    rw [onTunReplaced_fresh hfresh.1 hfresh.2]
    refine fun _ ↦ Or.inl ?_
    simpa [Manager.releasePreviousTun] using hmux
  · have hstale : s.host ≠ some n.host ∨ n.tun ≤ s.appliedGeneration := by
      simpa [Fresh, Classical.or_iff_not_imp_left] using hfresh
    rw [onTunReplaced_stale hstale]
    exact h

theorem backed_step {s s' : Manager} {a : Action} (hs : Session s) (h : Backed s)
    (hexpected : Expected s a) (hstep : step s a = some s') : Backed s' := by
  cases step_move hstep with
  | attachHost => exact backed_of_down hexpected
  | detachHost =>
    unfold Manager.detachHost
    split_ifs
    · exact h
    · exact backed_of_down (by simp [Manager.setHost])
  | @connect engine covers hop =>
    exact backed_of_same h (sameSession_connect s engine covers) (by simp [hop])
  | disconnect hop => exact backed_disconnect h _ _ hop
  | revoked => exact backed_of_down (by simp [Manager.onRevoked])
  | released =>
    unfold Manager.releaseHeldTunnel
    split_ifs
    · exact h
    · exact backed_of_down (by simp)
  | beginBlocking hop => exact backed_of_same h (sameSession_beginBlocking s) (by simp [hop])
  | @holdForBlocking excludes hop =>
    exact backed_of_same h (sameSession_holdForBlocking s excludes) (by simp [hop])
  | established hop =>
    intro hup
    exact Or.inl ((h hup).resolve_right (by simp [hop]))
  | establishFailed hop => exact backed_establishFailed h hop
  | notified hop hhost => exact backed_notified hs hexpected hop hhost
  | muxStarted => exact backed_muxStarted _ _ _ _
  | attached hop => exact backed_of_same h (sameSession_of_eq rfl rfl) (by simp [hop])
  | delivered => exact backed_delivered h hexpected
  | expired _ hop => exact backed_onHoldExpired h _ hop
  | requestTun | listened | unheard | destroyed | startedTask => exact h

/-! ### Runs -/

theorem backed_of_expected {s : Manager} (hreach : Reaches step Expected Manager.initial s) :
    Session s ∧ Backed s := by
  refine hreach.invariant (fun x ↦ Session x ∧ Backed x) ?_
    ⟨session_initial, backed_of_down rfl⟩
  intro a x y hx hexpected hstep
  refine ⟨session_step hx.1 ?_ hstep, backed_step hx.1 hx.2 hexpected hstep⟩
  rintro k rfl
  have hdown : x.tunnelUp = false := hexpected
  cases hmux : x.mux with
  | none => rfl
  | some m =>
    have hup := hx.1.link.mux_up (by rw [hmux]; rfl)
    rw [hdown] at hup
    cases hup

/-- The descriptor of the mux is held by the attached host. -/
theorem Session.carried {s : Manager} (hs : Session s) {h : HostId} {m : Mux}
    (hop : s.op = .idle) (hhost : s.host = some h) (hm : s.mux = some m) : Carried s h m := by
  have hfloor : Floor s s.appliedGeneration := Or.inl ⟨by rw [hm]; rfl, rfl⟩
  obtain ⟨howner, live, hlive, -, hwhere⟩ := hs.link.live_from h _ hhost hfloor
  have hopen := hs.link.open_from h _ hhost hfloor _ howner (Nat.le_refl _)
  have htun := (hs.link.mux_tun m hm).1
  rcases hs.ledger.covered _ h howner with hgone | hcurrent | ⟨k, hentry⟩
  · exact absurd hgone hopen
  · left
    rw [htun]
    exact hcurrent
  · rcases hwhere with rfl | hunder | ⟨r, hr, -⟩
    · exact absurd hentry (hs.ledger.live_current h _ hlive k)
    · right
      rw [← htun] at hentry
      exact ⟨live, k, hlive, hentry, hunder⟩
    · rw [hop] at hr
      cases hr

/-- **The flag tells the truth.** In every run in which a notification is applied only over a mux or
inside the operation that starts one, and a host is attached only while no TUN is up, `tunnelUp` is
set only over a running mux whose descriptor the attached host holds. -/
theorem truthful_of_expected {s : Manager} (hreach : Reaches step Expected Manager.initial s) :
    Truthful s := by
  obtain ⟨hs, hbacked⟩ := backed_of_expected hreach
  intro hop hup
  have hsome : s.mux.isSome = true := (hbacked hup).resolve_right (by simp [hop])
  obtain ⟨m, hm⟩ := Option.isSome_iff_exists.mp hsome
  obtain ⟨h, hhost⟩ := Option.isSome_iff_exists.mp (hs.link.mux_host hsome)
  exact ⟨m, h, hm, (hs.link.mux_tun m hm).2, hhost, hs.carried hop hhost hm⟩

/-- A session that is held for blocking while an engine's thread replaces the TUN under it. -/
def replacedRun : List Action :=
  [.attachHost 0, .connect .openVpn true, .opEstablish true, .opNotify, .opStart true,
    .opEngine .started, .requestTun 0, .readListener ⟨0, 2, false⟩, .deliver ⟨0, 2, true⟩,
    .disconnect .forBlocking true, .opEstablish true, .opNotify]

/-- After `replacedRun` the flag is set, over a running mux on a TUN that the host holds. -/
theorem truthful_of_expected_replaced :
    ∃ s, Reaches step Expected Manager.initial s ∧ s.tunnelUp = true ∧
      ∃ m h, s.mux = some m ∧ m.running = true ∧ s.host = some h ∧ Carried s h m := by
  obtain ⟨s, hreach, hcheck⟩ := exists_reaches_of_run step Expected Manager.initial replacedRun
    (fun s ↦ decide (s.op = .idle ∧ s.tunnelUp = true)) (by decide)
  obtain ⟨hop, hup⟩ := of_decide_eq_true hcheck
  exact ⟨s, hreach, hup, truthful_of_expected hreach hop hup⟩

/-- An engine's thread establishes a TUN, `disconnect(None)` ends the session, and only then does
the notification enter the monitor. -/
def lateRun : List Action :=
  [.attachHost 0, .connect .openVpn true, .opEstablish true, .opNotify, .opStart true,
    .opEngine .started, .requestTun 0, .readListener ⟨0, 2, false⟩, .disconnect .none false,
    .deliver ⟨0, 2, true⟩]

/-- The late notification sets the flag over no mux and no TUN. -/
theorem not_truthful_late : ¬ ∀ s, Reaches step Always Manager.initial s → Truthful s := by
  intro hall
  obtain ⟨s, hreach, hcheck⟩ := exists_reaches_of_run step Always Manager.initial lateRun
    (fun s ↦ decide (s.op = .idle ∧ s.tunnelUp = true ∧ s.mux = none ∧
      (s.hosts 0).liveTun = none)) (by decide)
  obtain ⟨hop, hup, hmux, -⟩ := of_decide_eq_true hcheck
  obtain ⟨m, h, hm, -⟩ := hall s hreach hop hup
  rw [hmux] at hm
  cases hm

end WindscribeVpn.Tunnel.TunnelManager
