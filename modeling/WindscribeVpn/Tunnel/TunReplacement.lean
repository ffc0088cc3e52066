import WindscribeVpn.Tunnel.TunSession

/-!
# Replacing the TUN within a session

Establishing a TUN, notifying the manager and closing the descriptor that was superseded are three
steps of whatever thread called `requestTun`, and any number of such calls may be under way at once.
`OneSession` is the condition of the session: no second host is attached over a first one. Under it
`replacementSound_of_oneSession` proves, for every interleaving, that the mux never moves back to an
older TUN, is never on a descriptor that has been closed, and, once every notification of a host has
been delivered, is on that host's live TUN while everything the host superseded has been closed
exactly once.
-/

set_option autoImplicit false
set_option relaxedAutoImplicit false

namespace WindscribeVpn.Tunnel.TunnelManager

open Foundations.Runs

/-- A host is attached when no other is. -/
def OneSession (s : Manager) : Action → Prop
  | .attachHost _ => s.host = none
  | _ => True

instance decidableOneSession (s : Manager) : (a : Action) → Decidable (OneSession s a)
  | .attachHost _ => inferInstanceAs (Decidable (s.host = none))
  | .detachHost _ | .connect _ _ | .disconnect _ _ | .onRevoked | .releaseHeldTunnel
  | .beginBlocking | .holdForBlocking _ | .opEstablish _ | .opNotify | .opStart _ | .opEngine _
  | .requestTun _ | .readListener _ | .deliver _ | .destroy _ | .startTask _ | .expire _ =>
    inferInstanceAs (Decidable True)

/-- Every notification of a host has been delivered, its own thread's included. -/
def Delivered (s : Manager) (h : HostId) : Prop :=
  s.op = .idle ∧ ∀ n ∈ s.inFlight, n.host ≠ h

/-- What the replacement protocol promises in a state. -/
structure ReplacementSound (s : Manager) : Prop where
  /-- The mux is never moved onto an older TUN. -/
  forward : ∀ later, Reaches step OneSession s later → ∀ m m', s.mux = some m →
    later.mux = some m' → m.tun ≤ m'.tun
  /-- The mux is never on a descriptor that has been closed. -/
  on_open : ∀ m, s.mux = some m → m.tun ∉ s.closed
  /-- No descriptor is closed twice. -/
  closed_once : ∀ g, s.closed.count g ≤ 1
  /-- Once its notifications are delivered, everything a host has superseded is closed. -/
  retired : ∀ h, Delivered s h → (s.hosts h).superseded = [] ∧
    ∀ g, s.owner g = some h → (s.hosts h).liveTun ≠ some g → s.closed.count g = 1
  /-- Once the attached host's notifications are delivered, the mux is on its live TUN. -/
  settled : ∀ h m, s.host = some h → s.mux = some m → Delivered s h →
    (s.hosts h).liveTun = some m.tun

/-! ### The generation that was applied last -/

@[simp] theorem cancel_applied (s : Manager) :
    s.cancelHoldWatchdog.appliedGeneration = s.appliedGeneration := (sameSession_cancel s).applied

@[simp] theorem finishHold_applied (s : Manager) (r : Request) :
    (s.finishHold r).appliedGeneration = s.appliedGeneration := (sameSession_finishHold s r).applied

@[simp] theorem exclude_applied (s : Manager) (r : Request) (excludes : Bool) :
    (s.excludeSelfWhileHolding r excludes).appliedGeneration = s.appliedGeneration :=
  (sameSession_exclude s r excludes).applied

@[simp] theorem connect_applied (s : Manager) (engine : Engine) (covers : Bool) :
    (s.connect engine covers).appliedGeneration = s.appliedGeneration := by
  unfold Manager.connect
  dsimp only
  split
  · simp
  · split_ifs <;> simp

@[simp] theorem disconnect_applied (s : Manager) (hold : TunHold) (excludes : Bool) :
    (s.disconnect hold excludes).appliedGeneration = s.appliedGeneration := by
  cases hold <;> simp [Manager.disconnect]

@[simp] theorem detachHost_applied (s : Manager) (h : HostId) :
    (s.detachHost h).appliedGeneration = s.appliedGeneration := by
  unfold Manager.detachHost
  split_ifs
  · rfl
  · simp [Manager.setHost]

@[simp] theorem onHoldExpired_applied (s : Manager) (blocking : Bool) :
    (s.onHoldExpired blocking).appliedGeneration = s.appliedGeneration := by
  unfold Manager.onHoldExpired
  split_ifs <;> simp

@[simp] theorem establishFailed_applied (s : Manager) (r : Request) :
    (s.establishFailed r).appliedGeneration = s.appliedGeneration := by
  cases r <;> simp [Manager.establishFailed]

@[simp] theorem notified_applied (s : Manager) (r : Request) (g : ℕ) :
    (s.notified r g).appliedGeneration = s.appliedGeneration := by
  cases r <;> simp [Manager.notified]

@[simp] theorem onRevoked_applied (s : Manager) :
    s.onRevoked.appliedGeneration = s.appliedGeneration := by
  simp [Manager.onRevoked]

@[simp] theorem releaseHeldTunnel_applied (s : Manager) :
    s.releaseHeldTunnel.appliedGeneration = s.appliedGeneration := by
  unfold Manager.releaseHeldTunnel
  split_ifs <;> simp

@[simp] theorem beginBlocking_applied (s : Manager) :
    s.beginBlocking.appliedGeneration = s.appliedGeneration := by
  unfold Manager.beginBlocking
  split_ifs
  · rfl
  · split <;> rfl

@[simp] theorem holdForBlocking_applied (s : Manager) (excludes : Bool) :
    (s.holdForBlocking excludes).appliedGeneration = s.appliedGeneration := by
  unfold Manager.holdForBlocking
  split_ifs <;> simp

@[simp] theorem muxStarted_applied (s : Manager) (r : Request) (g : ℕ) (started : Bool) :
    (s.muxStarted r g started).appliedGeneration = s.appliedGeneration := by
  unfold Manager.muxStarted
  split_ifs <;> simp

/-- A notification moves the generation that was applied last forward or not at all. -/
theorem applied_le_onTunReplaced (s : Manager) (h : HostId) (g : ℕ) :
    s.appliedGeneration ≤ (s.onTunReplaced h g).appliedGeneration := by
  unfold Manager.onTunReplaced
  split_ifs with hhost hle
  · exact Nat.le_refl _
  · exact Nat.le_refl _
  · exact Nat.le_of_not_le hle

/-- No step takes the generation that was applied last back. -/
theorem applied_le_step {s s' : Manager} {a : Action} (hstep : step s a = some s') :
    s.appliedGeneration ≤ s'.appliedGeneration := by
  cases step_move hstep with
  | notified =>
    rw [notified_applied]
    exact applied_le_onTunReplaced _ _ _
  | delivered => exact applied_le_onTunReplaced _ _ _
  | requestTun | attachHost | destroyed | startedTask | listened | unheard | established =>
    exact Nat.le_refl _
  | detachHost | connect | disconnect | revoked | released | beginBlocking | holdForBlocking
  | establishFailed | muxStarted | attached | expired => exact Nat.le_of_eq (by simp)

/-! ### The protocol -/

theorem session_of_oneSession {s : Manager} (hreach : Reaches step OneSession Manager.initial s) :
    Session s := by
  refine hreach.invariant Session (fun a x y hx hone hstep ↦ session_step hx ?_ hstep)
    session_initial
  rintro k rfl
  have hhost : x.host = none := hone
  cases hmux : x.mux with
  | none => rfl
  | some m =>
    have hattached := hx.link.mux_host (by rw [hmux]; rfl)
    rw [hhost] at hattached
    cases hattached

/-- The mux is on the generation that was applied last, which no step takes back. -/
theorem mux_forward {s later : Manager} (hs : Session s) (hreach : Reaches step OneSession s later)
    (hlater : Session later) {m m' : Mux} (hm : s.mux = some m) (hm' : later.mux = some m') :
    m.tun ≤ m'.tun := by
  rw [(hs.link.mux_tun m hm).1, (hlater.link.mux_tun m' hm').1]
  exact hreach.invariant (fun x ↦ s.appliedGeneration ≤ x.appliedGeneration)
    (fun _ _ _ hx _ hstep ↦ Nat.le_trans hx (applied_le_step hstep)) (Nat.le_refl _)

/-- A descriptor of a host whose notifications are all delivered is the live one or is closed. -/
theorem Session.retired {s : Manager} (hs : Session s) {h : HostId} (hdelivered : Delivered s h) :
    (s.hosts h).superseded = [] ∧
      ∀ g, s.owner g = some h → (s.hosts h).liveTun ≠ some g → s.closed.count g = 1 := by
  obtain ⟨hop, hflight⟩ := hdelivered
  have hnone : ∀ k p, (k, p) ∉ (s.hosts h).superseded := by
    intro k p hentry
    rcases hs.link.keys h k p hentry with ⟨n, hn, hnh, -⟩ | ⟨r, hr, -⟩
    · exact hflight n hn hnh
    · rw [hop] at hr
      cases hr
  refine ⟨List.eq_nil_iff_forall_not_mem.mpr fun entry ↦ hnone entry.1 entry.2, fun g hg hlive ↦ ?_⟩
  rcases hs.ledger.covered g h hg with hgone | hcurrent | ⟨k, hentry⟩
  · exact List.count_eq_one_of_mem hs.ledger.closed_nodup hgone
  · exact absurd hcurrent hlive
  · exact absurd hentry (hnone k g)

/-- The mux of the attached host is on its live TUN unless a notification is under way. -/
theorem Session.settled {s : Manager} (hs : Session s) {h : HostId} {m : Mux}
    (hhost : s.host = some h) (hm : s.mux = some m) (hdelivered : Delivered s h) :
    (s.hosts h).liveTun = some m.tun := by
  obtain ⟨hop, hflight⟩ := hdelivered
  have hfloor : Floor s s.appliedGeneration := Or.inl ⟨by rw [hm]; rfl, rfl⟩
  obtain ⟨-, live, hlive, -, hwhere⟩ := hs.link.live_from h _ hhost hfloor
  rw [(hs.link.mux_tun m hm).1, hlive]
  rcases hwhere with rfl | ⟨n, hn, hnh, -⟩ | ⟨r, hr, -⟩
  · rfl
  · exact absurd hnh (hflight n hn)
  · rw [hop] at hr
    cases hr

/-- The mux is on a descriptor that is open. -/
theorem Session.on_open {s : Manager} (hs : Session s) {m : Mux} (hm : s.mux = some m) :
    m.tun ∉ s.closed := by
  have hsome : s.mux.isSome = true := by
    rw [hm]
    rfl
  obtain ⟨h, hhost⟩ := Option.isSome_iff_exists.mp (hs.link.mux_host hsome)
  have hfloor : Floor s s.appliedGeneration := Or.inl ⟨hsome, rfl⟩
  obtain ⟨howner, -⟩ := hs.link.live_from h _ hhost hfloor
  rw [(hs.link.mux_tun m hm).1]
  exact hs.link.open_from h _ hhost hfloor _ howner (Nat.le_refl _)

/-- **The replacement protocol.** Whatever the order in which TUNs are established and their
notifications delivered, within a session the mux only moves forward, is never on a closed
descriptor, and ends on the live TUN with everything superseded closed exactly once. -/
theorem replacementSound_of_oneSession {s : Manager}
    (hreach : Reaches step OneSession Manager.initial s) : ReplacementSound s := by
  have hs := session_of_oneSession hreach
  refine ⟨fun later hlater m m' hm hm' ↦ ?_, fun m hm ↦ hs.on_open hm, fun g ↦ ?_,
    fun h hdelivered ↦ hs.retired hdelivered,
    fun h m hhost hm hdelivered ↦ hs.settled hhost hm hdelivered⟩
  · exact mux_forward hs hlater (session_of_oneSession (hreach.trans hlater)) hm hm'
  · exact List.nodup_iff_count_le_one.mp hs.ledger.closed_nodup g

/-- Two replacements are under way at once and are delivered newest first. -/
def reorderedRun : List Action :=
  [.attachHost 0, .connect .openVpn true, .opEstablish true, .opNotify, .opStart true,
    .opEngine .started, .requestTun 0, .requestTun 0, .readListener ⟨0, 2, false⟩,
    .readListener ⟨0, 3, false⟩, .deliver ⟨0, 3, true⟩, .deliver ⟨0, 2, true⟩]

/-- After `reorderedRun` the mux is on the third TUN, which is the live one, and the two before it
have each been closed once. -/
theorem replacementSound_of_oneSession_reordered :
    ∃ s, Reaches step OneSession Manager.initial s ∧ s.mux = some ⟨3, true⟩ ∧
      (s.hosts 0).liveTun = some 3 ∧ s.closed.count 1 = 1 ∧ s.closed.count 2 = 1 := by
  obtain ⟨s, hreach, hcheck⟩ := exists_reaches_of_run step OneSession Manager.initial reorderedRun
    (fun s ↦ decide (s.mux = some ⟨3, true⟩ ∧ s.host = some 0 ∧ s.op = .idle ∧ s.inFlight = [] ∧
      s.owner 1 = some 0 ∧ s.owner 2 = some 0)) (by decide)
  obtain ⟨hmux, hhost, hop, hflight, hfirst, hsecond⟩ := of_decide_eq_true hcheck
  have hsound := replacementSound_of_oneSession hreach
  have hdelivered : Delivered s 0 := ⟨hop, by simp [hflight]⟩
  have hlive := hsound.settled 0 _ hhost hmux hdelivered
  have hretired := (hsound.retired 0 hdelivered).2
  exact ⟨s, hreach, hmux, hlive, hretired 1 hfirst (by simp [hlive]),
    hretired 2 hsecond (by simp [hlive])⟩

end WindscribeVpn.Tunnel.TunnelManager
