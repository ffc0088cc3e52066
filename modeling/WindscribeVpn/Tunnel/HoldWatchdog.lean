import WindscribeVpn.Tunnel.TunSession

/-!
# The hold watchdog

`disconnect(ForHandover)` arms a task that drops the TUN, or reports it, when no engine has come for
it in time. `ActsOnOwnHold` is what the watchdog promises at every moment a started task is let into
the monitor: `onHoldExpired` does something only while the TUN is still in the hold that armed this
very task.

Nothing in `onHoldExpired` names a hold, and the cancelling is incomplete in two ways.
`disconnect(None)` ends a hold without cancelling, so that the task finds the TUN `beginBlocking`
has raised since (`not_actsOnOwnHold_blocking`); and a task that has started and waits for the
monitor cannot be cancelled any more, so that it finds the TUN `holdForBlocking` keeps
(`not_actsOnOwnHold_converted`). `Recalled` is the condition under which neither happens, and
`actsOnOwnHold_of_recalled` proves the promise for every run whose steps all meet it.
-/

set_option autoImplicit false
set_option relaxedAutoImplicit false

namespace WindscribeVpn.Tunnel.TunnelManager

open Foundations.Runs

/-- What the watchdog promises: a task that is let into the monitor does something only to the hold
that armed it. -/
def ActsOnOwnHold (s : Manager) : Prop :=
  s.op = .idle → ∀ t, s.executing = some t → ∀ blocking, s.onHoldExpired blocking ≠ s →
    s.hold = some t

/-- The task of the last armed watchdog has not started yet. -/
def Manager.awaited (s : Manager) : Bool :=
  match s.holdExpiry with
  | none => false
  | some t => s.tasks t = .scheduled

/-- No task can still expire. -/
def Manager.unwatched (s : Manager) : Bool := s.executing.isNone && !s.awaited

/-- The request of a thread that is in `connect`. -/
def Request.connects : Request → Bool
  | .first _ | .replace _ => true
  | _ => false

/-- The condition of the watchdog. An operation that ends or replaces a hold and keeps the TUN up
with no engine does so before the task of that hold has started, and a TUN is raised with no engine
only when no task can still expire. -/
def Recalled (s : Manager) : Action → Prop
  | .disconnect .forHandover _ | .disconnect .forBlocking _ => s.executing = none
  | .holdForBlocking _ => s.executing = none
  | .opEstablish false =>
    match s.op with
    | .requesting .blocking => True
    | _ => s.executing = none
  | .opNotify =>
    match s.op with
    | .notifying .excludeForHandover _ | .notifying .excludeForBlocking _ => s.executing = none
    | _ => True
  | .opStart true =>
    match s.op with
    | .starting (.first _) _ => True
    | _ => s.unwatched = true
  | .opEngine outcome => outcome = .started ∨ s.executing = none
  | .deliver n =>
    s.host = some n.host ∧ s.appliedGeneration < n.tun ∧ s.tunnelUp = false ∧
      s.activeEngine = none → s.unwatched = true
  | _ => True

instance decidableRecalled (s : Manager) (a : Action) : Decidable (Recalled s a) := by
  unfold Recalled
  split <;> try infer_instance
  all_goals split <;> infer_instance

/-! ### The tasks -/

/-- The watchdog's bookkeeping: a scheduled task is the one last armed, and a started one is the one
that waits for the monitor. -/
structure Tasks (s : Manager) : Prop where
  scheduled : ∀ t, s.tasks t = .scheduled → s.holdExpiry = some t
  started : ∀ t, s.tasks t = .started ↔ s.executing = some t
  unused : ∀ t, s.nextTask ≤ t → s.tasks t = .unused

/-- A task that can still expire. -/
def Pending (s : Manager) (t : TaskId) : Prop := s.tasks t = .scheduled ∨ s.tasks t = .started

theorem cancel_tasks (s : Manager) (t : TaskId) :
    s.cancelHoldWatchdog.tasks t =
      if s.holdExpiry = some t ∧ s.tasks t = .scheduled then .cancelled else s.tasks t := by
  unfold Manager.cancelHoldWatchdog
  split
  · rename_i hnone
    simp [hnone]
  · rename_i t₀ hsome
    by_cases hscheduled : s.tasks t₀ = .scheduled
    · simp only [hscheduled, if_true, Function.update_apply, hsome]
      by_cases ht : t = t₀
      · simp [ht, hscheduled]
      · simp [ht, Ne.symm ht]
    · simp only [hscheduled, if_false, hsome]
      by_cases ht : t = t₀
      · simp [ht, hscheduled]
      · simp [Ne.symm ht]

@[simp] theorem cancel_executing (s : Manager) :
    s.cancelHoldWatchdog.executing = s.executing := by
  unfold Manager.cancelHoldWatchdog
  split <;> rfl

@[simp] theorem cancel_nextTask (s : Manager) : s.cancelHoldWatchdog.nextTask = s.nextTask := by
  unfold Manager.cancelHoldWatchdog
  split <;> rfl

/-- Cancelling leaves no task scheduled. -/
theorem Tasks.cancel_scheduled {s : Manager} (h : Tasks s) (t : TaskId) :
    s.cancelHoldWatchdog.tasks t ≠ .scheduled := by
  rw [cancel_tasks]
  split_ifs with hcancelled
  · simp
  · exact fun hscheduled ↦ hcancelled ⟨h.scheduled t hscheduled, hscheduled⟩

theorem tasks_cancel {s : Manager} (h : Tasks s) : Tasks s.cancelHoldWatchdog := by
  refine ⟨fun t hscheduled ↦ absurd hscheduled (h.cancel_scheduled t), fun t ↦ ?_, fun t ht ↦ ?_⟩
  · rw [cancel_tasks, cancel_executing, ← h.started]
    split_ifs with hcancelled
    · simp [hcancelled.2]
    · rfl
  · rw [cancel_nextTask] at ht
    rw [cancel_tasks, h.unused t ht]
    simp

theorem tasks_arm {s : Manager} (h : Tasks s) : Tasks s.armHoldWatchdog := by
  have hcancel := tasks_cancel h
  have hnext : s.cancelHoldWatchdog.tasks s.nextTask = .unused :=
    hcancel.unused _ (Nat.le_of_eq (cancel_nextTask s))
  refine ⟨fun t hscheduled ↦ ?_, fun t ↦ ?_, fun t ht ↦ ?_⟩
  · simp only [Manager.armHoldWatchdog, Function.update_apply] at hscheduled ⊢
    split_ifs at hscheduled with ht
    · rw [ht]
    · exact absurd hscheduled (h.cancel_scheduled t)
  · simp only [Manager.armHoldWatchdog, Function.update_apply]
    rw [← hcancel.started]
    split_ifs with ht
    · simp [ht, hnext]
    · rfl
  · simp only [Manager.armHoldWatchdog, Function.update_apply] at ht ⊢
    rw [if_neg (Nat.ne_of_gt ht)]
    exact hcancel.unused t (by rw [cancel_nextTask]; exact Nat.le_of_succ_le ht)

/-- Once armed, only the new task can expire, if none had started. -/
theorem pending_arm {s : Manager} (h : Tasks s) (hnone : s.executing = none) {t : TaskId}
    (hpending : Pending s.armHoldWatchdog t) : t = s.nextTask := by
  by_contra hne
  have htask : s.armHoldWatchdog.tasks t = s.cancelHoldWatchdog.tasks t := by
    simp [Manager.armHoldWatchdog, hne]
  rcases hpending with hscheduled | hstarted
  · rw [htask] at hscheduled
    exact h.cancel_scheduled t hscheduled
  · rw [htask, (tasks_cancel h).started, cancel_executing, hnone] at hstarted
    cases hstarted

/-- Once cancelled, no task can expire, if none had started. -/
theorem not_pending_cancel {s : Manager} (h : Tasks s) (hnone : s.executing = none) (t : TaskId) :
    ¬ Pending s.cancelHoldWatchdog t := by
  rintro (hscheduled | hstarted)
  · exact h.cancel_scheduled t hscheduled
  · rw [(tasks_cancel h).started, cancel_executing, hnone] at hstarted
    cases hstarted

theorem Tasks.not_pending {s : Manager} (h : Tasks s) (hunwatched : s.unwatched = true)
    (t : TaskId) : ¬ Pending s t := by
  simp only [Manager.unwatched, Bool.and_eq_true, Option.isNone_iff_eq_none,
    Bool.not_eq_true'] at hunwatched
  obtain ⟨hnone, hawaited⟩ := hunwatched
  rintro (hscheduled | hstarted)
  · simp [Manager.awaited, h.scheduled t hscheduled, hscheduled] at hawaited
  · rw [h.started, hnone] at hstarted
    cases hstarted

/-! ### The hold -/

/-- The TUN is up with no engine: an expiring task would act on it. -/
def Exposed (s : Manager) : Prop := s.tunnelUp = true ∧ s.activeEngine = none

/-- What a thread that requests a TUN knows of the tasks. -/
def WatchedRequest (s : Manager) : Request → Prop
  | .first _ | .replace _ => ∀ t, s.tasks t ≠ .scheduled
  | .excludeConverted => ∀ t, ¬ Pending s t
  | .blocking | .excludeForHandover | .excludeForBlocking => True

/-- What is known of the tasks at each place of the thread in the monitor. While the monitor is
free, a task that can still expire and would act is that of the current hold. -/
def Watched (s : Manager) : Prop :=
  match s.op with
  | .idle => ∀ t, Pending s t → Exposed s → s.hold = some t
  | .requesting r | .notifying r _ | .starting r _ => WatchedRequest s r
  | .attaching _ => ∀ t, s.tasks t ≠ .scheduled

/-- A step that gives no task the chance to expire and leaves the hold and the TUN alone. -/
theorem Watched.mono {s s' : Manager} (h : Watched s) (hop : s'.op = s.op)
    (hscheduled : ∀ t, s'.tasks t = .scheduled → s.tasks t = .scheduled)
    (hpending : ∀ t, Pending s' t → Pending s t) (hexposed : Exposed s' → Exposed s)
    (hhold : s'.hold = s.hold) : Watched s' := by
  have hrequest : ∀ r, WatchedRequest s r → WatchedRequest s' r := by
    intro r hr
    cases r with
    | first engine | replace engine => exact fun t ht ↦ hr t (hscheduled t ht)
    | excludeConverted => exact fun t ht ↦ hr t (hpending t ht)
    | blocking | excludeForHandover | excludeForBlocking => trivial
  unfold Watched at h ⊢
  rw [hop]
  split at h
  · rw [hhold]
    exact fun t ht hup ↦ h t (hpending t ht) (hexposed hup)
  · exact hrequest _ h
  · exact hrequest _ h
  · exact hrequest _ h
  · exact fun t ht ↦ h t (hscheduled t ht)

/-- The invariant of the watchdog. -/
structure Watch (s : Manager) : Prop where
  tasks : Tasks s
  up_host : s.tunnelUp = true → s.host.isSome = true
  watched : Watched s

theorem watched_idle {s : Manager} (hop : s.op = .idle)
    (hhold : ∀ t, Pending s t → Exposed s → s.hold = some t) : Watched s := by
  unfold Watched
  rw [hop]
  exact hhold

/-- The monitor is left with no TUN up. -/
theorem watched_down {s : Manager} (hop : s.op = .idle) (hdown : s.tunnelUp = false) :
    Watched s := by
  refine watched_idle hop fun t _ hexposed ↦ ?_
  rw [hexposed.1] at hdown
  cases hdown

/-- The monitor is left with no task that can expire. -/
theorem watched_unwatched {s : Manager} (hop : s.op = .idle) (hnone : ∀ t, ¬ Pending s t) :
    Watched s :=
  watched_idle hop fun t hpending ↦ absurd hpending (hnone t)

/-- Two states that agree on what the watchdog is about. -/
structure SameWatch (s s' : Manager) : Prop where
  tasks : s'.tasks = s.tasks
  holdExpiry : s'.holdExpiry = s.holdExpiry
  executing : s'.executing = s.executing
  nextTask : s'.nextTask = s.nextTask

theorem SameWatch.of_eq {s s' : Manager}
    (hwatch : (s'.tasks, s'.holdExpiry, s'.executing, s'.nextTask) =
      (s.tasks, s.holdExpiry, s.executing, s.nextTask)) : SameWatch s s' := by
  simp only [Prod.mk.injEq] at hwatch
  obtain ⟨htasks, hexpiry, hexecuting, hnext⟩ := hwatch
  exact ⟨htasks, hexpiry, hexecuting, hnext⟩

theorem Tasks.congr {s s' : Manager} (h : Tasks s) (hsame : SameWatch s s') : Tasks s' := by
  refine ⟨?_, ?_, ?_⟩
  · rw [hsame.tasks, hsame.holdExpiry]
    exact h.scheduled
  · rw [hsame.tasks, hsame.executing]
    exact h.started
  · rw [hsame.tasks, hsame.nextTask]
    exact h.unused

theorem sameWatch_closeTun (s : Manager) : SameWatch s s.closeTun := by
  unfold Manager.closeTun
  split_ifs
  · split <;> exact .of_eq rfl
  · exact .of_eq rfl

/-- A TUN that is closed with the session ends every hold. -/
theorem watch_closed {s : Manager} (htasks : Tasks s) (hop : s.op = .idle)
    (hdown : s.tunnelUp = false) : Watch s :=
  ⟨htasks, by rw [hdown]; simp, watched_down hop hdown⟩

/-- The end of a hold that the thread in the monitor has finished excluding our own package for. -/
theorem watch_finishHold {s : Manager} (h : Tasks s)
    (hup : s.tunnelUp = true → s.host.isSome = true)
    (r : Request) (hr : r.connects = false) (hblocking : r ≠ .blocking)
    (hnone : r ≠ .excludeConverted → s.executing = none)
    (hconverted : r = .excludeConverted → ∀ t, ¬ Pending s t) : Watch (s.finishHold r) := by
  have hsame := sameSession_finishHold s r
  refine ⟨?_, by rw [hsame.up, hsame.host]; exact hup, ?_⟩
  · cases r with
    | excludeForHandover => exact (tasks_arm h).congr (.of_eq rfl)
    | excludeForBlocking => exact (tasks_cancel h).congr (.of_eq rfl)
    | excludeConverted | first _ | replace _ | blocking => exact h.congr (.of_eq rfl)
  · cases r with
    | first _ | replace _ => cases hr
    | blocking => exact absurd rfl hblocking
    | excludeForHandover =>
      refine watched_idle rfl fun t hpending hexposed ↦ ?_
      have ht := pending_arm h (hnone (by simp)) hpending
      have hup' : s.tunnelUp = true := by
        rw [← hsame.up]
        exact hexposed.1
      simp [Manager.finishHold, Manager.armHoldWatchdog, hup', ht]
    | excludeForBlocking =>
      exact watched_unwatched rfl (not_pending_cancel h (hnone (by simp)))
    | excludeConverted => exact watched_unwatched rfl (hconverted rfl)

/-! ### Steps -/

/-- A step that leaves the tasks, the hold, the flag and the engine alone. -/
theorem watch_quiet {s s' : Manager} (h : Watch s) (hsame : SameWatch s s')
    (hhost : s.host.isSome = true → s'.host.isSome = true)
    (hrest : (s'.tunnelUp, s'.activeEngine, s'.hold, s'.op) =
      (s.tunnelUp, s.activeEngine, s.hold, s.op)) : Watch s' := by
  simp only [Prod.mk.injEq] at hrest
  obtain ⟨hup, hengine, hhold, hop⟩ := hrest
  refine ⟨h.tasks.congr hsame, fun hup' ↦ hhost (h.up_host (hup ▸ hup')), ?_⟩
  refine h.watched.mono hop (fun t ↦ ?_) (fun t ↦ ?_) ?_ hhold
  · rw [hsame.tasks]
    exact id
  · unfold Pending
    rw [hsame.tasks]
    exact id
  · unfold Exposed
    rw [hup, hengine]
    exact id

/-- `excludeSelfWhileHolding` stops at its `requestTun` or finishes the hold. -/
theorem watch_exclude {s : Manager} (h : Tasks s) (hup : s.tunnelUp = true → s.host.isSome = true)
    (r : Request) (hr : r.connects = false) (hblocking : r ≠ .blocking)
    (hnone : r ≠ .excludeConverted → s.executing = none)
    (hconverted : r = .excludeConverted → ∀ t, ¬ Pending s t) (excludes : Bool) :
    Watch (s.excludeSelfWhileHolding r excludes) := by
  have hfinished := watch_finishHold h hup r hr hblocking hnone hconverted
  unfold Manager.excludeSelfWhileHolding
  split
  · exact hfinished
  · split_ifs
    · refine ⟨h.congr (.of_eq rfl), hup, ?_⟩
      cases r with
      | first _ | replace _ => cases hr
      | excludeConverted => exact hconverted rfl
      | blocking | excludeForHandover | excludeForBlocking => trivial
    · exact hfinished

theorem watch_connect {s : Manager} (h : Watch s) (engine : Engine) (covers : Bool)
    (hop : s.op = .idle) : Watch (s.connect engine covers) := by
  have hcancel := tasks_cancel h.tasks
  unfold Manager.connect
  dsimp only
  split
  · rename_i hhost
    refine watch_closed (hcancel.congr (.of_eq rfl)) (by simp [hop]) ?_
    rw [Bool.eq_false_iff]
    intro htunnel
    simp only [(sameSession_cancel s).up] at htunnel
    have hattached := h.up_host htunnel
    rw [hhost] at hattached
    cases hattached
  · rename_i k hhost
    have hattached : s.cancelHoldWatchdog.host.isSome = true := by
      rw [(sameSession_cancel s).host, hhost]
      rfl
    split_ifs <;> exact ⟨hcancel.congr (.of_eq rfl), fun _ ↦ hattached,
      fun t ↦ h.tasks.cancel_scheduled t⟩

theorem watch_disconnect {s : Manager} (h : Watch s) (hold : TunHold) (excludes : Bool)
    (hop : s.op = .idle) (hrecalled : Recalled s (.disconnect hold excludes)) :
    Watch (s.disconnect hold excludes) := by
  have hstopped : Tasks { s with activeEngine := none } := h.tasks.congr (.of_eq rfl)
  cases hold with
  | none =>
    refine watch_closed ?_ (by simp [Manager.disconnect, hop]) (by simp [Manager.disconnect])
    have hclosed := sameWatch_closeTun { s with activeEngine := none, mux := none }
    exact (h.tasks.congr (.of_eq rfl)).congr
      ⟨hclosed.tasks, hclosed.holdExpiry, hclosed.executing, hclosed.nextTask⟩
  | forHandover =>
    exact watch_exclude hstopped h.up_host .excludeForHandover rfl (by simp)
      (fun _ ↦ hrecalled) (by simp) excludes
  | forBlocking =>
    exact watch_exclude hstopped h.up_host .excludeForBlocking rfl (by simp)
      (fun _ ↦ hrecalled) (by simp) excludes

theorem watch_holdForBlocking {s : Manager} (h : Watch s) (excludes : Bool)
    (hrecalled : Recalled s (.holdForBlocking excludes)) : Watch (s.holdForBlocking excludes) := by
  have hsame := sameSession_unheld s
  unfold Manager.holdForBlocking
  split_ifs
  · exact h
  · refine watch_exclude (s := { s.cancelHoldWatchdog with hold := none })
      ((tasks_cancel h.tasks).congr (.of_eq rfl)) ?_ .excludeConverted rfl (by simp)
      (by simp)
      (fun _ ↦ not_pending_cancel h.tasks hrecalled) excludes
    rw [hsame.up, hsame.host]
    exact h.up_host

/-- What the thread in the monitor knows once `requestTun` has thrown. -/
theorem watch_establishFailed {s : Manager} (h : Watch s) {r : Request}
    (hop : s.op = .requesting r) (hrecalled : Recalled s (.opEstablish false)) :
    Watch (s.establishFailed r) := by
  have hwatched := h.watched
  simp only [Watched, WatchedRequest, hop] at hwatched
  simp only [Recalled, hop] at hrecalled
  cases r with
  | first engine | replace engine =>
    refine ⟨h.tasks.congr (.of_eq rfl), h.up_host, watched_unwatched rfl ?_⟩
    rintro t (hscheduled | hstarted)
    · exact hwatched t hscheduled
    · have hexecuting := (h.tasks.started t).mp hstarted
      rw [hrecalled] at hexecuting
      cases hexecuting
  | blocking =>
    exact watch_closed ((h.tasks.congr (sameWatch_closeTun s)).congr (.of_eq rfl)) rfl
      (by simp [Manager.establishFailed])
  | excludeForHandover =>
    exact watch_finishHold h.tasks h.up_host .excludeForHandover rfl (by simp)
      (fun _ ↦ hrecalled) (by simp)
  | excludeForBlocking =>
    exact watch_finishHold h.tasks h.up_host .excludeForBlocking rfl (by simp)
      (fun _ ↦ hrecalled) (by simp)
  | excludeConverted =>
    exact watch_finishHold h.tasks h.up_host .excludeConverted rfl (by simp) (by simp)
      (fun _ ↦ hwatched)

/-- A notification leaves the watchdog alone. -/
theorem sameWatch_onTunReplaced (s : Manager) (k : HostId) (g : ℕ) :
    SameWatch s (s.onTunReplaced k g) := by
  unfold Manager.onTunReplaced
  split_ifs <;> exact .of_eq rfl

@[simp] theorem onTunReplaced_host (s : Manager) (k : HostId) (g : ℕ) :
    (s.onTunReplaced k g).host = s.host := by
  unfold Manager.onTunReplaced
  split_ifs <;> rfl

theorem watch_notified {s : Manager} (h : Watch s) (hrecalled : Recalled s .opNotify)
    {r : Request} {g : ℕ} {k : HostId} (hop : s.op = .notifying r g) (hhost : s.host = some k) :
    Watch ((s.onTunReplaced k g).notified r g) := by
  have hwatched := h.watched
  simp only [Watched, WatchedRequest, hop] at hwatched
  simp only [Recalled, hop] at hrecalled
  have hsame := sameWatch_onTunReplaced s k g
  have htasks : Tasks (s.onTunReplaced k g) := h.tasks.congr hsame
  have hattached : (s.onTunReplaced k g).host.isSome = true := by
    rw [onTunReplaced_host, hhost]
    rfl
  have hup : (s.onTunReplaced k g).tunnelUp = true →
      (s.onTunReplaced k g).host.isSome = true := fun _ ↦ hattached
  cases r with
  | first engine | replace engine =>
    refine ⟨htasks.congr (.of_eq rfl), fun _ ↦ hattached, fun t ↦ ?_⟩
    change (s.onTunReplaced k g).tasks t ≠ .scheduled
    rw [hsame.tasks]
    exact hwatched t
  | blocking => exact ⟨htasks.congr (.of_eq rfl), fun _ ↦ hattached, trivial⟩
  | excludeForHandover =>
    exact watch_finishHold htasks hup .excludeForHandover rfl (by simp)
      (fun _ ↦ hsame.executing.trans hrecalled) (by simp)
  | excludeForBlocking =>
    exact watch_finishHold htasks hup .excludeForBlocking rfl (by simp)
      (fun _ ↦ hsame.executing.trans hrecalled) (by simp)
  | excludeConverted =>
    refine watch_finishHold htasks hup .excludeConverted rfl (by simp) (by simp) fun _ t ↦ ?_
    unfold Pending
    rw [hsame.tasks]
    exact hwatched t

theorem watch_muxStarted {s : Manager} (h : Watch s) {r : Request} {g : ℕ} {started : Bool}
    (hrecalled : Recalled s (.opStart started)) (hop : s.op = .starting r g) :
    Watch (s.muxStarted r g started) := by
  unfold Manager.muxStarted
  split_ifs with hstarted
  · subst hstarted
    simp only [Recalled, hop] at hrecalled
    have hwatched := h.watched
    simp only [Watched, WatchedRequest, hop] at hwatched
    cases r with
    | first engine => exact ⟨h.tasks.congr (.of_eq rfl), h.up_host, hwatched⟩
    | replace engine | blocking | excludeForHandover | excludeForBlocking | excludeConverted =>
      exact ⟨h.tasks.congr (.of_eq rfl), h.up_host,
        watched_unwatched rfl (h.tasks.not_pending hrecalled)⟩
  · exact watch_closed ((h.tasks.congr (sameWatch_closeTun s)).congr (.of_eq rfl)) rfl (by simp)

/-- The engine ends the `connect`. -/
theorem watch_attached {s : Manager} (h : Watch s) {engine : Engine} {outcome : EngineOutcome}
    (hrecalled : Recalled s (.opEngine outcome)) (hop : s.op = .attaching engine) :
    Watch { s with
      activeEngine := if outcome = .started then some engine else none, op := .idle } := by
  have hwatched := h.watched
  simp only [Watched, hop] at hwatched
  refine ⟨h.tasks.congr (.of_eq rfl), h.up_host, watched_idle rfl ?_⟩
  rintro t hpending ⟨-, hengine⟩
  rcases hrecalled with rfl | hnone
  · simp at hengine
  · rcases hpending with hscheduled | hstarted
    · exact absurd hscheduled (hwatched t)
    · rw [show s.tasks t = .started ↔ _ from h.tasks.started t, hnone] at hstarted
      cases hstarted

theorem watch_delivered {s : Manager} (h : Watch s) {n : Notification}
    (hrecalled : Recalled s (.deliver n)) (hop : s.op = .idle) :
    Watch { s.onTunReplaced n.host n.tun with inFlight := s.inFlight.erase n } := by
  by_cases hstale : s.host ≠ some n.host ∨ n.tun ≤ s.appliedGeneration
  · rw [onTunReplaced_stale hstale]
    exact watch_quiet h (.of_eq rfl) id rfl
  · obtain ⟨hhost, hlt⟩ : s.host = some n.host ∧ s.appliedGeneration < n.tun := by
      simpa using hstale
    rw [onTunReplaced_fresh hhost hlt]
    refine ⟨h.tasks.congr (.of_eq rfl), fun _ ↦ ?_, watched_idle hop ?_⟩
    · change s.host.isSome = true
      rw [hhost]
      rfl
    · rintro t hpending ⟨-, hengine⟩
      have hwatched := h.watched
      simp only [Watched, hop] at hwatched
      cases hup : s.tunnelUp with
      | true => exact hwatched t hpending ⟨hup, hengine⟩
      | false =>
        exact absurd hpending (h.tasks.not_pending (hrecalled ⟨hhost, hlt, hup, hengine⟩) t)

/-- A task that starts can expire as before. -/
theorem watch_startedTask {s : Manager} (h : Watch s) {t : TaskId}
    (hscheduled : s.tasks t = .scheduled) (hnone : s.executing = none) :
    Watch { s with executing := some t, tasks := Function.update s.tasks t .started } := by
  obtain ⟨⟨hsc, hst, hun⟩, hup, hwatched⟩ := h
  have hother : ∀ x, x ≠ t → s.tasks x ≠ .scheduled := by
    intro x hx hxs
    exact hx (Option.some.inj ((hsc x hxs).symm.trans (hsc t hscheduled)))
  have hpending : ∀ x, Pending { s with
      executing := some t, tasks := Function.update s.tasks t .started } x → Pending s x := by
    intro x hx
    by_cases hxt : x = t
    · exact Or.inl (hxt ▸ hscheduled)
    · simpa [Pending, hxt] using hx
  have hscheduled' : ∀ x, Function.update s.tasks t TaskState.started x ≠ .scheduled := by
    intro x
    by_cases hxt : x = t
    · simp [hxt]
    · simpa [hxt] using hother x hxt
  refine ⟨⟨fun x hx ↦ absurd hx (hscheduled' x), fun x ↦ ?_, fun x hx ↦ ?_⟩, hup, ?_⟩
  · by_cases hxt : x = t
    · simp [hxt]
    · simp only [ne_eq, hxt, not_false_eq_true, Function.update_of_ne, hst, hnone]
      simp [Ne.symm hxt]
  · have hxt : x ≠ t := by
      rintro rfl
      rw [hun x hx] at hscheduled
      cases hscheduled
    simpa [hxt] using hun x hx
  · exact hwatched.mono rfl (fun x hx ↦ absurd hx (hscheduled' x)) hpending id rfl

/-- The task that was let into the monitor is done. -/
def Manager.finishTask (s : Manager) (t : TaskId) : Manager :=
  { s with executing := none, tasks := Function.update s.tasks t .done }

theorem tasks_finishTask {s : Manager} (h : Tasks s) {t : TaskId}
    (hexecuting : s.executing = some t) :
    Tasks (s.finishTask t) := by
  have hstarted := (h.started t).mpr hexecuting
  refine ⟨fun x hx ↦ ?_, fun x ↦ ?_, fun x hx ↦ ?_⟩
  · by_cases hxt : x = t
    · simp [Manager.finishTask, hxt] at hx
    · exact h.scheduled x (by simpa [Manager.finishTask, hxt] using hx)
  · by_cases hxt : x = t
    · simp [Manager.finishTask, hxt]
    · simp only [Manager.finishTask, ne_eq, hxt, not_false_eq_true, Function.update_of_ne,
        h.started, hexecuting]
      simp [Ne.symm hxt]
  · have hxt : x ≠ t := by
      rintro rfl
      rw [h.unused x hx] at hstarted
      cases hstarted
    simpa [Manager.finishTask, hxt] using h.unused x hx

/-- What can still expire after the task is done is scheduled. -/
theorem pending_finishTask {s : Manager} (h : Tasks s) {t : TaskId}
    (hexecuting : s.executing = some t)
    {x : TaskId} (hpending : Pending (s.finishTask t) x) : s.tasks x = .scheduled := by
  have hxt : x ≠ t := by
    rintro rfl
    simp [Pending, Manager.finishTask] at hpending
  have hbefore : Pending s x := by simpa [Pending, Manager.finishTask, hxt] using hpending
  rcases hbefore with hscheduled | hstarted
  · exact hscheduled
  · rw [h.started, hexecuting] at hstarted
    exact absurd (Option.some.inj hstarted).symm hxt

/-- The task that was let in finds nothing to do, reports the hold, or closes the TUN. -/
theorem watch_expired {s : Manager} (h : Watch s) {t : TaskId} {blocking : Bool}
    (hexecuting : s.executing = some t) (hop : s.op = .idle) :
    Watch ((s.onHoldExpired blocking).finishTask t) := by
  unfold Manager.onHoldExpired
  split_ifs
  · refine ⟨tasks_finishTask h.tasks hexecuting, h.up_host,
      watched_idle hop fun x hx hexposed ↦ ?_⟩
    have hwatched := h.watched
    simp only [Watched, hop] at hwatched
    exact hwatched x (Or.inl (pending_finishTask h.tasks hexecuting hx)) hexposed
  · have htasks : Tasks { s.cancelHoldWatchdog with hold := none, reports := s.reports + 1 } :=
      (tasks_cancel h.tasks).congr (.of_eq rfl)
    have hexecuting' := (cancel_executing s).trans hexecuting
    refine ⟨tasks_finishTask htasks hexecuting', ?_, watched_unwatched ?_ fun x hx ↦ ?_⟩
    · change s.cancelHoldWatchdog.tunnelUp = true → s.cancelHoldWatchdog.host.isSome = true
      rw [(sameSession_cancel s).up, (sameSession_cancel s).host]
      exact h.up_host
    · exact (cancel_op s).trans hop
    · exact h.tasks.cancel_scheduled x (pending_finishTask htasks hexecuting' hx)
  · have hclosed := sameWatch_closeTun { s with mux := none }
    refine watch_closed ?_ (by simp [Manager.finishTask, hop]) (by simp [Manager.finishTask])
    refine tasks_finishTask (h.tasks.congr ?_) (hclosed.executing.trans hexecuting)
    exact ⟨hclosed.tasks, hclosed.holdExpiry, hclosed.executing, hclosed.nextTask⟩

/-- A step that lets go of the hold and closes the TUN. -/
theorem watch_letGo {s s' : Manager} (h : Watch s) (engine : Option Engine)
    (hsame : SameWatch (Manager.closeTun { s.cancelHoldWatchdog with
      activeEngine := engine, mux := none }) s')
    (hop : s'.op = .idle) (hdown : s'.tunnelUp = false) : Watch s' := by
  refine watch_closed ?_ hop hdown
  have hclosed := sameWatch_closeTun { s.cancelHoldWatchdog with
    activeEngine := engine, mux := none }
  exact ((tasks_cancel h.tasks).congr
    ⟨hclosed.tasks, hclosed.holdExpiry, hclosed.executing, hclosed.nextTask⟩).congr hsame

theorem watch_step {s s' : Manager} {a : Action} (h : Watch s) (hrecalled : Recalled s a)
    (hstep : step s a = some s') : Watch s' := by
  cases step_move hstep with
  | attachHost => exact watch_quiet h (.of_eq rfl) (fun _ ↦ rfl) rfl
  | detachHost hop =>
    unfold Manager.detachHost
    split_ifs
    · exact h
    · exact watch_letGo h none (.of_eq rfl) (by simp [Manager.setHost, hop])
        (by simp [Manager.setHost])
  | connect hop => exact watch_connect h _ _ hop
  | disconnect hop => exact watch_disconnect h _ _ hop hrecalled
  | revoked hop =>
    exact watch_letGo h none (.of_eq rfl) (by simp [Manager.onRevoked, hop])
      (by simp [Manager.onRevoked])
  | released hop =>
    unfold Manager.releaseHeldTunnel
    split_ifs
    · exact h
    · exact watch_letGo h s.cancelHoldWatchdog.activeEngine (.of_eq rfl) (by simp [hop]) (by simp)
  | beginBlocking =>
    unfold Manager.beginBlocking
    split_ifs
    · exact h
    · split
      · exact h
      · exact ⟨h.tasks.congr (.of_eq rfl), h.up_host, trivial⟩
  | holdForBlocking => exact watch_holdForBlocking h _ hrecalled
  | @established r k hop hhost =>
    have hwatched := h.watched
    simp only [Watched, hop] at hwatched
    exact ⟨h.tasks.congr (.of_eq rfl), h.up_host, by cases r <;> exact hwatched⟩
  | establishFailed hop => exact watch_establishFailed h hop hrecalled
  | notified hop hhost => exact watch_notified h hrecalled hop hhost
  | muxStarted hop => exact watch_muxStarted h hrecalled hop
  | attached hop => exact watch_attached h hrecalled hop
  | delivered _ _ hop => exact watch_delivered h hrecalled hop
  | requestTun | listened | unheard | destroyed => exact watch_quiet h (.of_eq rfl) id rfl
  | startedTask hscheduled hfree => exact watch_startedTask h hscheduled hfree
  | expired hexecuting hop => exact watch_expired h hexecuting hop

theorem watch_initial : Watch Manager.initial := by
  refine ⟨?_, ?_, watched_down rfl rfl⟩
  · constructor <;> simp [Manager.initial]
  · simp [Manager.initial]

/-- **The watchdog.** In every run in which no hold is ended under a task that has started while the
TUN stays up with no engine, and no TUN is raised with no engine while a task can still expire, a
task that is let into the monitor does something only to the hold that armed it. -/
theorem actsOnOwnHold_of_recalled {s : Manager}
    (hreach : Reaches step Recalled Manager.initial s) : ActsOnOwnHold s := by
  have h : Watch s :=
    hreach.invariant Watch (fun _ _ _ hx hrecalled hstep ↦ watch_step hx hrecalled hstep)
      watch_initial
  intro hop t hexecuting blocking hacts
  have hwatched := h.watched
  simp only [Watched, hop] at hwatched
  refine hwatched t (Or.inr ((h.tasks.started t).mpr hexecuting)) ?_
  by_contra hnot
  refine hacts ?_
  unfold Manager.onHoldExpired
  rw [if_pos]
  cases hengine : s.activeEngine with
  | none =>
    have hdown : s.tunnelUp = false := by
      rw [Bool.eq_false_iff]
      exact fun hup ↦ hnot ⟨hup, hengine⟩
    simp [hdown]
  | some engine => rfl

/-- A handover that never comes: the hold is armed and its task is let into the monitor. -/
def expiredRun : List Action :=
  [.attachHost 0, .connect .openVpn true, .opEstablish true, .opNotify, .opStart true,
    .opEngine .started, .disconnect .forHandover true, .opEstablish true, .opNotify, .startTask 0]

/-- The task that is let into the monitor after `expiredRun` closes the TUN, and the TUN is in the
hold that armed it. -/
theorem actsOnOwnHold_of_recalled_expired :
    ∃ s, Reaches step Recalled Manager.initial s ∧ s.executing = some 0 ∧
      (s.onHoldExpired false).tunnelUp = false ∧ s.tunnelUp = true ∧ s.hold = some 0 := by
  obtain ⟨s, hreach, hcheck⟩ := exists_reaches_of_run step Recalled Manager.initial expiredRun
    (fun s ↦ decide (s.op = .idle ∧ s.executing = some 0 ∧
      (s.onHoldExpired false).tunnelUp = false ∧ s.tunnelUp = true)) (by decide)
  obtain ⟨hop, hexecuting, hclosed, hup⟩ := of_decide_eq_true hcheck
  refine ⟨s, hreach, hexecuting, hclosed, hup,
    actsOnOwnHold_of_recalled hreach hop 0 hexecuting false fun hsame ↦ ?_⟩
  rw [hsame, hup] at hclosed
  cases hclosed

/-! ### Two runs in which the wrong hold expires -/

/-- A handover hold is ended by `disconnect(None)`, which does not cancel its task, and
`beginBlocking` raises a TUN before the task starts. -/
def blockingRun : List Action :=
  [.attachHost 0, .connect .openVpn true, .opEstablish true, .opNotify, .opStart true,
    .opEngine .started, .disconnect .forHandover false, .disconnect .none false, .beginBlocking,
    .opEstablish true, .opNotify, .opStart true, .startTask 0]

/-- The task of a handover hold has started and waits for the monitor, which `holdForBlocking`
enters first. -/
def convertedRun : List Action :=
  [.attachHost 0, .connect .openVpn true, .opEstablish true, .opNotify, .opStart true,
    .opEngine .started, .disconnect .forHandover false, .startTask 0, .holdForBlocking false]

/-- The task that is let into the monitor closes a TUN that is in no hold of its own. -/
def closesOther (s : Manager) : Bool :=
  decide (s.op = .idle ∧ s.executing = some 0 ∧ (s.onHoldExpired false).tunnelUp = false ∧
    s.tunnelUp = true ∧ s.hold = none)

theorem not_actsOnOwnHold_of_closesOther {s : Manager} (hbad : closesOther s = true) :
    ¬ ActsOnOwnHold s := by
  obtain ⟨hop, hexecuting, hclosed, hup, hhold⟩ := of_decide_eq_true hbad
  intro hacts
  have hown := hacts hop 0 hexecuting false fun hsame ↦ by
    rw [hsame, hup] at hclosed
    cases hclosed
  rw [hhold] at hown
  cases hown

/-- The task of an ended handover hold closes the TUN that `beginBlocking` raised. -/
theorem not_actsOnOwnHold_blocking :
    ¬ ∀ s, Reaches step Always Manager.initial s → ActsOnOwnHold s := by
  intro hall
  obtain ⟨s, hreach, hbad⟩ := exists_reaches_of_run step Always Manager.initial blockingRun
    closesOther (by decide)
  exact not_actsOnOwnHold_of_closesOther hbad (hall s hreach)

/-- A task that had started when it was cancelled closes the TUN that `holdForBlocking` keeps. -/
theorem not_actsOnOwnHold_converted :
    ¬ ∀ s, Reaches step Always Manager.initial s → ActsOnOwnHold s := by
  intro hall
  obtain ⟨s, hreach, hbad⟩ := exists_reaches_of_run step Always Manager.initial convertedRun
    closesOther (by decide)
  exact not_actsOnOwnHold_of_closesOther hbad (hall s hreach)

end WindscribeVpn.Tunnel.TunnelManager
