import Mathlib.Data.List.Induction
import Mathlib.Order.Nat
import Mathlib.Tactic.ByContra
import Mathlib.Tactic.SplitIfs

/-!
# The session refresh loop

`onAppStart` and `onAppMovedToForeground` both end in `keepSessionUpdated`, which launches a loop
that enqueues a session update every minute and never ends by itself. `onAppMovedToBackground`
cancels the job of the loop that was launched last. The job of an earlier loop is lost when the next
one is launched, so that nothing can cancel it any more (`mem_alive_of_lost`).

`OneLoop` is the promise for a sequence of calls: at no time is more than one loop alive, and none
is after the app moved to the background until the next start. `oneLoop_iff` says that it is kept
exactly by the sequences in which the app moves to the background between any two starts.
Signing in makes the two starting calls in a row (`prepareDashboard`), and `not_oneLoop_signIn` is
that sequence.
-/

set_option autoImplicit false
set_option relaxedAutoImplicit false

namespace WindscribeVpn.Workers

/-! ### The work manager -/

/-- The workers that are enqueued. -/
inductive Worker
  | session
  | notification
  | unblockWgParams
  | hostnameRefresh
  deriving DecidableEq, Repr

/-- The names of unique work. -/
inductive WorkName
  | notificationHourly
  | notificationDay
  | session
  | sessionHourly
  | sessionDay
  | serverList
  | unblockWgParams
  | hostnameRefresh
  deriving DecidableEq, Repr

/-- The interval of periodic work. -/
inductive Interval
  | hours
  | days
  deriving DecidableEq, Repr

/-- What is enqueued; unique work has a name and replaces the work of the same name. -/
inductive Work
  | oneTime (name : Option WorkName) (worker : Worker)
  | periodic (name : WorkName) (worker : Worker) (interval : Interval)
  deriving DecidableEq, Repr

/-- `WindScribeWorkManager`. Loops are numbered in the order in which they are launched; `alive` are
the ones that have not been cancelled. -/
structure WindScribeWorkManager where
  sessionHash : Option String
  migrationRequired : Bool
  foregroundSessionUpdateJob : Option ℕ
  alive : List ℕ
  launched : ℕ
  enqueued : List Work
  updateChecks : ℕ
  deriving DecidableEq, Repr

/-- What happens to the work manager: a call, or the turn of a loop after its minute. -/
inductive Event
  | onAppStart
  | onAppMovedToForeground
  | onAppMovedToBackground
  | turn (job : ℕ)
  deriving DecidableEq, Repr

namespace WindScribeWorkManager

/-- The work manager of a new process. -/
def initial (sessionHash : Option String) : WindScribeWorkManager :=
  { sessionHash, migrationRequired := false, foregroundSessionUpdateJob := none, alive := []
    launched := 0, enqueued := [], updateChecks := 0 }

/-- Enqueues work. -/
def enqueue (m : WindScribeWorkManager) (work : List Work) : WindScribeWorkManager :=
  { m with enqueued := m.enqueued ++ work }

/-- `keepSessionUpdated`. -/
def keepSessionUpdated (m : WindScribeWorkManager) : WindScribeWorkManager :=
  { m with
    foregroundSessionUpdateJob := some m.launched
    alive := m.launched :: m.alive
    launched := m.launched + 1 }

/-- What `onAppStart` enqueues, with `updateSession` first. -/
def startupWork : List Work :=
  [.oneTime (some .session) .session, .oneTime none .unblockWgParams,
    .periodic .notificationHourly .notification .hours, .periodic .sessionHourly .session .hours,
    .periodic .notificationDay .notification .days, .periodic .sessionDay .session .days,
    .periodic .unblockWgParams .unblockWgParams .days,
    .periodic .hostnameRefresh .hostnameRefresh .days]

/-- `onAppStart`. -/
def onAppStart (m : WindScribeWorkManager) : WindScribeWorkManager :=
  match m.sessionHash with
  | none => m
  | some _ =>
    keepSessionUpdated
      { enqueue m startupWork with migrationRequired := true, updateChecks := m.updateChecks + 1 }

/-- `onAppMovedToForeground`. -/
def onAppMovedToForeground (m : WindScribeWorkManager) : WindScribeWorkManager :=
  match m.sessionHash with
  | none => m
  | some _ => keepSessionUpdated (enqueue m [.oneTime (some .serverList) .session])

/-- `onAppMovedToBackground`. -/
def onAppMovedToBackground (m : WindScribeWorkManager) : WindScribeWorkManager :=
  match m.foregroundSessionUpdateJob with
  | none => m
  | some job => { m with alive := m.alive.filter fun other ↦ !(other == job) }

/-- A turn of a loop that is still alive. -/
def turn (m : WindScribeWorkManager) (job : ℕ) : WindScribeWorkManager :=
  if job ∈ m.alive then enqueue m [.oneTime (some .session) .session] else m

/-- What one event does. -/
def step (m : WindScribeWorkManager) : Event → WindScribeWorkManager
  | .onAppStart => m.onAppStart
  | .onAppMovedToForeground => m.onAppMovedToForeground
  | .onAppMovedToBackground => m.onAppMovedToBackground
  | .turn job => m.turn job

/-- What a sequence of events does. -/
def run (m : WindScribeWorkManager) (events : List Event) : WindScribeWorkManager :=
  events.foldl step m

end WindScribeWorkManager

open WindScribeWorkManager

/-- The calls at the end of `prepareDashboard`, on the path of a sign-in that succeeds. -/
def prepareDashboard : List Event := [.onAppStart, .onAppMovedToForeground]

/-! ### The promise -/

/-- The two calls that launch a loop. -/
def Event.starts : Event → Bool
  | .onAppStart | .onAppMovedToForeground => true
  | .onAppMovedToBackground | .turn _ => false

/-- At most one loop is alive at any time, and none after the app moved to the background until the
next start. -/
structure OneLoop (m : WindScribeWorkManager) (events : List Event) : Prop where
  atMostOne : ∀ past, past <+: events → (m.run past).alive.length ≤ 1
  noneInBackground : ∀ past later, past ++ .onAppMovedToBackground :: later <+: events →
    (∀ e ∈ later, e.starts = false) →
    (m.run (past ++ .onAppMovedToBackground :: later)).alive = []

/-- The app moves to the background between any two starts. -/
def BackgroundBetween (events : List Event) : Prop :=
  ∀ past first between second later, events = past ++ first :: between ++ second :: later →
    first.starts = true → second.starts = true → .onAppMovedToBackground ∈ between

/-! ### What one event does to the loops -/

variable {m : WindScribeWorkManager} {e : Event} {events past later between : List Event}

theorem run_append (m : WindScribeWorkManager) (first second : List Event) :
    m.run (first ++ second) = (m.run first).run second := List.foldl_append

theorem run_snoc (m : WindScribeWorkManager) (events : List Event) (e : Event) :
    m.run (events ++ [e]) = (m.run events).step e := by
  rw [run_append]
  rfl

/-- A start launches a loop next to those that are alive. -/
theorem step_starts (hsession : m.sessionHash ≠ none) (hstarts : e.starts = true) :
    (m.step e).alive = m.launched :: m.alive ∧
      (m.step e).foregroundSessionUpdateJob = some m.launched ∧
      (m.step e).launched = m.launched + 1 := by
  obtain ⟨hash, hhash⟩ := Option.ne_none_iff_exists'.mp hsession
  cases e with
  | onAppStart => simp [step, onAppStart, hhash, keepSessionUpdated, enqueue]
  | onAppMovedToForeground =>
    simp [step, onAppMovedToForeground, hhash, keepSessionUpdated, enqueue]
  | onAppMovedToBackground => cases hstarts
  | turn job => cases hstarts

/-- The turn of a loop leaves the loops alone. -/
theorem step_turn (m : WindScribeWorkManager) (job : ℕ) :
    (m.step (.turn job)).alive = m.alive ∧
      (m.step (.turn job)).foregroundSessionUpdateJob = m.foregroundSessionUpdateJob ∧
      (m.step (.turn job)).launched = m.launched := by
  rw [step, turn]
  split_ifs
  · exact ⟨rfl, rfl, rfl⟩
  · exact ⟨rfl, rfl, rfl⟩

theorem step_sessionHash (m : WindScribeWorkManager) (e : Event) :
    (m.step e).sessionHash = m.sessionHash := by
  cases e with
  | onAppStart =>
    simp only [step, onAppStart]
    split
    · rfl
    · rfl
  | onAppMovedToForeground =>
    simp only [step, onAppMovedToForeground]
    split
    · rfl
    · rfl
  | onAppMovedToBackground =>
    simp only [step, onAppMovedToBackground]
    split
    · rfl
    · rfl
  | turn job =>
    simp only [step, turn]
    split_ifs
    · rfl
    · rfl

theorem run_sessionHash (m : WindScribeWorkManager) (events : List Event) :
    (m.run events).sessionHash = m.sessionHash := by
  induction events generalizing m with
  | nil => rfl
  | cons e rest ih => exact (ih (m.step e)).trans (step_sessionHash m e)

/-! ### Two starts in a row -/

/-- Without a move to the background no loop ends. -/
theorem length_alive_le_step (hother : e ≠ .onAppMovedToBackground)
    (hsession : m.sessionHash ≠ none) : m.alive.length ≤ (m.step e).alive.length := by
  cases hstarts : e.starts with
  | true =>
    rw [(step_starts hsession hstarts).1]
    exact Nat.le_succ _
  | false =>
    cases e with
    | onAppStart => cases hstarts
    | onAppMovedToForeground => cases hstarts
    | onAppMovedToBackground => exact absurd rfl hother
    | turn job => exact (congrArg List.length (step_turn m job).1).ge

theorem length_alive_le_run (hsession : m.sessionHash ≠ none)
    (hbetween : .onAppMovedToBackground ∉ between) :
    m.alive.length ≤ (m.run between).alive.length := by
  induction between generalizing m with
  | nil => exact Nat.le_refl _
  | cons e rest ih =>
    rw [List.mem_cons, not_or] at hbetween
    have hnext : (m.step e).sessionHash ≠ none := step_sessionHash m e ▸ hsession
    exact (length_alive_le_step (Ne.symm hbetween.1) hsession).trans (ih hnext hbetween.2)

/-- Two starts without a move to the background between them leave two loops. -/
theorem two_le_alive (past : List Event) (hsession : m.sessionHash ≠ none)
    {first second : Event} (hfirst : first.starts = true) (hsecond : second.starts = true)
    (hbetween : .onAppMovedToBackground ∉ between) :
    2 ≤ (m.run (past ++ first :: between ++ [second])).alive.length := by
  have hpast : (m.run past).sessionHash ≠ none := run_sessionHash m past ▸ hsession
  have hnext : ((m.run past).step first).sessionHash ≠ none :=
    step_sessionHash (m.run past) first ▸ hpast
  have hlast : (((m.run past).step first).run between).sessionHash ≠ none := by
    rw [run_sessionHash]
    exact hnext
  have hone : 1 ≤ ((m.run past).step first).alive.length := by
    rw [(step_starts hpast hfirst).1, List.length_cons]
    exact Nat.succ_le_succ (Nat.zero_le _)
  have hkept := length_alive_le_run hnext hbetween
  rw [run_snoc, run_append]
  change 2 ≤ ((((m.run past).step first).run between).step second).alive.length
  rw [(step_starts hlast hsecond).1, List.length_cons]
  exact Nat.succ_le_succ (hone.trans hkept)

/-! ### One start at a time -/

/-- What holds after a sequence in which the app moves to the background between any two starts: the
one loop that may be alive is the one that can be cancelled, and the app has not moved to the
background since it was launched. -/
structure Tidy (m : WindScribeWorkManager) (past : List Event) : Prop where
  cancellable : m.alive = [] ∨ ∃ job, m.alive = [job] ∧ m.foregroundSessionUpdateJob = some job
  since : m.alive ≠ [] → ∃ earlier start later, past = earlier ++ start :: later ∧
    start.starts = true ∧ .onAppMovedToBackground ∉ later

theorem step_background (hcancellable : m.alive = [] ∨
    ∃ job, m.alive = [job] ∧ m.foregroundSessionUpdateJob = some job) :
    (m.step .onAppMovedToBackground).alive = [] := by
  rcases hcancellable with hnone | ⟨job, hjob, hforeground⟩
  · simp only [step, onAppMovedToBackground]
    split
    · exact hnone
    · simp [hnone]
  · simp [step, onAppMovedToBackground, hforeground, hjob]

theorem BackgroundBetween.prefix (hbetween : BackgroundBetween (past ++ later)) :
    BackgroundBetween past := by
  intro earlier first between second rest hsplit hfirst hsecond
  refine hbetween earlier first between second (rest ++ later) ?_ hfirst hsecond
  rw [hsplit]
  simp

theorem Tidy.step (htidy : Tidy m past) (hsession : m.sessionHash ≠ none)
    (hbetween : BackgroundBetween (past ++ [e])) : Tidy (m.step e) (past ++ [e]) := by
  cases hstarts : e.starts with
  | true =>
    -- A loop that is alive would be a second start without a move to the background.
    have hnone : m.alive = [] := by
      by_contra halive
      obtain ⟨earlier, start, later, hpast, hstart, hlater⟩ := htidy.since halive
      exact hlater (hbetween earlier start later e [] (by rw [hpast]) hstart hstarts)
    obtain ⟨halive, hjob, -⟩ := step_starts hsession hstarts
    rw [hnone] at halive
    exact ⟨Or.inr ⟨m.launched, halive, hjob⟩,
      fun _ ↦ ⟨past, e, [], rfl, hstarts, List.not_mem_nil⟩⟩
  | false =>
    cases e with
    | onAppStart => cases hstarts
    | onAppMovedToForeground => cases hstarts
    | onAppMovedToBackground =>
      have hnone := step_background htidy.cancellable
      exact ⟨Or.inl hnone, fun halive ↦ absurd hnone halive⟩
    | turn job =>
      obtain ⟨halive, hjob, -⟩ := step_turn m job
      refine ⟨by rw [halive, hjob]; exact htidy.cancellable, fun hne ↦ ?_⟩
      rw [halive] at hne
      obtain ⟨earlier, start, later, hpast, hstart, hlater⟩ := htidy.since hne
      refine ⟨earlier, start, later ++ [.turn job], by rw [hpast]; simp, hstart, ?_⟩
      simpa using hlater

theorem tidy_run (hsession : m.sessionHash ≠ none) (hstart : m.alive = [])
    (hbetween : BackgroundBetween past) : Tidy (m.run past) past := by
  induction past using List.reverseRecOn with
  | nil => exact ⟨Or.inl hstart, fun hne ↦ absurd hstart hne⟩
  | append_singleton past e ih =>
    rw [run_snoc]
    exact (ih hbetween.prefix).step (run_sessionHash m past ▸ hsession) hbetween

/-- Without a start no loop appears. -/
theorem alive_nil_run (hnone : m.alive = []) (hlater : ∀ e ∈ later, e.starts = false) :
    (m.run later).alive = [] := by
  induction later generalizing m with
  | nil => exact hnone
  | cons e rest ih =>
    rw [List.forall_mem_cons] at hlater
    refine ih (m := m.step e) ?_ hlater.2
    cases e with
    | onAppStart => cases hlater.1
    | onAppMovedToForeground => cases hlater.1
    | onAppMovedToBackground => exact step_background (Or.inl hnone)
    | turn job => exact (step_turn m job).1.trans hnone

/-- The promise is kept exactly where the app moves to the background between any two starts. -/
theorem oneLoop_iff (hash : String) (events : List Event) :
    OneLoop (initial (some hash)) events ↔ BackgroundBetween events := by
  have hsession : (initial (some hash)).sessionHash ≠ none := Option.some_ne_none hash
  constructor
  · intro hone past first between second later hsplit hfirst hsecond
    by_contra hbetween
    have hle := hone.atMostOne (past ++ first :: between ++ [second])
      ⟨later, by rw [hsplit]; simp⟩
    have htwo := two_le_alive past hsession hfirst hsecond hbetween
    omega
  · intro hbetween
    refine ⟨?_, ?_⟩
    · rintro past ⟨later, rfl⟩
      rcases (tidy_run hsession rfl hbetween.prefix).cancellable with hnone | ⟨job, hjob, -⟩
      · rw [hnone]
        exact Nat.zero_le 1
      · rw [hjob]
        exact Nat.le_refl 1
    · rintro past later ⟨rest, rfl⟩ hlater
      have hpast : BackgroundBetween past := by
        rw [List.append_assoc] at hbetween
        exact hbetween.prefix
      rw [run_append]
      change (WindScribeWorkManager.run (((initial (some hash)).run past).step
        .onAppMovedToBackground) later).alive = []
      exact alive_nil_run (step_background (tidy_run hsession rfl hpast).cancellable) hlater

/-- Signing in leaves two loops. -/
theorem not_oneLoop_signIn :
    ¬ ∀ (hash : String) (events : List Event), OneLoop (initial (some hash)) events := by
  intro hone
  have hle := (hone "session" prepareDashboard).atMostOne prepareDashboard (List.prefix_refl _)
  exact absurd hle (by decide)

/-! ### The loop that is lost -/

/-- A loop that is alive and is not the one that was launched last. -/
def Lost (m : WindScribeWorkManager) (job : ℕ) : Prop :=
  job ∈ m.alive ∧ job < m.launched ∧ m.foregroundSessionUpdateJob ≠ some job

/-- A start loses the loops that are alive. -/
theorem lost_of_starts (hsession : m.sessionHash ≠ none) (hstarts : e.starts = true) {job : ℕ}
    (halive : job ∈ m.alive) (hlt : job < m.launched) : Lost (m.step e) job := by
  obtain ⟨hnext, hjob, hlaunched⟩ := step_starts hsession hstarts
  refine ⟨hnext ▸ List.mem_cons_of_mem _ halive, hlaunched ▸ Nat.lt_succ_of_lt hlt, ?_⟩
  rw [hjob]
  exact fun heq ↦ (Nat.ne_of_gt hlt) (Option.some.inj heq)

theorem step_of_no_session (hsession : m.sessionHash = none) (hstarts : e.starts = true) :
    m.step e = m := by
  cases e with
  | onAppStart => simp [step, onAppStart, hsession]
  | onAppMovedToForeground => simp [step, onAppMovedToForeground, hsession]
  | onAppMovedToBackground => cases hstarts
  | turn job => cases hstarts

/-- No event ends a lost loop. -/
theorem Lost.step {job : ℕ} (hlost : Lost m job) (e : Event) : Lost (m.step e) job := by
  cases hstarts : e.starts with
  | true =>
    by_cases hsession : m.sessionHash = none
    · rw [step_of_no_session hsession hstarts]
      exact hlost
    · exact lost_of_starts hsession hstarts hlost.1 hlost.2.1
  | false =>
    obtain ⟨halive, hlt, hother⟩ := hlost
    cases e with
    | onAppStart => cases hstarts
    | onAppMovedToForeground => cases hstarts
    | onAppMovedToBackground =>
      simp only [WindScribeWorkManager.step, onAppMovedToBackground]
      split
      · exact ⟨halive, hlt, hother⟩
      · next last hlast =>
        refine ⟨List.mem_filter.mpr ⟨halive, ?_⟩, hlt, hother⟩
        have hne : job ≠ last := fun heq ↦ hother (heq ▸ hlast)
        simpa using hne
    | turn other =>
      obtain ⟨hsame, hjob, hlaunched⟩ := step_turn m other
      exact ⟨hsame ▸ halive, hlaunched ▸ hlt, hjob ▸ hother⟩

/-- A lost loop stays alive whatever is called. -/
theorem mem_alive_of_lost {job : ℕ} (hlost : Lost m job) (events : List Event) :
    job ∈ (m.run events).alive := by
  induction events generalizing m with
  | nil => exact hlost.1
  | cons e rest ih => exact ih (hlost.step e)

end WindscribeVpn.Workers
