import WindscribeVpn.Foundations.Runs
import Mathlib.Data.Nat.Notation
import Mathlib.Logic.Function.Basic
import Mathlib.Tactic.SplitIfs

/-!
# The verdict of a connectivity test

When an engine reports that it is up, `testConnectivity` of `VpnBackend.kt` launches a job that
tests the tunnel and ends in `connectivityTestPassed` or in `failedConnectivityTest`. Neither of
them names an attempt: the first publishes `Connected` through two coroutines of its own, the second
launches a disconnect of whatever the backend is doing by then. The job ends in several ways, and
its `catch (e: Exception)` takes a cancellation for a failed test.

`Deserved` is the promise: every effect of a verdict came while the attempt under test was the
backend's live one and no disconnect of it had begun. `not_deserved_cancelled` is a run in which the
state collector cancels the test of a session that is ending and the test issues a second
disconnect, and `not_deserved_reused` one in which that disconnect hits the next attempt.
`Unhurried` is the condition under which neither happens: disconnects and connects wait until no
test is under way and no verdict is on its way. `deserved_of_unhurried` proves the promise for every
run whose steps all meet it.

A step is one access to the shared fields or one coroutine's way to its next suspension point. The
network test itself, the pinning of an address and the dialogs are the environment's.
-/

set_option autoImplicit false
set_option relaxedAutoImplicit false

namespace WindscribeVpn.Backend.ConnectivityTest

open Foundations.Runs

/-- Where the job of a test is. -/
inductive TestPc
  | launched
  /-- Inside `withTimeout`, before the result. -/
  | running
  /-- About to call `connectivityTestPassed`. -/
  | passing
  /-- About to call `failedConnectivityTest` inside `withTimeout`. -/
  | failing
  /-- Behind the verdict, still inside `withTimeout`. -/
  | decided
  /-- In one of the `catch` blocks, about to call `failedConnectivityTest`. -/
  | caught
  | over
  deriving DecidableEq, Repr

/-- A test job. `attempt` is the connection id it was launched for, and `unstored` says that
`connectivityTestJob` was not written yet. -/
structure Test where
  pc : TestPc
  attempt : Option ℕ
  cancelled : Bool
  unstored : Bool
  deriving DecidableEq, Repr

/-- The job can do nothing any more but call `failedConnectivityTest` again. -/
def TestPc.late : TestPc → Bool
  | .decided | .caught => true
  | .launched | .running | .passing | .failing | .over => false

/-- `isActive` of the job. -/
def Test.isActive (t : Test) : Bool := t.pc ≠ .over && !t.cancelled

/-- A coroutine that a verdict launches, with the attempt whose test it was. -/
inductive Launch
  /-- The coroutine of `updateState(VPNState(Connected))`. -/
  | publish (attempt : Option ℕ)
  /-- The coroutine of the `setState` that it calls. -/
  | emit (attempt : Option ℕ)
  /-- `disconnect(ConnectivityTestFailed)`. -/
  | disconnect (attempt : Option ℕ)
  deriving DecidableEq, Repr

/-- The attempt whose test launched the coroutine. -/
def Launch.attempt : Launch → Option ℕ
  | .publish attempt | .emit attempt | .disconnect attempt => attempt

/-- What a verdict does. -/
inductive EffectKind
  /-- The session counts as established. -/
  | established
  /-- `Connected` is published. -/
  | published
  /-- A disconnect begins. -/
  | disconnected
  deriving DecidableEq, Repr

/-- An effect of a verdict; `deserved` says that the attempt was live when it came. -/
structure Effect where
  kind : EffectKind
  attempt : Option ℕ
  deserved : Bool
  deriving DecidableEq, Repr

/-- A backend. `starting` says that the start coroutine has not reset the flags yet, `handlers`
counts the handlers of an UP that are past their look at `disconnecting`. `begun` (a disconnect of
the live attempt has begun) and `effects` are history. -/
structure VpnBackend where
  connectionId : Option ℕ
  nextId : ℕ
  disconnecting : Bool
  starting : Bool
  reconnecting : Bool
  emergencyConnect : Bool
  sessionWasEstablished : Bool
  connectivityFailureHandled : Bool
  connectivityTestJob : Option ℕ
  tests : ℕ → Test
  started : ℕ
  handlers : ℕ
  launched : List Launch
  begun : Bool
  effects : List Effect

/-- The start of the process. -/
def VpnBackend.initial : VpnBackend where
  connectionId := none
  nextId := 0
  disconnecting := false
  starting := false
  reconnecting := false
  emergencyConnect := false
  sessionWasEstablished := false
  connectivityFailureHandled := false
  connectivityTestJob := none
  tests := fun _ ↦ ⟨.over, none, false, false⟩
  started := 0
  handlers := 0
  launched := []
  begun := false
  effects := []

/-- An action of one of the threads. -/
inductive Action
  /-- `connect`, for an emergency connect or not. -/
  | connect (emergency : Bool)
  /-- The start of `runConnect` in the start coroutine. -/
  | runConnect
  /-- A collector takes an UP. -/
  | engineUp
  /-- The handler of an UP calls `testConnectivity`. -/
  | testConnectivity
  /-- `testConnectivity` writes `connectivityTestJob`. -/
  | store (t : ℕ)
  /-- The job of a test is dispatched for the first time. -/
  | start (t : ℕ)
  /-- The network test has a result. -/
  | result (t : ℕ) (success : Bool)
  /-- A timeout, a cancellation or another exception reaches the job. -/
  | throws (t : ℕ)
  /-- The job calls the verdict it has come to. -/
  | advance (t : ℕ)
  /-- The job ends behind its verdict. -/
  | finish (t : ℕ)
  /-- The state collector sees `Disconnected` or `Disconnecting`. -/
  | collect
  /-- Somebody begins a disconnect. -/
  | disconnect
  /-- A coroutine that a verdict launched runs. -/
  | run (i : ℕ)
  deriving DecidableEq, Repr

/-! ### Steps of a backend -/

/-- The attempt is the live one and no disconnect of it has begun. -/
def VpnBackend.deserves (s : VpnBackend) (attempt : Option ℕ) : Bool :=
  s.connectionId = attempt && !s.begun

/-- Moves one job. -/
def VpnBackend.setPc (s : VpnBackend) (t : ℕ) (pc : TestPc) : VpnBackend :=
  { s with tests := Function.update s.tests t { s.tests t with pc := pc } }

/-- `connectivityTestJob?.cancel(); connectivityTestJob = null`. -/
def VpnBackend.cancelTest (s : VpnBackend) : VpnBackend :=
  match s.connectivityTestJob with
  | none => s
  | some t =>
    { s with
      tests := Function.update s.tests t { s.tests t with cancelled := true }
      connectivityTestJob := none }

/-- `connectivityTestPassed`. -/
def VpnBackend.connectivityTestPassed (s : VpnBackend) (attempt : Option ℕ) : VpnBackend :=
  { s with
    sessionWasEstablished := true
    launched := s.launched ++ [.publish attempt]
    effects := ⟨.established, attempt, s.deserves attempt⟩ :: s.effects }

/-- `failedConnectivityTest`. -/
def VpnBackend.failedConnectivityTest (s : VpnBackend) (attempt : Option ℕ) : VpnBackend :=
  if s.connectivityFailureHandled then s
  else
    { s with
      connectivityFailureHandled := true
      connectivityTestJob := none
      launched := s.launched ++ [if s.reconnecting then .publish attempt else .disconnect attempt] }

/-- The job is launched. -/
def VpnBackend.launchTest (s : VpnBackend) : VpnBackend :=
  { s.cancelTest with
    connectivityFailureHandled := false
    tests := Function.update s.cancelTest.tests s.started ⟨.launched, s.connectionId, false, true⟩
    started := s.started + 1 }

/-- `connectivityTestJob?.isActive == true`. -/
def VpnBackend.testing (s : VpnBackend) : Bool :=
  s.connectivityTestJob.any fun t ↦ (s.tests t).isActive

/-- `testConnectivity`. -/
def VpnBackend.testConnectivity (s : VpnBackend) : VpnBackend :=
  if s.emergencyConnect then s.cancelTest.connectivityTestPassed s.connectionId
  else if s.testing then s
  else s.launchTest

/-- A disconnect begins. -/
def VpnBackend.beginDisconnect (s : VpnBackend) : VpnBackend :=
  { s with disconnecting := true, begun := true }

/-- The coroutine that a verdict launched: the one of `updateState`, which publishes nothing without
a connection id, the one of `setState`, or the disconnect. An emission that repeats the last state
counts as one. -/
def VpnBackend.perform (s : VpnBackend) : Launch → VpnBackend
  | .publish attempt =>
    if s.connectionId = none then s else { s with launched := s.launched ++ [.emit attempt] }
  | .emit attempt => { s with effects := ⟨.published, attempt, s.deserves attempt⟩ :: s.effects }
  | .disconnect attempt =>
    { s with effects := ⟨.disconnected, attempt, s.deserves attempt⟩ :: s.effects }.beginDisconnect

/-- The next step of a job that has come to a verdict. -/
def VpnBackend.advance (s : VpnBackend) (t : ℕ) : Option VpnBackend :=
  match (s.tests t).pc with
  | .passing => some ((s.connectivityTestPassed (s.tests t).attempt).setPc t .decided)
  | .failing => some ((s.failedConnectivityTest (s.tests t).attempt).setPc t .decided)
  | .caught => some ((s.failedConnectivityTest (s.tests t).attempt).setPc t .over)
  | .launched | .running | .decided | .over => none

/-- One step of a backend. -/
def step (s : VpnBackend) : Action → Option VpnBackend
  | .connect emergency =>
    some { s with
      connectionId := some s.nextId
      nextId := s.nextId + 1
      starting := true
      emergencyConnect := emergency
      begun := false }
  | .runConnect =>
    if s.starting then
      some { s with starting := false, sessionWasEstablished := false, disconnecting := false }
    else none
  | .engineUp => if s.disconnecting then none else some { s with handlers := s.handlers + 1 }
  | .testConnectivity =>
    if 0 < s.handlers then some { s.testConnectivity with handlers := s.handlers - 1 } else none
  | .store t =>
    if (s.tests t).unstored then
      some { s with
        tests := Function.update s.tests t { s.tests t with unstored := false }
        connectivityTestJob := some t }
    else none
  | .start t =>
    if (s.tests t).pc = .launched then
      some (s.setPc t (if (s.tests t).cancelled then .over else .running))
    else none
  | .result t success =>
    if (s.tests t).pc = .running ∧ (s.tests t).cancelled = false then
      some (s.setPc t (if success then .passing else .failing))
    else none
  | .throws t =>
    if (s.tests t).pc = .running ∨ (s.tests t).pc = .decided then some (s.setPc t .caught) else none
  | .advance t => s.advance t
  | .finish t => if (s.tests t).pc = .decided then some (s.setPc t .over) else none
  | .collect => some s.cancelTest
  | .disconnect => some s.beginDisconnect
  | .run i =>
    match s.launched[i]? with
    | none => none
    | some l => some ({ s with launched := s.launched.eraseIdx i }.perform l)

/-! ### What a verdict promises -/

/-- Every effect of a verdict concerned the live attempt, before any disconnect of it. -/
def Deserved (s : VpnBackend) : Prop := ∀ e ∈ s.effects, e.deserved = true

/-- The test can still come to a verdict with an effect. -/
def VpnBackend.outstanding (s : VpnBackend) (t : ℕ) : Bool :=
  (s.tests t).pc ≠ .over && !((s.tests t).pc.late && s.connectivityFailureHandled)

/-- No UP is being handled and no test can still come to a verdict. -/
def Untested (s : VpnBackend) : Prop :=
  s.handlers = 0 ∧ ∀ t < s.started, s.outstanding t = false

instance decidableUntested (s : VpnBackend) : Decidable (Untested s) :=
  inferInstanceAs (Decidable (_ ∧ _))

/-- The condition on one step. A connect comes when every test is over, and a disconnect when no
test can come to a verdict; both when no coroutine of a verdict is pending, but for the disconnect's
own; and the start coroutine resets `disconnecting` before the first disconnect of its attempt. -/
def Unhurried (s : VpnBackend) : Action → Prop
  | .connect _ =>
    s.handlers = 0 ∧ (∀ t < s.started, (s.tests t).pc = .over) ∧ s.launched = []
  | .runConnect => s.begun = false
  | .disconnect => Untested s ∧ s.launched = []
  | .run i =>
    ∀ l ∈ s.launched[i]?, l = .disconnect l.attempt → Untested s ∧ s.launched.length = 1
  | _ => True

instance decidableUnhurried (s : VpnBackend) : (a : Action) → Decidable (Unhurried s a)
  | .connect _ => inferInstanceAs (Decidable (_ ∧ _ ∧ _))
  | .runConnect => inferInstanceAs (Decidable (s.begun = false))
  | .disconnect => inferInstanceAs (Decidable (_ ∧ _))
  | .run i => inferInstanceAs (Decidable (∀ l ∈ s.launched[i]?, _))
  | .engineUp | .testConnectivity | .store _ | .start _ | .result _ _ | .throws _ | .advance _
  | .finish _ | .collect => inferInstanceAs (Decidable True)

/-- The invariant: whatever can still have an effect was launched for the live attempt, and nothing
can once a disconnect of it has begun. -/
structure Inv (s : VpnBackend) : Prop where
  effects : Deserved s
  launched : ∀ l ∈ s.launched, l.attempt = s.connectionId
  tested : ∀ t, (s.tests t).pc ≠ .over → (s.tests t).attempt = s.connectionId
  unstarted : ∀ t, s.started ≤ t → (s.tests t).pc = .over
  ended : s.begun = true →
    s.handlers = 0 ∧ s.launched = [] ∧ s.disconnecting = true ∧ ∀ t, s.outstanding t = false

/-- A job with a verdict to come belongs to an attempt that no disconnect has reached. -/
theorem Inv.begun_of_outstanding {s : VpnBackend} (h : Inv s) {t : ℕ}
    (ht : s.outstanding t = true) : s.begun = false := by
  rw [Bool.eq_false_iff]
  intro hbegun
  rw [(h.ended hbegun).2.2.2 t] at ht
  cases ht

theorem Inv.begun_of_handlers {s : VpnBackend} (h : Inv s) (hhandlers : 0 < s.handlers) :
    s.begun = false := by
  rw [Bool.eq_false_iff]
  intro hbegun
  rw [(h.ended hbegun).1] at hhandlers
  cases hhandlers

theorem Inv.begun_of_launched {s : VpnBackend} (h : Inv s) {l : Launch} (hl : l ∈ s.launched) :
    s.begun = false := by
  rw [Bool.eq_false_iff]
  intro hbegun
  rw [(h.ended hbegun).2.1] at hl
  cases hl

/-- An effect for the live attempt, before a disconnect of it, is deserved. -/
theorem deserves_of_live {s : VpnBackend} {attempt : Option ℕ} (hattempt : attempt = s.connectionId)
    (hbegun : s.begun = false) : s.deserves attempt = true := by
  simp [VpnBackend.deserves, hattempt, hbegun]

theorem deserved_cons {s : VpnBackend} (h : Deserved s) {kind : EffectKind} {attempt : Option ℕ}
    {deserved : Bool} (hdeserved : deserved = true) :
    ∀ e ∈ (⟨kind, attempt, deserved⟩ : Effect) :: s.effects, e.deserved = true := by
  intro e he
  rcases List.mem_cons.mp he with rfl | hold
  · exact hdeserved
  · exact h e hold

/-- A job that is not over and not late can have a verdict to come. -/
theorem outstanding_of_pc {s : VpnBackend} {t : ℕ} (hover : (s.tests t).pc ≠ .over)
    (hlate : (s.tests t).pc.late = false) : s.outstanding t = true := by
  simp [VpnBackend.outstanding, hover, hlate]

theorem outstanding_of_over {s : VpnBackend} {t : ℕ} (hover : (s.tests t).pc = .over) :
    s.outstanding t = false := by
  simp [VpnBackend.outstanding, hover]

/-! ### The jobs -/

/-- The tests change, the jobs stay where they are or move to where nothing new can come of them. -/
theorem Inv.withTests {s : VpnBackend} (h : Inv s) {tests : ℕ → Test}
    (hattempt : ∀ t, (tests t).pc ≠ .over →
      (s.tests t).pc ≠ .over ∧ (tests t).attempt = (s.tests t).attempt)
    (hout : ∀ t, VpnBackend.outstanding { s with tests := tests } t = true →
      s.outstanding t = true) :
    Inv { s with tests := tests } := by
  refine ⟨h.effects, h.launched, fun t ht ↦ ?_, fun t ht ↦ ?_, fun hbegun ↦ ?_⟩
  · obtain ⟨hover, hsame⟩ := hattempt t ht
    exact hsame.trans (h.tested t hover)
  · by_contra hover
    exact (hattempt t hover).1 (h.unstarted t ht)
  · obtain ⟨hhandlers, hlaunched, hdisconnecting, hnone⟩ := h.ended hbegun
    refine ⟨hhandlers, hlaunched, hdisconnecting, fun t ↦ ?_⟩
    rw [Bool.eq_false_iff]
    intro ht
    have hbefore := hout t ht
    rw [hnone t] at hbefore
    cases hbefore

/-- A job moves, from a place where it has a verdict to come or to one where it has none. -/
theorem inv_setPc {s : VpnBackend} (h : Inv s) {t : ℕ} {pc : TestPc}
    (hover : (s.tests t).pc ≠ .over)
    (hout : pc ≠ .over → (pc.late && s.connectivityFailureHandled) = false →
      s.outstanding t = true) : Inv (s.setPc t pc) := by
  refine h.withTests (fun u hu ↦ ?_) fun u hu ↦ ?_ <;> by_cases htu : u = t
  · subst htu
    rw [Function.update_self] at hu ⊢
    exact ⟨hover, rfl⟩
  · rw [Function.update_of_ne htu] at hu ⊢
    exact ⟨hu, rfl⟩
  · subst htu
    simp only [VpnBackend.outstanding, Function.update_self, Bool.and_eq_true,
      decide_eq_true_eq, Bool.not_eq_true'] at hu
    exact hout hu.1 hu.2
  · simpa [VpnBackend.outstanding, htu] using hu

/-- An update of a test that leaves its job where it is. -/
theorem inv_samePc {s : VpnBackend} (h : Inv s) {t : ℕ} {test : Test}
    (hpc : test.pc = (s.tests t).pc) (hattempt : test.attempt = (s.tests t).attempt) :
    Inv { s with tests := Function.update s.tests t test } := by
  refine h.withTests (fun u hu ↦ ?_) fun u hu ↦ ?_ <;> by_cases htu : u = t
  · subst htu
    rw [Function.update_self] at hu ⊢
    exact ⟨hpc ▸ hu, hattempt⟩
  · rw [Function.update_of_ne htu] at hu ⊢
    exact ⟨hu, rfl⟩
  · subst htu
    simpa [VpnBackend.outstanding, hpc] using hu
  · simpa [VpnBackend.outstanding, htu] using hu

/-- Which job is stored is no part of the invariant. -/
theorem Inv.withJob {s : VpnBackend} (h : Inv s) (job : Option ℕ) :
    Inv { s with connectivityTestJob := job } :=
  ⟨h.effects, h.launched, h.tested, h.unstarted, h.ended⟩

theorem inv_cancelTest {s : VpnBackend} (h : Inv s) : Inv s.cancelTest := by
  unfold VpnBackend.cancelTest
  split
  · exact h
  · rename_i t _
    have hsame : Inv { s with
        tests := Function.update s.tests t { s.tests t with cancelled := true } } :=
      inv_samePc h rfl rfl
    exact hsame.withJob none

/-! ### The verdicts -/

/-- Before a disconnect of the live attempt. -/
theorem inv_of_live {s : VpnBackend} (heffects : Deserved s)
    (hlaunched : ∀ l ∈ s.launched, l.attempt = s.connectionId)
    (htested : ∀ t, (s.tests t).pc ≠ .over → (s.tests t).attempt = s.connectionId)
    (hunstarted : ∀ t, s.started ≤ t → (s.tests t).pc = .over) (hbegun : s.begun = false) :
    Inv s := by
  refine ⟨heffects, hlaunched, htested, hunstarted, fun hend ↦ ?_⟩
  rw [hbegun] at hend
  cases hend

theorem launched_append {s : VpnBackend} (h : Inv s) {l : Launch}
    (hl : l.attempt = s.connectionId) : ∀ k ∈ s.launched ++ [l], k.attempt = s.connectionId := by
  intro k hk
  rcases List.mem_append.mp hk with hold | hnew
  · exact h.launched k hold
  · rw [List.mem_singleton.mp hnew]
    exact hl

theorem inv_connectivityTestPassed {s : VpnBackend} (h : Inv s) {attempt : Option ℕ}
    (hattempt : attempt = s.connectionId) (hbegun : s.begun = false) :
    Inv (s.connectivityTestPassed attempt) :=
  inv_of_live (deserved_cons h.effects (deserves_of_live hattempt hbegun))
    (launched_append h hattempt) h.tested h.unstarted hbegun

/-- A failure that was handled before has no effect. -/
theorem inv_failedConnectivityTest {s : VpnBackend} (h : Inv s) {attempt : Option ℕ}
    (hattempt : attempt = s.connectionId)
    (hbegun : s.connectivityFailureHandled = false → s.begun = false) :
    Inv (s.failedConnectivityTest attempt) := by
  unfold VpnBackend.failedConnectivityTest
  split_ifs with hhandled hreconnecting
  · exact h
  · exact inv_of_live h.effects (launched_append h hattempt) h.tested h.unstarted
      (hbegun (Bool.eq_false_iff.mpr hhandled))
  · exact inv_of_live h.effects (launched_append h hattempt) h.tested h.unstarted
      (hbegun (Bool.eq_false_iff.mpr hhandled))

@[simp] theorem failedConnectivityTest_handled (s : VpnBackend) (attempt : Option ℕ) :
    (s.failedConnectivityTest attempt).connectivityFailureHandled = true := by
  unfold VpnBackend.failedConnectivityTest
  split
  · assumption
  · rfl

@[simp] theorem failedConnectivityTest_tests (s : VpnBackend) (attempt : Option ℕ) :
    (s.failedConnectivityTest attempt).tests = s.tests := by
  unfold VpnBackend.failedConnectivityTest
  split <;> rfl

theorem inv_advance {s s' : VpnBackend} {t : ℕ} (h : Inv s) (hstep : s.advance t = some s') :
    Inv s' := by
  unfold VpnBackend.advance at hstep
  split at hstep <;> rename_i hpc
  · cases hstep
    have hover : (s.tests t).pc ≠ .over := by simp [hpc]
    have hout : s.outstanding t = true := outstanding_of_pc hover (by rw [hpc]; rfl)
    have hpassed := inv_connectivityTestPassed h (h.tested t hover) (h.begun_of_outstanding hout)
    exact inv_setPc hpassed hover fun _ _ ↦ hout
  · cases hstep
    have hover : (s.tests t).pc ≠ .over := by simp [hpc]
    have hout : s.outstanding t = true := outstanding_of_pc hover (by rw [hpc]; rfl)
    have hfailed := inv_failedConnectivityTest h (h.tested t hover)
      fun _ ↦ h.begun_of_outstanding hout
    exact inv_setPc hfailed (by simpa using hover) (by simp [TestPc.late])
  · cases hstep
    have hover : (s.tests t).pc ≠ .over := by simp [hpc]
    have hfailed := inv_failedConnectivityTest h (h.tested t hover) fun hhandled ↦
      h.begun_of_outstanding (t := t) (by simp [VpnBackend.outstanding, hpc, hhandled])
    exact inv_setPc hfailed (by simpa using hover) (by simp)
  all_goals cases hstep

/-! ### The handlers of an UP -/

theorem cancelTest_frame (s : VpnBackend) :
    s.cancelTest.connectionId = s.connectionId ∧ s.cancelTest.begun = s.begun ∧
      s.cancelTest.started = s.started := by
  unfold VpnBackend.cancelTest
  split <;> exact ⟨rfl, rfl, rfl⟩

theorem inv_launchTest {s : VpnBackend} (h : Inv s) (hbegun : s.begun = false) :
    Inv s.launchTest := by
  have hcancel := inv_cancelTest h
  obtain ⟨hid, hbegun', hstarted⟩ := cancelTest_frame s
  refine inv_of_live hcancel.effects hcancel.launched (fun t ht ↦ ?_) (fun t ht ↦ ?_)
    (hbegun'.trans hbegun)
  · by_cases hnew : t = s.started
    · subst hnew
      simp only [VpnBackend.launchTest, Function.update_self]
      exact hid.symm
    · simp only [VpnBackend.launchTest, Function.update_of_ne hnew] at ht ⊢
      exact hcancel.tested t ht
  · have hlt : s.started + 1 ≤ t := ht
    have hne : t ≠ s.started := by omega
    simp only [VpnBackend.launchTest, Function.update_of_ne hne]
    exact hcancel.unstarted t (by omega)

theorem inv_testConnectivity {s : VpnBackend} (h : Inv s) (hbegun : s.begun = false) :
    Inv s.testConnectivity := by
  unfold VpnBackend.testConnectivity
  obtain ⟨hid, hbegun', -⟩ := cancelTest_frame s
  split_ifs
  · exact inv_connectivityTestPassed (inv_cancelTest h) hid.symm (hbegun'.trans hbegun)
  · exact h
  · exact inv_launchTest h hbegun

/-- How many handlers there are does not matter before a disconnect. -/
theorem Inv.withHandlers {s : VpnBackend} (h : Inv s) (hbegun : s.begun = false) (handlers : ℕ) :
    Inv { s with handlers := handlers } :=
  inv_of_live h.effects h.launched h.tested h.unstarted hbegun

theorem testConnectivity_begun (s : VpnBackend) : s.testConnectivity.begun = s.begun := by
  unfold VpnBackend.testConnectivity
  split_ifs
  · exact (cancelTest_frame s).2.1
  · rfl
  · exact (cancelTest_frame s).2.1

/-! ### Connects and disconnects -/

theorem inv_connect {s : VpnBackend} (h : Inv s) {emergency : Bool}
    (hunhurried : Unhurried s (.connect emergency)) :
    Inv { s with
      connectionId := some s.nextId
      nextId := s.nextId + 1
      starting := true
      emergencyConnect := emergency
      begun := false } := by
  obtain ⟨-, hover, hlaunched⟩ := hunhurried
  refine inv_of_live h.effects (by simp [hlaunched]) (fun t ht ↦ ?_) h.unstarted rfl
  by_cases hlt : t < s.started
  · exact absurd (hover t hlt) ht
  · exact absurd (h.unstarted t (Nat.le_of_not_lt hlt)) ht

/-- A disconnect begins when nothing can come of a test any more. -/
theorem inv_beginDisconnect {s : VpnBackend} (h : Inv s) (huntested : Untested s)
    (hlaunched : s.launched = []) : Inv s.beginDisconnect := by
  obtain ⟨hhandlers, hnone⟩ := huntested
  refine ⟨h.effects, h.launched, h.tested, h.unstarted,
    fun _ ↦ ⟨hhandlers, hlaunched, rfl, fun t ↦ ?_⟩⟩
  by_cases hlt : t < s.started
  · exact hnone t hlt
  · exact outstanding_of_over (h.unstarted t (Nat.le_of_not_lt hlt))

/-- A coroutine of a verdict runs. -/
theorem inv_run {s : VpnBackend} (h : Inv s) {i : ℕ} {l : Launch} (hl : s.launched[i]? = some l)
    (hunhurried : Unhurried s (.run i)) :
    Inv ({ s with launched := s.launched.eraseIdx i }.perform l) := by
  have hmem : l ∈ s.launched := List.mem_of_getElem? hl
  have hbegun := h.begun_of_launched hmem
  have hdeserves := deserves_of_live (h.launched l hmem) hbegun
  have herased : Inv { s with launched := s.launched.eraseIdx i } :=
    inv_of_live h.effects (fun k hk ↦ h.launched k (List.mem_of_mem_eraseIdx hk)) h.tested
      h.unstarted hbegun
  cases l with
  | publish attempt =>
    simp only [VpnBackend.perform]
    split_ifs
    · exact herased
    · have hattempt : attempt = s.connectionId := h.launched _ hmem
      exact inv_of_live h.effects (launched_append herased hattempt) h.tested h.unstarted hbegun
  | emit attempt =>
    exact inv_of_live (deserved_cons h.effects hdeserves) herased.launched h.tested h.unstarted
      hbegun
  | disconnect attempt =>
    obtain ⟨huntested, hlength⟩ := hunhurried _ hl rfl
    have hempty : s.launched.eraseIdx i = [] := by
      have hi := (List.getElem?_eq_some_iff.mp hl).1
      rw [← List.length_eq_zero_iff, List.length_eraseIdx_of_lt hi, hlength]
    have heffect : Inv { s with
        launched := s.launched.eraseIdx i
        effects := ⟨.disconnected, attempt, s.deserves attempt⟩ :: s.effects } :=
      inv_of_live (deserved_cons h.effects hdeserves) herased.launched h.tested h.unstarted hbegun
    exact inv_beginDisconnect heffect huntested hempty

/-! ### Runs -/

theorem inv_step {s s' : VpnBackend} {a : Action} (h : Inv s) (hunhurried : Unhurried s a)
    (hstep : step s a = some s') : Inv s' := by
  cases a with
  | connect emergency =>
    cases hstep
    exact inv_connect h hunhurried
  | runConnect =>
    simp only [step] at hstep
    split_ifs at hstep
    cases hstep
    exact inv_of_live h.effects h.launched h.tested h.unstarted hunhurried
  | engineUp =>
    simp only [step] at hstep
    split_ifs at hstep with hdisconnecting
    cases hstep
    refine h.withHandlers ?_ (s.handlers + 1)
    rw [Bool.eq_false_iff]
    intro hbegun
    exact hdisconnecting (h.ended hbegun).2.2.1
  | testConnectivity =>
    simp only [step] at hstep
    split_ifs at hstep with hhandlers
    cases hstep
    have hbegun := h.begun_of_handlers hhandlers
    exact (inv_testConnectivity h hbegun).withHandlers
      ((testConnectivity_begun s).trans hbegun) (s.handlers - 1)
  | store t =>
    simp only [step] at hstep
    split_ifs at hstep
    cases hstep
    have hsame : Inv { s with
        tests := Function.update s.tests t { s.tests t with unstored := false } } :=
      inv_samePc h rfl rfl
    exact hsame.withJob (some t)
  | start t =>
    simp only [step] at hstep
    split_ifs at hstep with hpc <;> cases hstep <;>
      exact inv_setPc h (by simp [hpc]) fun _ _ ↦
        outstanding_of_pc (by simp [hpc]) (by rw [hpc]; rfl)
  | result t success =>
    simp only [step] at hstep
    split_ifs at hstep with hrunning <;> cases hstep <;>
      exact inv_setPc h (by simp [hrunning.1]) fun _ _ ↦
        outstanding_of_pc (by simp [hrunning.1]) (by rw [hrunning.1]; rfl)
  | throws t =>
    simp only [step] at hstep
    split_ifs at hstep with hpc
    cases hstep
    refine inv_setPc h (by rcases hpc with hpc | hpc <;> simp [hpc]) fun _ hhandled ↦ ?_
    simp only [TestPc.late, Bool.true_and] at hhandled
    rcases hpc with hpc | hpc <;> simp [VpnBackend.outstanding, hpc, hhandled]
  | advance t => exact inv_advance h hstep
  | finish t =>
    simp only [step] at hstep
    split_ifs at hstep with hpc
    cases hstep
    exact inv_setPc h (by simp [hpc]) (by simp)
  | collect =>
    cases hstep
    exact inv_cancelTest h
  | disconnect =>
    cases hstep
    exact inv_beginDisconnect h hunhurried.1 hunhurried.2
  | run i =>
    simp only [step] at hstep
    split at hstep <;> rename_i hl
    · cases hstep
    · cases hstep
      exact inv_run h hl hunhurried

theorem inv_initial : Inv VpnBackend.initial :=
  inv_of_live nofun nofun (fun _ ht ↦ absurd rfl ht) (fun _ _ ↦ rfl) rfl

/-- **A verdict concerns its own attempt.** In every run whose steps all meet the condition, every
effect of a verdict came while the attempt under test was the live one and before any disconnect of
it. -/
theorem deserved_of_unhurried {s : VpnBackend}
    (hreach : Reaches step Unhurried VpnBackend.initial s) : Deserved s := by
  have h : Inv s :=
    hreach.invariant Inv (fun _ _ _ hx hunhurried hstep ↦ inv_step hx hunhurried hstep) inv_initial
  exact h.effects

/-- The engine comes up and a test is launched and running. -/
def tests (t : ℕ) : List Action :=
  [.runConnect, .engineUp, .testConnectivity, .store t, .start t]

/-- A test fails, its disconnect runs, and the test of the next attempt passes. -/
def unhurriedRun : List Action :=
  List.flatten [[.connect false], tests 0, [.result 0 false, .advance 0, .run 0, .finish 0],
    [.connect false], tests 1, [.result 1 true, .advance 1, .run 0, .run 0]]

/-- In `unhurriedRun` both verdicts have their effects. -/
theorem deserved_of_unhurried_tested :
    ∃ s, Reaches step Unhurried VpnBackend.initial s ∧
      s.effects.map Effect.kind = [.published, .established, .disconnected] ∧
      ∀ e ∈ s.effects, e.deserved = true := by
  obtain ⟨s, hreach, hcheck⟩ := exists_reaches_of_run step Unhurried VpnBackend.initial unhurriedRun
    (fun s ↦ decide (s.effects.map Effect.kind = [.published, .established, .disconnected]))
    (by decide)
  exact ⟨s, hreach, of_decide_eq_true hcheck, deserved_of_unhurried hreach⟩

/-! ### Two runs in which a verdict comes too late -/

/-- A test is running when the user disconnects; the collector cancels it, and the job takes its own
cancellation for a failed test. -/
def cancelledRun : List Action :=
  List.flatten [[.connect false], tests 0,
    [.disconnect, .collect, .throws 0, .advance 0, .run 0]]

/-- A test that is cancelled because its session is ending issues another disconnect. -/
theorem not_deserved_cancelled :
    ¬ ∀ s, Reaches step Always VpnBackend.initial s → Deserved s := by
  intro hall
  obtain ⟨s, hreach, hbad⟩ := exists_reaches_of_run step Always VpnBackend.initial cancelledRun
    (fun s ↦ decide (⟨.disconnected, some 0, false⟩ ∈ s.effects)) (by decide)
  have hdeserved := hall s hreach _ (of_decide_eq_true hbad)
  cases hdeserved

/-- As `cancelledRun`, but the next attempt begins before the disconnect runs. -/
def reusedRun : List Action :=
  List.flatten [[.connect false], tests 0,
    [.disconnect, .collect, .throws 0, .advance 0, .connect false, .runConnect, .run 0]]

/-- The disconnect of a test hits the attempt after the one that was tested. -/
theorem not_deserved_reused :
    ¬ ∀ s, Reaches step Always VpnBackend.initial s → Deserved s := by
  intro hall
  obtain ⟨s, hreach, hbad⟩ := exists_reaches_of_run step Always VpnBackend.initial reusedRun
    (fun s ↦ decide (s.connectionId = some 1 ∧ ⟨.disconnected, some 0, false⟩ ∈ s.effects))
    (by decide)
  have hdeserved := hall s hreach _ (of_decide_eq_true hbad).2
  cases hdeserved

end WindscribeVpn.Backend.ConnectivityTest
