import WindscribeVpn.Foundations.Runs
import Mathlib.Data.Nat.Notation
import Mathlib.Logic.Function.Basic

/-!
# One engine start against its disconnects

`VpnBackend.kt` starts an engine in a coroutine of its own (`launchEngineStart`, `runConnect`) and
stops it in whatever coroutine calls `disconnect` (`runDisconnect`). A disconnect marks the backend,
takes the start coroutine out of `engineStartJob`, cancels it and joins it, and then stops the
engine. Cancellation reaches the start coroutine at its suspension points, up to the entry of
`withContext(Dispatchers.IO)`. Behind that only the superseded check looks at the mark, and behind
the check lie `prepare`, which blocks on DNS, and the attach.

The model has one connect and any number of disconnects, interleaved by `step`. A caller of
`disconnect` may itself be cancelled at any time, and the attempt's own timeout job is cancelled by
the disconnect it runs. Of the coroutine library it is assumed that a `join` from a cancelled
coroutine throws at once, that a coroutine cancelled before its first dispatch does not run, and
that `withContext` is not entered by a cancelled coroutine.

`TornDown` is what a disconnect promises; `not_tornDown_timeout` and `not_tornDown_unstored` are
runs in which an engine attaches after every disconnect has returned. `Awaited` is the condition
under which that cannot happen, and `tornDown_of_awaited` proves the promise for every run whose
steps all meet it.
-/

set_option autoImplicit false
set_option relaxedAutoImplicit false

namespace WindscribeVpn.Backend.EngineStart

open Foundations.Runs

/-! ### The coroutines -/

/-- Where the start coroutine is in `runConnect`. -/
inductive StartPc
  | notLaunched
  /-- Launched and not yet dispatched. -/
  | launched
  /-- Dispatched, about to clear `disconnecting`. -/
  | entered
  /-- In `startControlDIfRequired`. -/
  | proxy
  /-- In `awaitService`. -/
  | awaiting
  /-- About to enter `withContext(Dispatchers.IO)`. -/
  | enteringIo
  /-- On the IO dispatcher, before the superseded check. -/
  | inIo
  /-- Behind the check, in `prepare`. -/
  | preparing
  /-- Behind `prepare`, waiting for the monitor of the `TunnelManager`. -/
  | attaching
  /-- In a `disconnect` of its own. -/
  | tearingDown (caller : ℕ)
  | done
  deriving DecidableEq, Repr

/-- Who calls `disconnect`. -/
inductive Kind
  /-- The user, a connectivity test, or anyone else. -/
  | other
  /-- The attempt's own connect-timeout job. -/
  | timeout
  /-- The start coroutine, before `withContext`. -/
  | start
  /-- The start coroutine, inside `withContext`, whose `Job` is not `engineStartJob`. -/
  | startInIo
  deriving DecidableEq, Repr

/-- Where a caller is in `disconnect`. -/
inductive CallerPc
  /-- About to cancel `connectionJob`. -/
  | entered
  /-- About to set `disconnecting`. -/
  | marking
  /-- About to read `engineStartJob`. -/
  | reading
  /-- Took the start coroutine; about to compare it with its own. -/
  | comparing
  /-- In `cancelAndJoin`, the start coroutine cancelled. -/
  | joining
  /-- About to call `TunnelManager.disconnect`. -/
  | stopping
  | returned
  deriving DecidableEq, Repr

/-- A caller of `disconnect`; `cancelled` says that its coroutine is. -/
structure Caller where
  kind : Kind
  pc : CallerPc
  cancelled : Bool
  deriving DecidableEq, Repr

/-- One backend with one connect. `stored` says that `launchEngineStart` has written
`engineStartJob`, which holds the start coroutine or null, and `active` that the `TunnelManager` has
an active engine. Callers below `begun` have called `disconnect`. -/
structure VpnBackend where
  start : StartPc
  startCancelled : Bool
  stored : Bool
  engineStartJob : Bool
  disconnecting : Bool
  connectionId : ℕ
  attempt : ℕ
  active : Bool
  callers : ℕ → Caller
  begun : ℕ

/-- A connect has been issued and is about to launch the start coroutine. -/
def VpnBackend.issued (connectionId : ℕ) : VpnBackend where
  start := .notLaunched
  startCancelled := false
  stored := false
  engineStartJob := false
  disconnecting := false
  connectionId := connectionId
  attempt := 0
  active := false
  callers := fun _ ↦ ⟨.other, .entered, false⟩
  begun := 0

/-- An action of one of the coroutines. -/
inductive Action
  /-- `mainScope.launch`. -/
  | launch
  /-- `engineStartJob = …`. -/
  | store
  /-- The start coroutine takes its next step. -/
  | advance
  /-- The start coroutine observes its cancellation at a suspension point. -/
  | observe
  /-- The start coroutine fails and calls `disconnect`. -/
  | fail
  /-- The start coroutine leaves its own `disconnect`. -/
  | leave
  /-- Somebody calls `disconnect`. -/
  | disconnect (timeout : Bool)
  /-- A caller takes its next step in `disconnect`. -/
  | proceed (caller : ℕ)
  /-- The `join` of a cancelled caller throws. -/
  | joinThrows (caller : ℕ)
  /-- The coroutine of a caller is cancelled. -/
  | cancelCaller (caller : ℕ)
  deriving DecidableEq, Repr

/-! ### Steps -/

/-- A new caller enters `disconnect`. -/
def VpnBackend.call (s : VpnBackend) (kind : Kind) : VpnBackend :=
  { s with
    callers := Function.update s.callers s.begun ⟨kind, .entered, false⟩
    begun := s.begun + 1 }

/-- Replaces one caller. -/
def VpnBackend.setCaller (s : VpnBackend) (c : ℕ) (caller : Caller) : VpnBackend :=
  { s with callers := Function.update s.callers c caller }

/-- `runConnect` from one suspension point or shared access to the next. -/
def VpnBackend.advance (s : VpnBackend) : Option VpnBackend :=
  match s.start with
  | .launched =>
    if s.startCancelled then some { s with start := .done } else some { s with start := .entered }
  | .entered =>
    some { s with start := .proxy, disconnecting := false, attempt := s.connectionId }
  | .proxy => some { s with start := .awaiting }
  | .awaiting => some { s with start := .enteringIo }
  | .enteringIo =>
    if s.startCancelled then some { s with start := .done } else some { s with start := .inIo }
  | .inIo =>
    if s.disconnecting || s.connectionId != s.attempt then some { s with start := .done }
    else some { s with start := .preparing }
  | .preparing => some { s with start := .attaching }
  | .attaching => some { s with start := .done, active := true }
  | .notLaunched | .tearingDown _ | .done => none

/-- The failure paths of `runConnect`: the DNS proxy or the service does not start, there is no
profile, `prepare` or the attach throws. -/
def VpnBackend.fail (s : VpnBackend) : Option VpnBackend :=
  match s.start with
  | .proxy | .awaiting => some { s.call .start with start := .tearingDown s.begun }
  | .inIo | .preparing | .attaching =>
    some { s.call .startInIo with start := .tearingDown s.begun }
  | _ => none

/-- `disconnect` and `runDisconnect`, one shared access at a time. -/
def VpnBackend.proceed (s : VpnBackend) (c : ℕ) : Option VpnBackend :=
  let caller := s.callers c
  match caller.pc with
  | .entered =>
    some (s.setCaller c { caller with
      pc := .marking
      cancelled := caller.cancelled || decide (caller.kind = .timeout) })
  | .marking => some { s.setCaller c { caller with pc := .reading } with disconnecting := true }
  | .reading =>
    if s.engineStartJob then
      some { s.setCaller c { caller with pc := .comparing } with engineStartJob := false }
    else some (s.setCaller c { caller with pc := .stopping })
  | .comparing =>
    match caller.kind with
    | .start => some (s.setCaller c { caller with pc := .stopping })
    | .startInIo =>
      some { s.setCaller c { caller with pc := .joining, cancelled := true } with
        startCancelled := true }
    | .other | .timeout =>
      some { s.setCaller c { caller with pc := .joining } with startCancelled := true }
  | .joining =>
    if s.start = .done then some (s.setCaller c { caller with pc := .stopping }) else none
  | .stopping => some { s.setCaller c { caller with pc := .returned } with active := false }
  | .returned => none

/-- One step of the backend. -/
def step (s : VpnBackend) : Action → Option VpnBackend
  | .launch =>
    if s.start = .notLaunched then some { s with start := .launched } else none
  | .store =>
    if s.start ≠ .notLaunched ∧ s.stored = false then
      some { s with stored := true, engineStartJob := true }
    else none
  | .advance => s.advance
  | .observe =>
    if s.startCancelled = true ∧ (s.start = .proxy ∨ s.start = .awaiting) then
      some { s with start := .done }
    else none
  | .fail => s.fail
  | .leave =>
    match s.start with
    | .tearingDown c =>
      if (s.callers c).pc = .returned then some { s with start := .done } else none
    | _ => none
  | .disconnect timeout => some (s.call (if timeout then .timeout else .other))
  | .proceed c => if c < s.begun then s.proceed c else none
  | .joinThrows c =>
    if c < s.begun ∧ (s.callers c).pc = .joining ∧ (s.callers c).cancelled = true then
      some (s.setCaller c { s.callers c with pc := .stopping })
    else none
  | .cancelCaller c =>
    if c < s.begun then some (s.setCaller c { s.callers c with cancelled := true }) else none

/-! ### What a disconnect promises -/

/-- Disconnects were issued and all of them have returned. -/
def Settled (s : VpnBackend) : Prop := 0 < s.begun ∧ ∀ c < s.begun, (s.callers c).pc = .returned

instance decidableSettled (s : VpnBackend) : Decidable (Settled s) :=
  inferInstanceAs (Decidable (_ ∧ _))

/-- Once every disconnect has returned, there is no active engine and there never will be one. -/
def TornDown (s : VpnBackend) : Prop :=
  Settled s → ∀ later, Reaches step Always s later → later.active = false

/-- The start coroutine is over, is cancelled before the last suspension point, or will find the
mark at its superseded check. -/
def VpnBackend.harmless (s : VpnBackend) : Bool :=
  match s.start with
  | .tearingDown _ | .done => true
  | .notLaunched => false
  | .launched | .entered => s.startCancelled
  | .proxy | .awaiting | .enteringIo => s.startCancelled || s.disconnecting
  | .inIo => s.disconnecting
  | .preparing | .attaching => false

/-- The condition of a disconnect: where it does not wait for the start coroutine, because
`engineStartJob` is not written yet or because its `join` throws, the start coroutine is before its
superseded check and will not get past it. -/
def Awaited (s : VpnBackend) : Action → Prop
  | .proceed c =>
    (s.callers c).pc = .reading ∧ s.stored = false → s.harmless = true
  | .joinThrows _ => s.harmless = true
  | _ => True

instance decidableAwaited (s : VpnBackend) : (a : Action) → Decidable (Awaited s a)
  | .proceed c => inferInstanceAs
      (Decidable ((s.callers c).pc = .reading ∧ s.stored = false → s.harmless = true))
  | .joinThrows _ => inferInstanceAs (Decidable (s.harmless = true))
  | .launch | .store | .advance | .observe | .fail | .leave | .disconnect _ | .cancelCaller _ =>
    inferInstanceAs (Decidable True)

/-! ### The start coroutine -/

/-- What a step can do to the start coroutine and the marks it looks at. -/
inductive StartMove (s s' : VpnBackend) : Prop
  /-- Nothing but more marks. -/
  | marked (hstart : s'.start = s.start)
      (hcancelled : s.startCancelled = true → s'.startCancelled = true)
      (hmark : s.disconnecting = true → s'.disconnecting = true)
      (hactive : s'.active = true → s.active = true)
  /-- It is over, or in a disconnect of its own. -/
  | ended (hstart : s'.start = .done ∨ ∃ c, s'.start = .tearingDown c)
      (hactive : s'.active = true → s.active = true)
  /-- It attaches the engine. -/
  | attached (hstart : s.start = .attaching) (hstart' : s'.start = .done)
  /-- It goes on. -/
  | went (hactive : s'.active = s.active) (hcancelled : s'.startCancelled = s.startCancelled)
      (hpc : (s.start = .notLaunched ∧ s'.start = .launched ∨
        s.start = .launched ∧ s'.start = .entered ∧ s.startCancelled = false ∨
        s.start = .entered ∧ s'.start = .proxy ∨
        s.start = .proxy ∧ s'.start = .awaiting ∧ s'.disconnecting = s.disconnecting ∨
        s.start = .awaiting ∧ s'.start = .enteringIo ∧ s'.disconnecting = s.disconnecting ∨
        s.start = .enteringIo ∧ s'.start = .inIo ∧ s.startCancelled = false ∧
          s'.disconnecting = s.disconnecting ∨
        s.start = .inIo ∧ s'.start = .preparing ∧ s.disconnecting = false ∨
        s.start = .preparing ∧ s'.start = .attaching))

theorem startMove_advance {s s' : VpnBackend} (hstep : s.advance = some s') : StartMove s s' := by
  unfold VpnBackend.advance at hstep
  split at hstep
  case h_1 hpc =>
    split_ifs at hstep with hcancelled <;> obtain rfl := Option.some.inj hstep
    · exact .ended (Or.inl rfl) id
    · exact .went rfl rfl (by simp [hpc, hcancelled])
  case h_5 hpc =>
    split_ifs at hstep with hcancelled <;> obtain rfl := Option.some.inj hstep
    · exact .ended (Or.inl rfl) id
    · exact .went rfl rfl (by simp [hpc, hcancelled])
  case h_6 hpc =>
    split_ifs at hstep with hsuperseded <;> obtain rfl := Option.some.inj hstep
    · exact .ended (Or.inl rfl) id
    · refine .went rfl rfl ?_
      simp only [Bool.or_eq_true, not_or, Bool.not_eq_true] at hsuperseded
      simp [hpc, hsuperseded.1]
  case h_8 hpc =>
    obtain rfl := Option.some.inj hstep
    exact .attached hpc rfl
  case h_2 hpc | h_3 hpc | h_4 hpc | h_7 hpc =>
    obtain rfl := Option.some.inj hstep
    exact .went rfl rfl (by simp [hpc])
  all_goals cases hstep

theorem startMove_proceed {s s' : VpnBackend} {c : ℕ} (hstep : s.proceed c = some s') :
    StartMove s s' := by
  unfold VpnBackend.proceed at hstep
  dsimp only at hstep
  split at hstep
  case h_1 | h_2 =>
    obtain rfl := Option.some.inj hstep
    exact .marked rfl id (by simp [VpnBackend.setCaller]) id
  case h_3 =>
    split_ifs at hstep <;> obtain rfl := Option.some.inj hstep <;> exact .marked rfl id id id
  case h_4 =>
    split at hstep <;> obtain rfl := Option.some.inj hstep <;>
      exact .marked rfl (by simp [VpnBackend.setCaller]) id id
  case h_5 =>
    split_ifs at hstep
    obtain rfl := Option.some.inj hstep
    exact .marked rfl id id id
  case h_6 =>
    obtain rfl := Option.some.inj hstep
    exact .marked rfl id id (by simp)
  case h_7 => cases hstep

theorem startMove_step {s s' : VpnBackend} {a : Action} (hstep : step s a = some s') :
    StartMove s s' := by
  cases a with
  | launch =>
    simp only [step] at hstep
    split_ifs at hstep with hpc
    obtain rfl := Option.some.inj hstep
    exact .went rfl rfl (by simp [hpc])
  | store =>
    simp only [step] at hstep
    split_ifs at hstep
    obtain rfl := Option.some.inj hstep
    exact .marked rfl id id id
  | advance => exact startMove_advance hstep
  | observe =>
    simp only [step] at hstep
    split_ifs at hstep
    obtain rfl := Option.some.inj hstep
    exact .ended (Or.inl rfl) id
  | fail =>
    simp only [step, VpnBackend.fail] at hstep
    split at hstep
    case h_6 => cases hstep
    all_goals
      obtain rfl := Option.some.inj hstep
      exact .ended (Or.inr ⟨s.begun, rfl⟩) id
  | leave =>
    simp only [step] at hstep
    split at hstep
    · split_ifs at hstep
      obtain rfl := Option.some.inj hstep
      exact .ended (Or.inl rfl) id
    · cases hstep
  | disconnect timeout =>
    obtain rfl := Option.some.inj hstep
    exact .marked rfl id id id
  | proceed c =>
    simp only [step] at hstep
    split_ifs at hstep
    exact startMove_proceed hstep
  | joinThrows c | cancelCaller c =>
    simp only [step] at hstep
    split_ifs at hstep
    obtain rfl := Option.some.inj hstep
    exact .marked rfl id id id

/-- A start coroutine that cannot attach any more stays so. -/
theorem harmless_step {s s' : VpnBackend} {a : Action} (h : s.harmless = true)
    (hstep : step s a = some s') : s'.harmless = true := by
  unfold VpnBackend.harmless at h ⊢
  cases startMove_step hstep with
  | marked hstart hcancelled hmark _ => grind
  | ended hstart _ => grind
  | attached hstart hstart' => grind
  | went _ hcancelled hpc => grind

/-! ### The callers -/

/-- The caller has taken the start coroutine and waits for it. -/
def CallerPc.waits : CallerPc → Bool
  | .comparing | .joining => true
  | _ => false

/-- The caller no longer waits for anything. -/
def CallerPc.past : CallerPc → Bool
  | .stopping | .returned => true
  | _ => false

/-- The start coroutine cannot attach any more, or a caller still waits for it. -/
def Watched (s : VpnBackend) : Prop := s.harmless = true ∨ ∃ c, (s.callers c).pc.waits = true

/-- The invariant of the disconnects. -/
structure Guarded (s : VpnBackend) : Prop where
  /-- A caller that has not called is at the start. -/
  unbegun : ∀ c, s.begun ≤ c → s.callers c = ⟨.other, .entered, false⟩
  /-- The start coroutine calls `disconnect` only at its end. -/
  own : ∀ c, (s.callers c).kind = .start → s.harmless = true
  /-- Whoever has taken the start coroutine waits for it. -/
  taken : s.stored = true → s.engineStartJob = false → Watched s
  /-- Nobody goes on before the start coroutine is waited for. -/
  past : ∀ c, (s.callers c).pc.past = true → Watched s
  /-- While there is an engine, a caller that has looked for it has yet to stop it. -/
  active : s.active = true → ∀ c, (s.callers c).pc.waits = true ∨ (s.callers c).pc.past = true →
    ∃ c', (s.callers c').pc.waits = true ∨ (s.callers c').pc = .stopping

/-- What a step can do to the callers. -/
inductive CallerMove (s s' : VpnBackend) : Prop
  /-- Nobody moves. -/
  | still (hcallers : s'.callers = s.callers) (hbegun : s'.begun = s.begun)
      (hjob : s'.stored = true → s'.engineStartJob = false →
        s.stored = true ∧ s.engineStartJob = false)
  /-- Somebody calls. -/
  | called (kind : Kind) (hcallers : s'.callers =
      Function.update s.callers s.begun ⟨kind, .entered, false⟩) (hbegun : s'.begun = s.begun + 1)
      (hkind : kind = .start → s'.harmless = true) (hstored : s'.stored = s.stored)
      (hjob : s'.engineStartJob = s.engineStartJob)
  /-- A caller moves, and neither starts nor stops waiting. -/
  | moved (c : ℕ) (caller : Caller) (hc : c < s.begun)
      (hcallers : s'.callers = Function.update s.callers c caller) (hbegun : s'.begun = s.begun)
      (hkind : caller.kind = (s.callers c).kind) (hwaits : caller.pc.waits = (s.callers c).pc.waits)
      (hpast : caller.pc.past = true → (s.callers c).pc.past = true)
      (hreturned : (s.callers c).pc = .stopping → caller.pc = .stopping ∨ s'.active = false)
      (hstored : s'.stored = s.stored) (hjob : s'.engineStartJob = s.engineStartJob)
  /-- A caller takes the start coroutine. -/
  | took (c : ℕ) (caller : Caller) (hc : c < s.begun)
      (hcallers : s'.callers = Function.update s.callers c caller) (hbegun : s'.begun = s.begun)
      (hkind : caller.kind = (s.callers c).kind) (hwaits : caller.pc.waits = true)
  /-- A caller goes on to stop the engine. -/
  | freed (c : ℕ) (caller : Caller) (hc : c < s.begun)
      (hcallers : s'.callers = Function.update s.callers c caller) (hbegun : s'.begun = s.begun)
      (hkind : caller.kind = (s.callers c).kind) (hpc : caller.pc = .stopping)
      (hfree : s.harmless = true ∨ (s.callers c).pc.waits = false ∧ s.stored = true ∧
        s.engineStartJob = false)
      (hstored : s'.stored = s.stored) (hjob : s'.engineStartJob = s.engineStartJob)

theorem callerMove_proceed {s s' : VpnBackend} {c : ℕ} (hc : c < s.begun)
    (hown : ∀ c, (s.callers c).kind = .start → s.harmless = true)
    (hawaited : Awaited s (.proceed c)) (hstep : s.proceed c = some s') : CallerMove s s' := by
  unfold VpnBackend.proceed at hstep
  dsimp only at hstep
  split at hstep
  case h_1 hpc =>
    obtain rfl := Option.some.inj hstep
    exact .moved c _ hc rfl rfl rfl (by simp [hpc, CallerPc.waits]) (by simp [CallerPc.past])
      (by simp [hpc]) rfl rfl
  case h_2 hpc =>
    obtain rfl := Option.some.inj hstep
    exact .moved c _ hc rfl rfl rfl (by simp [hpc, CallerPc.waits]) (by simp [CallerPc.past])
      (by simp [hpc]) rfl rfl
  case h_3 hpc =>
    split_ifs at hstep with hjob <;> obtain rfl := Option.some.inj hstep
    · exact .took c _ hc rfl rfl rfl rfl
    · refine .freed c _ hc rfl rfl rfl rfl ?_ rfl rfl
      cases hstored : s.stored with
      | false => exact Or.inl (hawaited ⟨hpc, hstored⟩)
      | true => exact Or.inr ⟨by simp [hpc, CallerPc.waits], rfl, by simpa using hjob⟩
  case h_4 hpc =>
    split at hstep
    · rename_i hkind
      obtain rfl := Option.some.inj hstep
      exact .freed c _ hc rfl rfl rfl rfl (Or.inl (hown c hkind)) rfl rfl
    all_goals
      obtain rfl := Option.some.inj hstep
      exact .moved c _ hc rfl rfl rfl (by simp [hpc, CallerPc.waits]) (by simp [CallerPc.past])
        (by simp [hpc]) rfl rfl
  case h_5 hpc =>
    split_ifs at hstep with hdone
    obtain rfl := Option.some.inj hstep
    exact .freed c _ hc rfl rfl rfl rfl (Or.inl (by simp [VpnBackend.harmless, hdone])) rfl rfl
  case h_6 hpc =>
    obtain rfl := Option.some.inj hstep
    exact .moved c _ hc rfl rfl rfl (by simp [hpc, CallerPc.waits]) (by simp [hpc, CallerPc.past])
      (fun _ ↦ Or.inr rfl) rfl rfl
  case h_7 => cases hstep

theorem callerMove_step {s s' : VpnBackend} {a : Action} (h : Guarded s) (hawaited : Awaited s a)
    (hstep : step s a = some s') : CallerMove s s' := by
  cases a with
  | launch | observe =>
    simp only [step] at hstep
    split_ifs at hstep
    obtain rfl := Option.some.inj hstep
    exact .still rfl rfl fun hstored hjob ↦ ⟨hstored, hjob⟩
  | store =>
    simp only [step] at hstep
    split_ifs at hstep
    obtain rfl := Option.some.inj hstep
    exact .still rfl rfl (by simp)
  | advance =>
    simp only [step, VpnBackend.advance] at hstep
    split at hstep
    case h_1 | h_5 | h_6 =>
      split_ifs at hstep <;> obtain rfl := Option.some.inj hstep <;>
        exact .still rfl rfl fun hstored hjob ↦ ⟨hstored, hjob⟩
    case h_2 | h_3 | h_4 | h_7 | h_8 =>
      obtain rfl := Option.some.inj hstep
      exact .still rfl rfl fun hstored hjob ↦ ⟨hstored, hjob⟩
    all_goals cases hstep
  | fail =>
    simp only [step, VpnBackend.fail] at hstep
    split at hstep
    case h_6 => cases hstep
    case h_1 | h_2 =>
      obtain rfl := Option.some.inj hstep
      exact .called .start rfl rfl (fun _ ↦ rfl) rfl rfl
    all_goals
      obtain rfl := Option.some.inj hstep
      exact .called .startInIo rfl rfl (by simp) rfl rfl
  | leave =>
    simp only [step] at hstep
    split at hstep
    · split_ifs at hstep
      obtain rfl := Option.some.inj hstep
      exact .still rfl rfl fun hstored hjob ↦ ⟨hstored, hjob⟩
    · cases hstep
  | disconnect timeout =>
    obtain rfl := Option.some.inj hstep
    cases timeout with
    | true => exact .called .timeout rfl rfl (by simp) rfl rfl
    | false => exact .called .other rfl rfl (by simp) rfl rfl
  | proceed c =>
    simp only [step] at hstep
    split_ifs at hstep with hc
    exact callerMove_proceed hc h.own hawaited hstep
  | joinThrows c =>
    simp only [step] at hstep
    split_ifs at hstep with hjoining
    obtain rfl := Option.some.inj hstep
    exact .freed c _ hjoining.1 rfl rfl rfl rfl (Or.inl hawaited) rfl rfl
  | cancelCaller c =>
    simp only [step] at hstep
    split_ifs at hstep with hc
    obtain rfl := Option.some.inj hstep
    exact .moved c _ hc rfl rfl rfl rfl id (fun hpc ↦ Or.inl hpc) rfl rfl

/-! ### Steps -/

/-- An engine comes from the start coroutine only, and only while it can still attach. -/
theorem active_step {s s' : VpnBackend} {a : Action} (hstep : step s a = some s')
    (hactive : s'.active = true) : s.active = true ∨ s.harmless = false := by
  cases startMove_step hstep with
  | marked _ _ _ hsame => exact Or.inl (hsame hactive)
  | ended _ hsame => exact Or.inl (hsame hactive)
  | attached hstart _ => exact Or.inr (by simp [VpnBackend.harmless, hstart])
  | went hsame _ _ => exact Or.inl (hsame ▸ hactive)

theorem CallerPc.past_of_waits {pc : CallerPc} (hwaits : pc.waits = true) : pc.past = false := by
  cases pc <;> first | rfl | cases hwaits

/-- Whoever waits goes on waiting, or the start coroutine cannot attach any more. -/
theorem watched_move {s s' : VpnBackend} (h : Guarded s) (hmove : CallerMove s s')
    (hharmless : s.harmless = true → s'.harmless = true) (hwatched : Watched s) : Watched s' := by
  rcases hwatched with hend | ⟨c₀, hwaits₀⟩
  · exact Or.inl (hharmless hend)
  · cases hmove with
    | still hcallers _ _ => exact Or.inr ⟨c₀, by rw [hcallers]; exact hwaits₀⟩
    | called kind hcallers _ _ _ _ =>
      refine Or.inr ⟨c₀, ?_⟩
      have hne : c₀ ≠ s.begun := by
        rintro rfl
        rw [h.unbegun _ (Nat.le_refl _)] at hwaits₀
        cases hwaits₀
      rw [hcallers, Function.update_of_ne hne]
      exact hwaits₀
    | moved c caller _ hcallers _ _ hwaits _ _ _ _ =>
      refine Or.inr ⟨c₀, ?_⟩
      rw [hcallers]
      by_cases hc : c₀ = c
      · subst hc
        rw [Function.update_self, hwaits]
        exact hwaits₀
      · rw [Function.update_of_ne hc]
        exact hwaits₀
    | took c caller _ hcallers _ _ hwaits =>
      exact Or.inr ⟨c, by rw [hcallers, Function.update_self]; exact hwaits⟩
    | freed c caller _ hcallers _ _ _ hfree _ _ =>
      rcases hfree with hend | ⟨hwaits, -, -⟩
      · exact Or.inl (hharmless hend)
      · refine Or.inr ⟨c₀, ?_⟩
        have hne : c₀ ≠ c := by
          rintro rfl
          rw [hwaits] at hwaits₀
          cases hwaits₀
        rw [hcallers, Function.update_of_ne hne]
        exact hwaits₀

/-- A caller that is past its waiting was so before, or has just been let go. -/
theorem past_move {s s' : VpnBackend} (hmove : CallerMove s s') {c : ℕ}
    (hpast : (s'.callers c).pc.past = true) :
    (∃ c', (s.callers c').pc.past = true) ∨ s.harmless = true ∨
      s.stored = true ∧ s.engineStartJob = false := by
  cases hmove with
  | still hcallers _ _ => exact Or.inl ⟨c, by rw [← hcallers]; exact hpast⟩
  | called kind hcallers _ _ _ _ =>
    rw [hcallers] at hpast
    by_cases hc : c = s.begun
    · rw [hc, Function.update_self] at hpast
      cases hpast
    · rw [Function.update_of_ne hc] at hpast
      exact Or.inl ⟨c, hpast⟩
  | moved c₁ caller _ hcallers _ _ _ hbefore _ _ _ =>
    rw [hcallers] at hpast
    by_cases hc : c = c₁
    · subst hc
      rw [Function.update_self] at hpast
      exact Or.inl ⟨c, hbefore hpast⟩
    · rw [Function.update_of_ne hc] at hpast
      exact Or.inl ⟨c, hpast⟩
  | took c₁ caller _ hcallers _ _ hwaits =>
    rw [hcallers] at hpast
    by_cases hc : c = c₁
    · subst hc
      rw [Function.update_self, CallerPc.past_of_waits hwaits] at hpast
      cases hpast
    · rw [Function.update_of_ne hc] at hpast
      exact Or.inl ⟨c, hpast⟩
  | freed c₁ caller _ _ _ _ _ hfree _ _ =>
    rcases hfree with hend | ⟨-, hstored, hjob⟩
    · exact Or.inr (Or.inl hend)
    · exact Or.inr (Or.inr ⟨hstored, hjob⟩)

/-- While there is an engine, somebody still has to stop it. -/
theorem active_move {s s' : VpnBackend} (h : Guarded s) (hmove : CallerMove s s')
    (hbefore : s.active = true ∨ s.harmless = false) (hactive : s'.active = true) {c : ℕ}
    (hc : (s'.callers c).pc.waits = true ∨ (s'.callers c).pc.past = true) :
    ∃ c', (s'.callers c').pc.waits = true ∨ (s'.callers c').pc = .stopping := by
  have hold : ∀ c₀, (s.callers c₀).pc.waits = true ∨ (s.callers c₀).pc.past = true →
      ∃ c', (s.callers c').pc.waits = true ∨ (s.callers c').pc = .stopping := by
    intro c₀ hc₀
    rcases hbefore with hwas | hlive
    · exact h.active hwas c₀ hc₀
    · rcases hc₀ with hwaits | hpast
      · exact ⟨c₀, Or.inl hwaits⟩
      · rcases h.past c₀ hpast with hend | ⟨c', hwaits⟩
        · rw [hlive] at hend
          cases hend
        · exact ⟨c', Or.inl hwaits⟩
  cases hmove with
  | still hcallers _ _ =>
    rw [hcallers] at hc ⊢
    exact hold c hc
  | called kind hcallers _ _ _ _ =>
    rw [hcallers] at hc ⊢
    have hne : c ≠ s.begun := by
      rintro rfl
      rw [Function.update_self] at hc
      simp [CallerPc.waits, CallerPc.past] at hc
    rw [Function.update_of_ne hne] at hc
    obtain ⟨c', hc'⟩ := hold c hc
    refine ⟨c', ?_⟩
    have hne' : c' ≠ s.begun := by
      rintro rfl
      rw [h.unbegun _ (Nat.le_refl _)] at hc'
      simp [CallerPc.waits] at hc'
    rw [Function.update_of_ne hne']
    exact hc'
  | moved c₁ caller _ hcallers _ _ hwaits hpast hreturned _ _ =>
    have hc₀ : (s.callers c).pc.waits = true ∨ (s.callers c).pc.past = true := by
      rw [hcallers] at hc
      by_cases hcc : c = c₁
      · subst hcc
        rw [Function.update_self] at hc
        exact hc.imp (fun hw ↦ hwaits ▸ hw) hpast
      · rwa [Function.update_of_ne hcc] at hc
    obtain ⟨c', hc'⟩ := hold c hc₀
    refine ⟨c', ?_⟩
    rw [hcallers]
    by_cases hcc : c' = c₁
    · subst hcc
      rw [Function.update_self]
      rcases hc' with hw | hstopping
      · exact Or.inl (hwaits ▸ hw)
      · rcases hreturned hstopping with hsame | hgone
        · exact Or.inr hsame
        · rw [hgone] at hactive
          cases hactive
    · rw [Function.update_of_ne hcc]
      exact hc'
  | took c₁ caller _ hcallers _ _ hwaits =>
    exact ⟨c₁, Or.inl (by rw [hcallers, Function.update_self]; exact hwaits)⟩
  | freed c₁ caller _ hcallers _ _ hpc _ _ _ =>
    exact ⟨c₁, Or.inr (by rw [hcallers, Function.update_self]; exact hpc)⟩

theorem unbegun_move {s s' : VpnBackend} (h : Guarded s) (hmove : CallerMove s s') {c : ℕ}
    (hc : s'.begun ≤ c) : s'.callers c = ⟨.other, .entered, false⟩ := by
  cases hmove with
  | still hcallers hbegun _ =>
    rw [hcallers]
    exact h.unbegun c (hbegun ▸ hc)
  | called kind hcallers hbegun _ _ _ =>
    rw [hbegun] at hc
    rw [hcallers, Function.update_of_ne (by omega)]
    exact h.unbegun c (by omega)
  | moved c₁ caller hlt hcallers hbegun _ _ _ _ _ _ | took c₁ caller hlt hcallers hbegun _ _
  | freed c₁ caller hlt hcallers hbegun _ _ _ _ _ =>
    rw [hbegun] at hc
    rw [hcallers, Function.update_of_ne (by omega)]
    exact h.unbegun c hc

theorem own_move {s s' : VpnBackend} (h : Guarded s) (hmove : CallerMove s s')
    (hharmless : s.harmless = true → s'.harmless = true) {c : ℕ}
    (hkind : (s'.callers c).kind = .start) : s'.harmless = true := by
  cases hmove with
  | still hcallers _ _ => exact hharmless (h.own c (hcallers ▸ hkind))
  | called kind hcallers _ hself _ _ =>
    rw [hcallers] at hkind
    by_cases hc : c = s.begun
    · rw [hc, Function.update_self] at hkind
      exact hself hkind
    · rw [Function.update_of_ne hc] at hkind
      exact hharmless (h.own c hkind)
  | moved c₁ caller _ hcallers _ hsame _ _ _ _ _ | took c₁ caller _ hcallers _ hsame _
  | freed c₁ caller _ hcallers _ hsame _ _ _ _ =>
    rw [hcallers] at hkind
    by_cases hc : c = c₁
    · rw [hc, Function.update_self, hsame] at hkind
      exact hharmless (h.own c₁ hkind)
    · rw [Function.update_of_ne hc] at hkind
      exact hharmless (h.own c hkind)

theorem taken_move {s s' : VpnBackend} (hmove : CallerMove s s') (hstored : s'.stored = true)
    (hjob : s'.engineStartJob = false) :
    s.stored = true ∧ s.engineStartJob = false ∨ ∃ c, (s'.callers c).pc.waits = true := by
  cases hmove with
  | still _ _ hbefore => exact Or.inl (hbefore hstored hjob)
  | took c caller _ hcallers _ _ hwaits =>
    exact Or.inr ⟨c, by rw [hcallers, Function.update_self]; exact hwaits⟩
  | called _ _ _ _ hsame hsame' | moved _ _ _ _ _ _ _ _ _ hsame hsame'
  | freed _ _ _ _ _ _ _ _ hsame hsame' => exact Or.inl ⟨hsame ▸ hstored, hsame' ▸ hjob⟩

theorem guarded_step {s s' : VpnBackend} {a : Action} (h : Guarded s) (hawaited : Awaited s a)
    (hstep : step s a = some s') : Guarded s' := by
  have hmove := callerMove_step h hawaited hstep
  have hharmless := fun hend ↦ harmless_step hend hstep
  have hwatched := watched_move h hmove hharmless
  refine ⟨fun c hc ↦ unbegun_move h hmove hc, fun c hkind ↦ own_move h hmove hharmless hkind,
    fun hstored hjob ↦ ?_, fun c hpast ↦ hwatched ?_,
    fun hactive c hc ↦ active_move h hmove (active_step hstep hactive) hactive hc⟩
  · rcases taken_move hmove hstored hjob with ⟨hstored₀, hjob₀⟩ | hwaits
    · exact hwatched (h.taken hstored₀ hjob₀)
    · exact Or.inr hwaits
  · rcases past_move hmove hpast with ⟨c', hpast'⟩ | hend | ⟨hstored, hjob⟩
    · exact h.past c' hpast'
    · exact Or.inl hend
    · exact h.taken hstored hjob

theorem guarded_issued (connectionId : ℕ) : Guarded (VpnBackend.issued connectionId) := by
  constructor <;> simp [VpnBackend.issued, CallerPc.past]

/-! ### The promise -/

/-- Without an engine and with a start coroutine that cannot attach, there never is an engine. -/
theorem inactive_of_harmless {s later : VpnBackend} (hharmless : s.harmless = true)
    (hactive : s.active = false) (hreach : Reaches step Always s later) : later.active = false := by
  have hboth : later.harmless = true ∧ later.active = false := by
    refine hreach.invariant (fun x ↦ x.harmless = true ∧ x.active = false) ?_ ⟨hharmless, hactive⟩
    intro a x y hx _ hstep
    refine ⟨harmless_step hx.1 hstep, ?_⟩
    rw [Bool.eq_false_iff]
    intro hon
    rcases active_step hstep hon with hwas | hlive
    · rw [hx.2] at hwas
      cases hwas
    · rw [hx.1] at hlive
      cases hlive
  exact hboth.2

/-- **No engine outlives its teardown.** In every run in which a disconnect that does not wait for
the start coroutine finds it unable to get past its superseded check, once every disconnect has
returned there is no active engine and there never will be one. -/
theorem tornDown_of_awaited {s : VpnBackend} (connectionId : ℕ)
    (hreach : Reaches step Awaited (VpnBackend.issued connectionId) s) : TornDown s := by
  have h : Guarded s :=
    hreach.invariant Guarded (fun _ _ _ hx hawaited hstep ↦ guarded_step hx hawaited hstep)
      (guarded_issued connectionId)
  intro hsettled later hlater
  obtain ⟨hsome, hreturned⟩ := hsettled
  have hidle : ∀ c, (s.callers c).pc.waits = false ∧ (s.callers c).pc ≠ .stopping := by
    intro c
    by_cases hc : c < s.begun
    · simp [hreturned c hc, CallerPc.waits]
    · simp [h.unbegun c (Nat.le_of_not_lt hc), CallerPc.waits]
  have hpast : (s.callers 0).pc.past = true := by
    rw [hreturned 0 hsome]
    rfl
  have hharmless : s.harmless = true := by
    rcases h.past 0 hpast with hend | ⟨c, hwaits⟩
    · exact hend
    · rw [(hidle c).1] at hwaits
      cases hwaits
  refine inactive_of_harmless hharmless ?_ hlater
  rw [Bool.eq_false_iff]
  intro hactive
  obtain ⟨c, hwaits | hstopping⟩ := h.active hactive 0 (Or.inr hpast)
  · rw [(hidle c).1] at hwaits
    cases hwaits
  · exact (hidle c).2 hstopping

/-- The start coroutine takes several steps. -/
def advances (n : ℕ) : List Action := List.replicate n .advance

/-- A caller takes several steps. -/
def proceeds (c n : ℕ) : List Action := List.replicate n (.proceed c)

/-- The user disconnects while the start coroutine is in `prepare`, and waits for it. -/
def awaitedRun : List Action :=
  List.flatten [[.launch, .store], advances 6, [.disconnect false], proceeds 0 4, advances 2,
    proceeds 0 2]

/-- After `awaitedRun` the engine that attached is stopped, and no other comes. -/
theorem tornDown_of_awaited_prepare :
    ∃ s, Reaches step Awaited (VpnBackend.issued 7) s ∧ Settled s ∧
      ∀ later, Reaches step Always s later → later.active = false := by
  obtain ⟨s, hreach, hcheck⟩ := exists_reaches_of_run step Awaited (VpnBackend.issued 7) awaitedRun
    (fun s ↦ decide (Settled s)) (by decide)
  have hsettled := of_decide_eq_true hcheck
  exact ⟨s, hreach, hsettled, tornDown_of_awaited 7 hreach hsettled⟩

/-! ### Two runs in which an engine is left behind -/

/-- Every disconnect has returned and the next step of the start coroutine attaches the engine. -/
def attachesLate (s : VpnBackend) : Bool := decide (Settled s ∧ s.start = .attaching)

theorem not_tornDown_of_attachesLate {s : VpnBackend} (hbad : attachesLate s = true) :
    ¬ TornDown s := by
  obtain ⟨hsettled, hattaching⟩ := of_decide_eq_true hbad
  intro htorn
  have hstep : step s .advance = some { s with start := .done, active := true } := by
    simp [step, VpnBackend.advance, hattaching]
  have hgone := htorn hsettled _ (Relation.ReflTransGen.single ⟨.advance, trivial, hstep⟩)
  cases hgone

/-- The connect-timeout job disconnects while the start coroutine is in `prepare`: it has cancelled
itself, so its `join` throws. -/
def timeoutRun : List Action :=
  List.flatten [[.launch, .store], advances 6, [.disconnect true], proceeds 0 4, [.joinThrows 0],
    proceeds 0 1, advances 1]

/-- The attempt's own timeout leaves the engine of the attempt behind. -/
theorem not_tornDown_timeout :
    ¬ ∀ s, Reaches step Always (VpnBackend.issued 7) s → TornDown s := by
  intro hall
  obtain ⟨s, hreach, hbad⟩ := exists_reaches_of_run step Always (VpnBackend.issued 7) timeoutRun
    attachesLate (by decide)
  exact not_tornDown_of_attachesLate hbad (hall s hreach)

/-- The user disconnects after the start coroutine was launched and before `engineStartJob` is
written, and the start coroutine clears the mark. -/
def unstoredRun : List Action :=
  List.flatten [[.launch, .disconnect false], proceeds 0 4, [.store], advances 7]

/-- A disconnect that comes before `engineStartJob` is written stops nothing. -/
theorem not_tornDown_unstored :
    ¬ ∀ s, Reaches step Always (VpnBackend.issued 7) s → TornDown s := by
  intro hall
  obtain ⟨s, hreach, hbad⟩ := exists_reaches_of_run step Always (VpnBackend.issued 7) unstoredRun
    attachesLate (by decide)
  exact not_tornDown_of_attachesLate hbad (hall s hreach)

end WindscribeVpn.Backend.EngineStart
