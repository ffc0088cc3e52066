import WindscribeVpn.Backend.VPNState
import WindscribeVpn.Foundations.Runs
import Mathlib.Data.List.Basic

/-!
# `DecoyTrafficController`

While the VPN is connected and the setting is on, a loop sends decoy traffic. `start` launches the
loop after it has stopped the last one, `stop` cancels it, and both report to a state flow from
coroutines that they launch. Three parties call them: `load`, also at construction; the coroutine
that collects the VPN state; and the settings screen when its switch is turned on.

Calls run on threads of their own, and a call is a program of parts that others may come between:
the bodies of `stop` and of the launch in `start`, and what `load` and the switch look at. The
coroutines wait in the order of their launch and run in any order.

`Truthful` is what the controller promises. It fails because turning the setting off reaches neither
the loop nor `stop` (`not_truthful_turnedOff`), because `load` and `start` do not look at the VPN
state, because calls are not exclusive, and because the report of a `stop` may be overtaken by that
of the `start` it belongs to. `truthful_of_orderly` shows the promise for the runs without these.
-/

set_option autoImplicit false
set_option relaxedAutoImplicit false

namespace WindscribeVpn.Decoytraffic.DecoyTrafficController

open Foundations.Runs
open Backend (Status)

/-! ### State -/

/-- Where the coroutine of a loop is. -/
inductive Pc
  /-- Launched, up to the report that it runs. -/
  | launched
  /-- In the first `delay`. -/
  | delaying
  /-- At the head of the loop. -/
  | turning
  /-- In the `delay` before a request. -/
  | waiting
  /-- Before the request. -/
  | sending
  /-- The request is out. -/
  | requesting
  | ended
  deriving DecidableEq, Repr

/-- A loop, which is the job that `start` launches. -/
structure Loop where
  pc : Pc := .launched
  cancelled : Bool := false
  deriving DecidableEq, Repr

/-- `Job.isActive`. -/
def Loop.isActive (loop : Loop) : Bool := !loop.cancelled && decide (loop.pc ≠ .ended)

/-- A coroutine that is to report to the flow. -/
inductive Report
  /-- `emit(false)` of a `stop`. -/
  | off
  /-- `emit(true)` of loop `i`; a coroutine that has begun is not kept from it by its job. -/
  | on (i : ℕ) (begun : Bool)
  deriving DecidableEq, Repr

/-- A part of a call. -/
inductive Op
  /-- The body of `stop`. -/
  | stop
  /-- The launch in `start`. -/
  | launch
  /-- `load` looks at the setting. -/
  | check
  /-- The settings screen looks at the VPN state. -/
  | ifConnected
  /-- The end of the constructor: the collector is launched. -/
  | observe
  deriving DecidableEq, Repr

/-- A call that is under way, with the parts that are still to run. -/
structure Call where
  /-- Whether it is the collector that calls. -/
  collector : Bool
  program : List Op
  deriving DecidableEq, Repr

/-- The controller and what it reads. -/
structure State where
  /-- The VPN state. -/
  status : Status
  isDecoyTrafficOn : Bool
  /-- The collector is launched. -/
  observing : Bool := false
  /-- There is a VPN state that was not collected. -/
  uncollected : Bool := false
  events : Bool
  sendTrafficRequestInProgress : Bool := false
  mainJob : Option ℕ := none
  loops : List Loop := []
  /-- The coroutines that are to report, in the order of their launch. -/
  reports : List Report := []
  calls : List Call
  /-- The VPN state and the setting at each request. -/
  sends : List (Status × Bool) := []

/-- `stop`. -/
def stop : List Op := [.stop]

/-- `start`. -/
def start : List Op := stop ++ [.launch]

/-- `load`. -/
def load : List Op := stop ++ [.check]

/-- The controller at its construction. -/
def State.initial (status : Status) (isDecoyTrafficOn : Bool) : State where
  status
  isDecoyTrafficOn
  events := isDecoyTrafficOn
  calls := [⟨false, load ++ [.observe]⟩]

/-- What happens next. -/
inductive Action
  /-- A VPN state is published. -/
  | setState (status : Status)
  /-- The collector takes the VPN state. -/
  | collect
  | load
  | start
  | stop
  /-- The switch of the settings screen. -/
  | onDecoyTrafficToggleClicked
  /-- Call `k` goes on. -/
  | advance (k : ℕ)
  /-- Coroutine `k` of those that are to report goes on. -/
  | report (k : ℕ)
  /-- A `delay` of loop `i` ends. -/
  | wake (i : ℕ)
  /-- Loop `i` takes a turn; its interval may have passed. -/
  | turn (i : ℕ) (due : Bool)
  /-- Loop `i` sends its request. -/
  | send (i : ℕ)
  /-- The request of loop `i` is answered, fails or times out. -/
  | answer (i : ℕ)

/-! ### Steps -/

/-- `Job.cancel`, guarded by `isActive`. -/
def Loop.cancel (loop : Loop) : Loop :=
  if loop.isActive then { loop with cancelled := true } else loop

/-- Writes a loop back. -/
def State.setLoop (s : State) (i : ℕ) (loop : Loop) : State :=
  { s with loops := s.loops.set i loop }

/-- The body of `stop`. -/
def State.stop (s : State) : State :=
  { s with
    sendTrafficRequestInProgress := false
    loops := s.mainJob.elim s.loops fun i ↦ s.loops.modify i Loop.cancel
    reports := s.reports ++ [.off] }

/-- The launch in `start`. -/
def State.launch (s : State) : State :=
  { s with
    mainJob := some s.loops.length
    loops := s.loops ++ [{}]
    reports := s.reports ++ [.on s.loops.length false] }

/-- Runs a part of a call, and gives the parts that are to run after it. -/
def State.execute (s : State) (rest : List Op) : Op → State × List Op
  | .stop => (s.stop, rest)
  | .launch => (s.launch, rest)
  | .check => (s, if s.isDecoyTrafficOn then start ++ rest else rest)
  | .ifConnected => (s, if s.status = .connected then load ++ start ++ rest else rest)
  | .observe => ({ s with observing := true, uncollected := true }, rest)

/-- A call begins. -/
def State.begin (s : State) (collector : Bool) (program : List Op) : State :=
  { s with calls := s.calls ++ [⟨collector, program⟩] }

/-- Call `k` goes on. -/
def State.advance (s : State) (k : ℕ) : Option State :=
  match s.calls[k]? with
  | some ⟨collector, op :: rest⟩ =>
    let (t, program) := s.execute rest op
    if program = [] then some { t with calls := s.calls.eraseIdx k }
    else some { t with calls := s.calls.set k ⟨collector, program⟩ }
  | _ => none

/-- A coroutine that is to report goes on. -/
def State.report (s : State) (k : ℕ) : Option State :=
  match s.reports[k]? with
  | some .off => some { s with events := false, reports := s.reports.eraseIdx k }
  | some (.on i true) =>
    (s.loops[i]?).map fun loop ↦
      { s.setLoop i { loop with pc := .delaying } with
        events := true
        reports := s.reports.eraseIdx k }
  | some (.on i false) =>
    (s.loops[i]?).map fun loop ↦
      if loop.cancelled then
        { s.setLoop i { loop with pc := .ended } with reports := s.reports.eraseIdx k }
      else { s with reports := s.reports.set k (.on i true) }
  | none => none

/-- A step of a loop that is in the state. -/
def stepLoop (s : State) (i : ℕ) (loop : Loop) : Action → Option State
  | .wake _ =>
    if loop.pc = .delaying then
      some (s.setLoop i { loop with pc := if loop.cancelled then .ended else .turning })
    else if loop.pc = .waiting then
      some (s.setLoop i { loop with pc := if loop.cancelled then .ended else .sending })
    else none
  | .turn _ due =>
    if loop.pc ≠ .turning then none
    else if s.sendTrafficRequestInProgress then some s
    else
      some
        { s.setLoop i { loop with pc := if due then .sending else .waiting } with
          sendTrafficRequestInProgress := true }
  | .send _ =>
    if loop.pc ≠ .sending then none
    else if loop.cancelled then
      some
        { s.setLoop i { loop with pc := .turning } with sendTrafficRequestInProgress := false }
    else
      some
        { s.setLoop i { loop with pc := .requesting } with
          sends := s.sends ++ [(s.status, s.isDecoyTrafficOn)] }
  | .answer _ =>
    if loop.pc ≠ .requesting then none
    else
      some
        { s.setLoop i { loop with pc := .turning } with sendTrafficRequestInProgress := false }
  | _ => none

/-- One step. -/
def step (s : State) : Action → Option State
  | .setState status => some { s with status, uncollected := s.observing }
  | .collect =>
    if s.uncollected = true ∧ ∀ call ∈ s.calls, call.collector = false then
      let program := if s.status = .connected ∧ s.isDecoyTrafficOn then start else stop
      some (State.begin { s with uncollected := false } true program)
    else none
  | .load => some (s.begin false load)
  | .start => some (s.begin false start)
  | .stop => some (s.begin false stop)
  | .onDecoyTrafficToggleClicked =>
    let t := { s with isDecoyTrafficOn := !s.isDecoyTrafficOn }
    if t.isDecoyTrafficOn then some (t.begin false [.ifConnected]) else some t
  | .advance k => s.advance k
  | .report k => s.report k
  | .wake i => (s.loops[i]?).bind fun loop ↦ stepLoop s i loop (.wake i)
  | .turn i due => (s.loops[i]?).bind fun loop ↦ stepLoop s i loop (.turn i due)
  | .send i => (s.loops[i]?).bind fun loop ↦ stepLoop s i loop (.send i)
  | .answer i => (s.loops[i]?).bind fun loop ↦ stepLoop s i loop (.answer i)

/-! ### The promise -/

/-- Loop `i` is alive. -/
def State.Alive (s : State) (i : ℕ) : Prop := ∃ loop ∈ s.loops[i]?, loop.isActive

/-- What the controller promises. -/
structure Truthful (s : State) : Prop where
  /-- At most one loop is alive. -/
  single : ∀ i j, s.Alive i → s.Alive j → i = j
  /-- A loop sends only while the VPN is connected and the setting is on. -/
  guarded : ∀ send ∈ s.sends, send.1 = .connected ∧ send.2 = true
  /-- When no call is under way and every report has run, the flow tells whether a loop is alive. -/
  reported : s.calls = [] → s.reports = [] → (s.events = true ↔ ∃ i, s.Alive i)

/-- The collector has dealt with the VPN state. -/
def State.CaughtUp (s : State) : Prop :=
  s.observing = true ∧ s.uncollected = false ∧ ∀ call ∈ s.calls, call.collector = false

/-- The condition on a step. -/
def Orderly (s : State) : Action → Prop
  | .collect | .stop => s.calls = []
  | .load => s.calls = [] ∧ (s.status = .connected ∨ s.isDecoyTrafficOn = false)
  | .start => s.calls = [] ∧ s.status = .connected ∧ s.isDecoyTrafficOn = true
  | .onDecoyTrafficToggleClicked =>
    s.calls = [] ∧ (s.isDecoyTrafficOn = true → ∀ loop ∈ s.loops, loop.isActive = false)
  | .report k => k = 0
  | .send _ => s.CaughtUp
  | .setState _ | .advance _ | .wake _ | .turn _ _ | .answer _ => True

instance decidableCaughtUp (s : State) : Decidable s.CaughtUp := by
  unfold State.CaughtUp
  infer_instance

instance decidableOrderly (s : State) (a : Action) : Decidable (Orderly s a) := by
  cases a <;> unfold Orderly <;> infer_instance

/-! ### Loops -/

variable {s t : State} {i : ℕ} {loop loop' : Loop}

theorem isActive_cancel (loop : Loop) : loop.cancel.isActive = false := by
  unfold Loop.cancel
  split_ifs with hactive
  · rfl
  · exact Bool.eq_false_iff.mpr hactive

/-- Writing a loop back that is as active as before does not change which loops are alive. -/
theorem alive_set (hloop : s.loops[i]? = some loop) (hloops : t.loops = s.loops.set i loop')
    (hactive : loop'.isActive = loop.isActive) (j : ℕ) : t.Alive j ↔ s.Alive j := by
  unfold State.Alive
  rw [hloops, List.getElem?_set]
  by_cases heq : i = j
  · subst heq
    obtain ⟨hlt, hget⟩ := List.getElem?_eq_some_iff.mp hloop
    simp [hlt, hget, hactive]
  · simp [heq]

/-- After `stop` no loop is alive, when the job was the only one. -/
theorem not_alive_stop (hmain : ∀ i, s.Alive i → s.mainJob = some i) (j : ℕ) :
    ¬ s.stop.Alive j := by
  rintro ⟨loop, hloop, hactive⟩
  cases hjob : s.mainJob with
  | none =>
    rw [State.stop, hjob] at hloop
    have hbefore := hmain j ⟨loop, hloop, hactive⟩
    rw [hjob] at hbefore
    cases hbefore
  | some i =>
    rw [State.stop, hjob] at hloop
    change loop ∈ (s.loops.modify i Loop.cancel)[j]? at hloop
    rw [List.getElem?_modify] at hloop
    by_cases heq : i = j
    · subst heq
      simp only [if_true] at hloop
      obtain ⟨before, -, rfl⟩ := Option.map_eq_some_iff.mp hloop
      rw [isActive_cancel] at hactive
      cases hactive
    · simp only [if_neg heq] at hloop
      obtain ⟨before, hbefore, rfl⟩ := Option.map_eq_some_iff.mp hloop
      have hbefore := hmain j ⟨before, hbefore, hactive⟩
      rw [hjob] at hbefore
      exact heq (Option.some.inj hbefore)

/-- After a launch the new loop is alive too. -/
theorem alive_launch (j : ℕ) : s.launch.Alive j ↔ s.Alive j ∨ j = s.loops.length := by
  unfold State.Alive State.launch
  constructor
  · rintro ⟨loop, hloop, hactive⟩
    rcases Nat.lt_or_ge j s.loops.length with hlt | hge
    · rw [Option.mem_def, List.getElem?_append_left hlt] at hloop
      exact Or.inl ⟨loop, hloop, hactive⟩
    · have hlt := (List.getElem?_eq_some_iff.mp hloop).1
      rw [List.length_append, List.length_singleton] at hlt
      exact Or.inr (by omega)
  · rintro (⟨loop, hloop, hactive⟩ | rfl)
    · have hlt := (List.getElem?_eq_some_iff.mp hloop).1
      exact ⟨loop, by rwa [Option.mem_def, List.getElem?_append_left hlt], hactive⟩
    · exact ⟨{}, by simp, rfl⟩

/-! ### Reports -/

/-- What the flow is after a report, where a loop that was cancelled before it began does not
report. -/
def Report.apply (loops : List Loop) (events : Bool) : Report → Bool
  | .off => false
  | .on i begun => if begun = false ∧ (loops[i]?).any (·.cancelled) = true then events else true

/-- What the flow will be when every report has run in the order of launch. -/
def State.final (s : State) : Bool := s.reports.foldl (Report.apply s.loops) s.events

theorem any_cancelled_set (hloop : s.loops[i]? = some loop)
    (hcancelled : loop'.cancelled = loop.cancelled) (j : ℕ) :
    ((s.loops.set i loop')[j]?).any (·.cancelled) = (s.loops[j]?).any (·.cancelled) := by
  rw [List.getElem?_set]
  by_cases heq : i = j
  · subst heq
    obtain ⟨hlt, hget⟩ := List.getElem?_eq_some_iff.mp hloop
    simp [hlt, hget, hcancelled]
  · simp [heq]

/-- Reports look at loops only for whether they were cancelled. -/
theorem apply_set (hloop : s.loops[i]? = some loop)
    (hcancelled : loop'.cancelled = loop.cancelled) :
    Report.apply (s.loops.set i loop') = Report.apply s.loops := by
  funext events report
  cases report with
  | off => rfl
  | on j begun => simp only [Report.apply, any_cancelled_set hloop hcancelled]

/-- After `stop` the flow will be false. -/
theorem final_stop (s : State) : s.stop.final = false := by
  simp [State.final, State.stop, Report.apply]

/-- After a launch the flow will be true. -/
theorem final_launch (s : State) : s.launch.final = true := by
  simp [State.final, State.launch, Report.apply]

/-! ### The invariant -/

/-- The VPN is connected, or the collector has yet to look at it. -/
def State.Covered (s : State) : Prop :=
  s.status = .connected ∨ s.uncollected = true ∨ s.observing = false

/-- A launch comes right after a `stop` of the same call, or is next. -/
def Formed : List Op → Prop
  | [] => True
  | op :: rest => (op ≠ .stop → rest.head? ≠ some .launch) ∧ Formed rest

/-- What holds of a call that is under way. -/
structure Fits (s : State) (program : List Op) : Prop where
  formed : Formed program
  vacant : program.head? = some .launch → ∀ i, ¬ s.Alive i
  launches : .launch ∈ program → s.isDecoyTrafficOn = true ∧ s.Covered
  checks : .check ∈ program → s.isDecoyTrafficOn = true → s.Covered
  switched : .ifConnected ∈ program → s.isDecoyTrafficOn = true

/-- Loops end only when they are cancelled. -/
def State.Endless (s : State) : Prop := ∀ loop ∈ s.loops, loop.pc = .ended → loop.cancelled = true

/-- The invariant of orderly runs. -/
structure Inv (s : State) : Prop where
  endless : s.Endless
  exclusive : s.calls.length ≤ 1
  fits : ∀ call ∈ s.calls, Fits s call.program
  main : ∀ i, s.Alive i → s.mainJob = some i
  guarded : ∀ send ∈ s.sends, send.1 = .connected ∧ send.2 = true
  /-- A loop that is alive is there for a reason, unless the collector is about to stop it. -/
  covered : (∀ call ∈ s.calls, call.collector = true → .stop ∉ call.program) →
    ∀ i, s.Alive i → s.isDecoyTrafficOn = true ∧ s.Covered
  /-- The reports that are pending tell the truth, unless a `stop` is to come. -/
  reported : (∀ call ∈ s.calls, .stop ∉ call.program) → (s.final = true ↔ ∃ i, s.Alive i)

/-- A step after which everything stands that the invariant is about, but for the requests. -/
structure Quiet (s t : State) : Prop where
  status : t.status = s.status
  isDecoyTrafficOn : t.isDecoyTrafficOn = s.isDecoyTrafficOn
  observing : t.observing = s.observing
  uncollected : t.uncollected = s.uncollected
  mainJob : t.mainJob = s.mainJob
  calls : t.calls = s.calls
  endless : t.Endless
  alive : ∀ i, t.Alive i ↔ s.Alive i
  final : t.final = s.final

theorem Quiet.covered (hquiet : Quiet s t) : t.Covered ↔ s.Covered := by
  rw [State.Covered, State.Covered, hquiet.status, hquiet.uncollected, hquiet.observing]

theorem Quiet.fits (hquiet : Quiet s t) {program : List Op} (hfits : Fits s program) :
    Fits t program where
  formed := hfits.formed
  vacant := fun hhead i halive ↦ hfits.vacant hhead i ((hquiet.alive i).mp halive)
  launches := fun hmem ↦ by
    rw [hquiet.isDecoyTrafficOn, hquiet.covered]
    exact hfits.launches hmem
  checks := fun hmem ↦ by
    rw [hquiet.isDecoyTrafficOn, hquiet.covered]
    exact hfits.checks hmem
  switched := fun hmem ↦ by
    rw [hquiet.isDecoyTrafficOn]
    exact hfits.switched hmem

/-- A quiet step keeps the invariant. -/
theorem Inv.quiet (hinv : Inv s) (hquiet : Quiet s t)
    (hsends : ∀ send ∈ t.sends, send.1 = .connected ∧ send.2 = true) : Inv t where
  endless := hquiet.endless
  exclusive := hquiet.calls ▸ hinv.exclusive
  fits := fun call hcall ↦ hquiet.fits (hinv.fits call (hquiet.calls ▸ hcall))
  main := fun i halive ↦ by
    rw [hquiet.mainJob]
    exact hinv.main i ((hquiet.alive i).mp halive)
  guarded := hsends
  covered := by
    intro hcalls i halive
    rw [hquiet.isDecoyTrafficOn, hquiet.covered]
    exact hinv.covered (hquiet.calls ▸ hcalls) i ((hquiet.alive i).mp halive)
  reported := by
    intro hcalls
    rw [hquiet.final, hinv.reported (hquiet.calls ▸ hcalls)]
    exact exists_congr fun i ↦ (hquiet.alive i).symm

/-- A loop is as active at its next place as before. -/
theorem isActive_pc (loop : Loop) (pc : Pc) (hbefore : loop.pc = .ended → loop.cancelled = true)
    (hended : pc = .ended → loop.cancelled = true) :
    ({ loop with pc } : Loop).isActive = loop.isActive := by
  unfold Loop.isActive
  cases hcancelled : loop.cancelled with
  | true => rfl
  | false =>
    rw [hcancelled] at hbefore hended
    have hpc : pc ≠ .ended := fun heq ↦ Bool.false_ne_true (hended heq)
    have hpc' : loop.pc ≠ .ended := fun heq ↦ Bool.false_ne_true (hbefore heq)
    simp [hpc, hpc']

/-- A loop that goes on is quiet, if the reports stand for the same. -/
theorem quiet_setLoop (hendless : s.Endless) (hloop : s.loops[i]? = some loop) (pc : Pc)
    (hended : pc = .ended → loop.cancelled = true) (events inProgress : Bool)
    (reports : List Report) (sends : List (Status × Bool))
    (hfinal : reports.foldl (Report.apply s.loops) events = s.final) :
    Quiet s
      { s.setLoop i { loop with pc } with
        events, sendTrafficRequestInProgress := inProgress, reports, sends } where
  status := rfl
  isDecoyTrafficOn := rfl
  observing := rfl
  uncollected := rfl
  mainJob := rfl
  calls := rfl
  endless := by
    intro other hother
    rcases List.mem_or_eq_of_mem_set hother with hbefore | rfl
    · exact hendless other hbefore
    · exact hended
  alive := alive_set hloop rfl
    (isActive_pc loop pc (hendless loop (List.mem_of_getElem? hloop)) hended)
  final := by
    have hsame : Report.apply (s.loops.set i { loop with pc }) = Report.apply s.loops :=
      apply_set hloop rfl
    change reports.foldl (Report.apply (s.loops.set i { loop with pc })) events = s.final
    rw [hsame, hfinal]

/-- A step of a loop keeps the invariant. -/
theorem inv_stepLoop (a : Action) (hinv : Inv s) (horderly : Orderly s a)
    (hloop : s.loops[i]? = some loop) (hstep : stepLoop s i loop a = some t) : Inv t := by
  have hquiet : ∀ pc inProgress sends, (pc = .ended → loop.cancelled = true) →
      Quiet s
        { s.setLoop i { loop with pc } with sendTrafficRequestInProgress := inProgress, sends } :=
    fun pc inProgress sends hended ↦
      quiet_setLoop hinv.endless hloop pc hended s.events inProgress s.reports sends rfl
  have hends : ∀ pc : Pc, pc ≠ .ended →
      (if loop.cancelled then Pc.ended else pc) = .ended → loop.cancelled = true := by
    intro pc hpc hended
    by_contra hnot
    rw [if_neg hnot] at hended
    exact hpc hended
  cases a with
  | wake j =>
    simp only [stepLoop] at hstep
    by_cases hdelaying : loop.pc = .delaying
    · rw [if_pos hdelaying] at hstep
      obtain rfl := Option.some.inj hstep
      exact hinv.quiet (hquiet _ _ _ (hends .turning (by decide))) hinv.guarded
    · rw [if_neg hdelaying] at hstep
      by_cases hwaiting : loop.pc = .waiting
      · rw [if_pos hwaiting] at hstep
        obtain rfl := Option.some.inj hstep
        exact hinv.quiet (hquiet _ _ _ (hends .sending (by decide))) hinv.guarded
      · rw [if_neg hwaiting] at hstep
        cases hstep
  | turn j due =>
    simp only [stepLoop] at hstep
    by_cases hturning : loop.pc ≠ .turning
    · rw [if_pos hturning] at hstep
      cases hstep
    · rw [if_neg hturning] at hstep
      by_cases hinProgress : s.sendTrafficRequestInProgress = true
      · rw [if_pos hinProgress] at hstep
        exact Option.some.inj hstep ▸ hinv
      · rw [if_neg hinProgress] at hstep
        obtain rfl := Option.some.inj hstep
        exact hinv.quiet (hquiet _ _ _ (by cases due <;> exact nofun)) hinv.guarded
  | send j =>
    simp only [stepLoop] at hstep
    split_ifs at hstep with hsending hcancelled
    all_goals obtain rfl := Option.some.inj hstep
    · exact hinv.quiet (hquiet .turning _ _ nofun) hinv.guarded
    · refine hinv.quiet (hquiet .requesting _ _ nofun) ?_
      obtain ⟨hobserving, hcollected, hothers⟩ := horderly
      have halive : s.Alive i := by
        refine ⟨loop, hloop, ?_⟩
        rw [Loop.isActive, Bool.eq_false_iff.mpr hcancelled, not_not.mp hsending]
        rfl
      obtain ⟨hon, hcovered⟩ := hinv.covered
        (fun call hcall hcollector ↦ by rw [hothers call hcall] at hcollector; cases hcollector)
        i halive
      have hconnected : s.status = .connected := by
        rcases hcovered with hconnected | huncollected | hnot
        · exact hconnected
        · rw [hcollected] at huncollected
          cases huncollected
        · rw [hobserving] at hnot
          cases hnot
      intro send hsend
      rcases List.mem_append.mp hsend with hbefore | hlast
      · exact hinv.guarded send hbefore
      · rw [List.mem_singleton.mp hlast]
        exact ⟨hconnected, hon⟩
  | answer j =>
    simp only [stepLoop] at hstep
    split_ifs at hstep with hrequesting
    obtain rfl := Option.some.inj hstep
    exact hinv.quiet (hquiet .turning _ _ nofun) hinv.guarded
  | _ => cases hstep

/-- The first of the pending reports goes on. -/
theorem quiet_report (hendless : s.Endless) (hstep : s.report 0 = some t) :
    Quiet s t ∧ t.sends = s.sends := by
  unfold State.report at hstep
  cases hreports : s.reports with
  | nil =>
    rw [hreports] at hstep
    cases hstep
  | cons report rest =>
    have hfinal : s.final = rest.foldl (Report.apply s.loops) (report.apply s.loops s.events) := by
      rw [State.final, hreports, List.foldl_cons]
    rw [hreports] at hstep
    cases report with
    | off =>
      obtain rfl := Option.some.inj hstep
      exact ⟨⟨rfl, rfl, rfl, rfl, rfl, rfl, hendless, fun _ ↦ Iff.rfl, hfinal.symm⟩, rfl⟩
    | on i begun =>
      cases begun with
      | true =>
        obtain ⟨loop, hloop, rfl⟩ := Option.map_eq_some_iff.mp hstep
        exact ⟨quiet_setLoop hendless hloop .delaying nofun true _ rest _ hfinal.symm, rfl⟩
      | false =>
        obtain ⟨loop, hloop, rfl⟩ := Option.map_eq_some_iff.mp hstep
        have hany : (s.loops[i]?).any (·.cancelled) = loop.cancelled := by rw [hloop]; rfl
        by_cases hcancelled : loop.cancelled = true
        · rw [if_pos hcancelled]
          rw [Report.apply, hany, if_pos ⟨rfl, hcancelled⟩] at hfinal
          exact ⟨quiet_setLoop hendless hloop .ended (fun _ ↦ hcancelled) s.events _ rest _
            hfinal.symm, rfl⟩
        · rw [if_neg hcancelled]
          rw [Report.apply, hany, if_neg fun hboth ↦ hcancelled hboth.2] at hfinal
          exact ⟨⟨rfl, rfl, rfl, rfl, rfl, rfl, hendless, fun _ ↦ Iff.rfl, hfinal.symm⟩, rfl⟩

/-! ### Steps of calls -/

/-- A step that leaves the loops and what they report alone. -/
structure SameLoops (s t : State) : Prop where
  loops : t.loops = s.loops
  mainJob : t.mainJob = s.mainJob
  reports : t.reports = s.reports
  events : t.events = s.events
  sends : t.sends = s.sends

theorem SameLoops.alive (hsame : SameLoops s t) (i : ℕ) : t.Alive i ↔ s.Alive i := by
  unfold State.Alive
  rw [hsame.loops]

theorem SameLoops.final (hsame : SameLoops s t) : t.final = s.final := by
  rw [State.final, State.final, hsame.loops, hsame.reports, hsame.events]

theorem SameLoops.endless (hsame : SameLoops s t) (hendless : s.Endless) : t.Endless := by
  unfold State.Endless
  rw [hsame.loops]
  exact hendless

theorem SameLoops.main (hsame : SameLoops s t) (hmain : ∀ i, s.Alive i → s.mainJob = some i) :
    ∀ i, t.Alive i → t.mainJob = some i := by
  intro i halive
  rw [hsame.mainJob]
  exact hmain i ((hsame.alive i).mp halive)

/-- A call begins while no other is under way. -/
theorem inv_begin (hinv : Inv s) (hcalls : s.calls = []) (hsame : SameLoops s t)
    {collector : Bool} {program : List Op} (hbegun : t.calls = [⟨collector, program⟩])
    (hfits : Fits t program)
    (hcovered : (collector = true → .stop ∉ program) → ∀ i, s.Alive i →
      t.isDecoyTrafficOn = true ∧ t.Covered) : Inv t where
  endless := hsame.endless hinv.endless
  exclusive := by rw [hbegun]; exact Nat.le_refl _
  fits := by
    intro call hcall
    rw [hbegun, List.mem_singleton] at hcall
    exact hcall ▸ hfits
  main := hsame.main hinv.main
  guarded := hsame.sends ▸ hinv.guarded
  covered := fun hstops i halive ↦
    hcovered (hstops _ (hbegun ▸ List.mem_singleton_self _)) i ((hsame.alive i).mp halive)
  reported := by
    intro _
    rw [hsame.final, hinv.reported (by rw [hcalls]; exact nofun)]
    exact exists_congr fun i ↦ (hsame.alive i).symm

theorem fits_nil (s : State) : Fits s [] where
  formed := trivial
  vacant := nofun
  launches := nofun
  checks := nofun
  switched := nofun

theorem fits_stop (s : State) : Fits s stop where
  formed := ⟨nofun, trivial⟩
  vacant := nofun
  launches := fun hmem ↦ absurd hmem (by decide)
  checks := fun hmem ↦ absurd hmem (by decide)
  switched := fun hmem ↦ absurd hmem (by decide)

/-- What is left of a call fits. -/
theorem Fits.tail {op : Op} {rest : List Op} (hfits : Fits s (op :: rest))
    (hvacant : rest.head? = some .launch → ∀ i, ¬ t.Alive i)
    (hon : t.isDecoyTrafficOn = s.isDecoyTrafficOn) (hcovered : s.Covered → t.Covered) :
    Fits t rest where
  formed := hfits.formed.2
  vacant := hvacant
  launches := by
    intro hmem
    obtain ⟨hsetting, hreason⟩ := hfits.launches (List.mem_cons_of_mem _ hmem)
    exact ⟨hon.trans hsetting, hcovered hreason⟩
  checks := fun hmem hsetting ↦
    hcovered (hfits.checks (List.mem_cons_of_mem _ hmem) (hon.symm.trans hsetting))
  switched := fun hmem ↦ hon.trans (hfits.switched (List.mem_cons_of_mem _ hmem))

/-- A call puts a `start` before what is left of it. -/
theorem Fits.start {rest : List Op} (hfits : Fits s rest) (hhead : rest.head? ≠ some .launch)
    (hon : s.isDecoyTrafficOn = true) (hcovered : s.Covered) : Fits s (start ++ rest) where
  formed := ⟨nofun, fun _ ↦ hhead, hfits.formed⟩
  vacant := nofun
  launches := fun _ ↦ ⟨hon, hcovered⟩
  checks := fun _ _ ↦ hcovered
  switched := fun _ ↦ hon

/-- A call puts a `load` before what is left of it. -/
theorem Fits.load {rest : List Op} (hfits : Fits s rest) (hhead : rest.head? ≠ some .launch)
    (hon : s.isDecoyTrafficOn = true) (hcovered : s.Covered) : Fits s (load ++ rest) where
  formed := ⟨nofun, fun _ ↦ hhead, hfits.formed⟩
  vacant := nofun
  launches := fun _ ↦ ⟨hon, hcovered⟩
  checks := fun _ _ ↦ hcovered
  switched := fun _ ↦ hon

/-- The only call goes on, after a part of it that has left the program `program`. -/
theorem inv_advanced {collector : Bool} {program : List Op} (hendless : t.Endless)
    (hmain : ∀ i, t.Alive i → t.mainJob = some i)
    (hguarded : ∀ send ∈ t.sends, send.1 = .connected ∧ send.2 = true) (hfits : Fits t program)
    (hcovered : (collector = true → .stop ∉ program) → ∀ i, t.Alive i →
      t.isDecoyTrafficOn = true ∧ t.Covered)
    (hreported : .stop ∉ program → (t.final = true ↔ ∃ i, t.Alive i))
    (calls : List Call) (hcalls : calls = if program = [] then [] else [⟨collector, program⟩]) :
    Inv { t with calls } := by
  subst hcalls
  by_cases hnil : program = []
  · rw [if_pos hnil]
    refine ⟨hendless, Nat.zero_le _, nofun, hmain, hguarded, fun _ ↦ ?_, fun _ ↦ ?_⟩
    · exact hcovered fun _ ↦ by rw [hnil]; exact List.not_mem_nil
    · exact hreported (by rw [hnil]; exact List.not_mem_nil)
  · rw [if_neg hnil]
    refine ⟨hendless, Nat.le_refl _, ?_, hmain, hguarded, fun hstops ↦ ?_, fun hstops ↦ ?_⟩
    · intro call hcall
      rw [List.mem_singleton.mp hcall]
      exact ⟨hfits.formed, hfits.vacant, hfits.launches, hfits.checks, hfits.switched⟩
    · exact hcovered (hstops _ (List.mem_singleton_self _))
    · exact hreported (hstops _ (List.mem_singleton_self _))

/-- A part of a call that leaves the loops alone, and the rest to run. -/
theorem inv_decided {collector : Bool} {op : Op} {rest program : List Op} (hinv : Inv s)
    (hcalls : s.calls = [⟨collector, op :: rest⟩]) (hop : op ≠ .stop) (hsame : SameLoops s t)
    (hon : t.isDecoyTrafficOn = s.isDecoyTrafficOn) (hcovered : s.Covered → t.Covered)
    (hsub : ∀ other ∈ rest, other ∈ program) (hfits : Fits t program) :
    Inv { t with calls := if program = [] then [] else [⟨collector, program⟩] } := by
  have hstop : .stop ∉ program → .stop ∉ op :: rest := by
    intro hnot hmem
    rcases List.mem_cons.mp hmem with hself | hrest
    · exact hop hself.symm
    · exact hnot (hsub _ hrest)
  refine inv_advanced (hsame.endless hinv.endless) (hsame.main hinv.main)
    (hsame.sends ▸ hinv.guarded) hfits ?_ ?_ _ rfl
  · intro hstops i halive
    rw [hon]
    refine (hinv.covered ?_ i ((hsame.alive i).mp halive)).imp id hcovered
    intro call hcall hcollector
    rw [hcalls, List.mem_singleton] at hcall
    subst hcall
    exact hstop (hstops hcollector)
  · intro hnot
    rw [hsame.final, hinv.reported, exists_congr fun i ↦ (hsame.alive i).symm]
    intro call hcall
    rw [hcalls, List.mem_singleton] at hcall
    subst hcall
    exact hstop hnot

/-- `stop` leaves no loop that has ended by itself. -/
theorem endless_stop (hendless : s.Endless) : s.stop.Endless := by
  intro loop hloop hended
  unfold State.stop at hloop
  cases hjob : s.mainJob with
  | none =>
    rw [hjob] at hloop
    exact hendless loop hloop hended
  | some i =>
    rw [hjob] at hloop
    change loop ∈ s.loops.modify i Loop.cancel at hloop
    obtain ⟨j, hlt, rfl⟩ := List.getElem_of_mem hloop
    rw [List.getElem_modify] at hended ⊢
    have hmem := List.getElem_mem (List.length_modify .. ▸ hlt : j < s.loops.length)
    by_cases hij : i = j
    · rw [if_pos hij] at hended ⊢
      unfold Loop.cancel at hended ⊢
      split_ifs at hended ⊢
      · rfl
      · exact hendless _ hmem hended
    · rw [if_neg hij] at hended ⊢
      exact hendless _ hmem hended

/-- A part of the only call runs. -/
theorem inv_execute {collector : Bool} {op : Op} {rest : List Op} (hinv : Inv s)
    (hcalls : s.calls = [⟨collector, op :: rest⟩]) :
    Inv
      { (s.execute rest op).1 with
        calls :=
          if (s.execute rest op).2 = [] then [] else [⟨collector, (s.execute rest op).2⟩] } := by
  have hfits : Fits s (op :: rest) := hinv.fits _ (hcalls ▸ List.mem_singleton_self _)
  have hrest : op ≠ .stop → Fits s rest := fun hop ↦
    hfits.tail (fun hhead ↦ absurd hhead (hfits.formed.1 hop)) rfl id
  have hself : SameLoops s s := ⟨rfl, rfl, rfl, rfl, rfl⟩
  cases op with
  | stop =>
    have hnone := not_alive_stop hinv.main
    refine inv_advanced (t := s.stop) (endless_stop hinv.endless)
      (fun i halive ↦ absurd halive (hnone i)) hinv.guarded (hfits.tail (fun _ ↦ hnone) rfl id)
      (fun _ i halive ↦ absurd halive (hnone i)) (fun _ ↦ ?_) _ rfl
    refine iff_of_false ?_ fun ⟨i, halive⟩ ↦ hnone i halive
    exact Bool.eq_false_iff.mp (final_stop s)
  | launch =>
    have hvacant := hfits.vacant rfl
    obtain ⟨hon, hcovered⟩ := hfits.launches List.mem_cons_self
    have halive : ∀ i, s.launch.Alive i → i = s.loops.length := by
      intro i hi
      rcases (alive_launch i).mp hi with hbefore | hnew
      · exact absurd hbefore (hvacant i)
      · exact hnew
    refine inv_advanced (t := s.launch) ?_ (fun i hi ↦ by rw [halive i hi]; rfl) hinv.guarded
      (hfits.tail (fun hhead ↦ absurd hhead (hfits.formed.1 nofun)) rfl id)
      (fun _ _ _ ↦ ⟨hon, hcovered⟩) ?_ _ rfl
    · intro loop hloop hended
      rcases List.mem_append.mp hloop with hbefore | hnew
      · exact hinv.endless loop hbefore hended
      · rw [List.mem_singleton.mp hnew] at hended
        cases hended
    · exact fun _ ↦ iff_of_true (final_launch s) ⟨_, (alive_launch _).mpr (Or.inr rfl)⟩
  | check =>
    have hhead : rest.head? ≠ some .launch := hfits.formed.1 nofun
    by_cases hon : s.isDecoyTrafficOn = true
    · simp only [State.execute, if_pos hon]
      exact inv_decided hinv hcalls nofun hself rfl id (fun _ hmem ↦ List.mem_append_right _ hmem)
        ((hrest nofun).start hhead hon (hfits.checks List.mem_cons_self hon))
    · simp only [State.execute, if_neg hon]
      exact inv_decided hinv hcalls nofun hself rfl id (fun _ hmem ↦ hmem) (hrest nofun)
  | ifConnected =>
    have hhead : rest.head? ≠ some .launch := hfits.formed.1 nofun
    have hon := hfits.switched List.mem_cons_self
    by_cases hconnected : s.status = .connected
    · simp only [State.execute, if_pos hconnected, List.append_assoc]
      refine inv_decided hinv hcalls nofun hself rfl id (fun _ hmem ↦ List.mem_append_right _
        (List.mem_append_right _ hmem)) ?_
      exact ((hrest nofun).start hhead hon (Or.inl hconnected)).load nofun hon (Or.inl hconnected)
    · simp only [State.execute, if_neg hconnected]
      exact inv_decided hinv hcalls nofun hself rfl id (fun _ hmem ↦ hmem) (hrest nofun)
  | observe =>
    exact inv_decided (t := { s with observing := true, uncollected := true }) hinv hcalls nofun
      ⟨rfl, rfl, rfl, rfl, rfl⟩ rfl (fun _ ↦ Or.inr (Or.inl rfl)) (fun _ hmem ↦ hmem)
      (hfits.tail (fun hhead ↦ absurd hhead (hfits.formed.1 nofun)) rfl
        fun _ ↦ Or.inr (Or.inl rfl))

/-- A call goes on. -/
theorem inv_advance {k : ℕ} (hinv : Inv s) (hstep : s.advance k = some t) : Inv t := by
  unfold State.advance at hstep
  split at hstep
  case h_1 collector op rest hcall =>
    obtain ⟨hlt, -⟩ := List.getElem?_eq_some_iff.mp hcall
    have hexclusive := hinv.exclusive
    obtain rfl : k = 0 := by omega
    have hcalls : s.calls = [⟨collector, op :: rest⟩] := by
      cases hlist : s.calls with
      | nil => simp [hlist] at hlt
      | cons call others =>
        rw [hlist] at hcall hexclusive
        obtain rfl := Option.some.inj hcall
        cases others with
        | nil => rfl
        | cons => simp at hexclusive
    have hexecute := inv_execute hinv hcalls
    dsimp only at hstep
    split_ifs at hstep with hnil <;> obtain rfl := Option.some.inj hstep
    · rw [if_pos hnil] at hexecute
      rwa [hcalls]
    · rw [if_neg hnil] at hexecute
      rwa [hcalls]
  case h_2 => cases hstep

/-- The VPN state changes, and the collector has yet to look at it. -/
theorem inv_setState (status : Status) (hinv : Inv s) :
    Inv { s with status, uncollected := s.observing } := by
  have hcovered : State.Covered { s with status, uncollected := s.observing } := by
    rcases Bool.eq_false_or_eq_true s.observing with hobserving | hobserving
    · exact Or.inr (Or.inl hobserving)
    · exact Or.inr (Or.inr hobserving)
  refine ⟨hinv.endless, hinv.exclusive, fun call hcall ↦ ?_, hinv.main, hinv.guarded,
    fun hstops i halive ↦ ⟨(hinv.covered hstops i halive).1, hcovered⟩, hinv.reported⟩
  have hfits := hinv.fits call hcall
  exact ⟨hfits.formed, hfits.vacant, fun hmem ↦ ⟨(hfits.launches hmem).1, hcovered⟩,
    fun _ _ ↦ hcovered, hfits.switched⟩

/-- The collector begins its call. -/
theorem inv_collect (hinv : Inv s) (hcalls : s.calls = []) :
    Inv (State.begin { s with uncollected := false } true
      (if s.status = .connected ∧ s.isDecoyTrafficOn then start else stop)) := by
  have hbegun : ∀ program, (State.begin { s with uncollected := false } true program).calls =
      [⟨true, program⟩] := by
    intro program
    rw [State.begin, hcalls]
    rfl
  by_cases hstart : s.status = .connected ∧ s.isDecoyTrafficOn = true
  · rw [if_pos hstart]
    exact inv_begin hinv hcalls ⟨rfl, rfl, rfl, rfl, rfl⟩ (hbegun _)
      ((fits_nil _).start nofun hstart.2 (Or.inl hstart.1))
      fun hstops ↦ absurd (hstops rfl) (by decide)
  · rw [if_neg hstart]
    exact inv_begin hinv hcalls ⟨rfl, rfl, rfl, rfl, rfl⟩ (hbegun _) (fits_stop _)
      fun hstops ↦ absurd (hstops rfl) (by decide)

/-- A call by somebody else begins. -/
theorem inv_call (hinv : Inv s) (hcalls : s.calls = []) {program : List Op}
    (hfits : Fits (s.begin false program) program) : Inv (s.begin false program) := by
  have hbegun : (s.begin false program).calls = [⟨false, program⟩] := by
    rw [State.begin, hcalls]
    rfl
  exact inv_begin hinv hcalls ⟨rfl, rfl, rfl, rfl, rfl⟩ hbegun hfits fun _ ↦
    hinv.covered (by rw [hcalls]; exact nofun)

/-- The switch is turned. -/
theorem inv_toggle (hinv : Inv s) (hcalls : s.calls = [])
    (hidle : s.isDecoyTrafficOn = true → ∀ loop ∈ s.loops, loop.isActive = false)
    (hstep : step s .onDecoyTrafficToggleClicked = some t) : Inv t := by
  have hnone : ∀ i, ¬ s.Alive i := by
    rintro i ⟨loop, hloop, hactive⟩
    have hon := (hinv.covered (by rw [hcalls]; exact nofun) i ⟨loop, hloop, hactive⟩).1
    rw [hidle hon loop (List.mem_of_getElem? hloop)] at hactive
    cases hactive
  have hsame : ∀ calls : List Call, SameLoops s
      { s with isDecoyTrafficOn := !s.isDecoyTrafficOn, calls } :=
    fun _ ↦ ⟨rfl, rfl, rfl, rfl, rfl⟩
  simp only [step] at hstep
  split_ifs at hstep with hon <;> obtain rfl := Option.some.inj hstep
  · refine inv_begin hinv hcalls (hsame _) (by rw [hcalls]; rfl) ?_
      fun _ i halive ↦ absurd halive (hnone i)
    exact ⟨⟨nofun, trivial⟩, nofun, fun hmem ↦ absurd hmem (by decide),
      fun hmem ↦ absurd hmem (by decide), fun _ ↦ hon⟩
  · refine ⟨hinv.endless, hinv.exclusive, ?_, hinv.main, hinv.guarded,
      fun _ i halive ↦ absurd halive (hnone i), hinv.reported⟩
    intro call hcall
    rw [hcalls] at hcall
    cases hcall

/-! ### The promise along orderly runs -/

theorem inv_step (a : Action) (hinv : Inv s) (horderly : Orderly s a) (hstep : step s a = some t) :
    Inv t := by
  cases a with
  | setState status => exact Option.some.inj hstep ▸ inv_setState status hinv
  | collect =>
    simp only [step] at hstep
    by_cases hguard : s.uncollected = true ∧ ∀ call ∈ s.calls, call.collector = false
    · rw [if_pos hguard] at hstep
      exact Option.some.inj hstep ▸ inv_collect hinv horderly
    · rw [if_neg hguard] at hstep
      cases hstep
  | load =>
    obtain ⟨hcalls, hreason⟩ := horderly
    obtain rfl := Option.some.inj hstep
    refine inv_call hinv hcalls ⟨⟨nofun, nofun, trivial⟩, nofun,
      fun hmem ↦ absurd hmem (by decide), fun _ hon ↦ ?_, fun hmem ↦ absurd hmem (by decide)⟩
    rcases hreason with hconnected | hoff
    · exact Or.inl hconnected
    · exact absurd (hoff.symm.trans hon) nofun
  | start =>
    obtain ⟨hcalls, hconnected, hon⟩ := horderly
    obtain rfl := Option.some.inj hstep
    exact inv_call hinv hcalls ((fits_nil _).start nofun hon (Or.inl hconnected))
  | stop =>
    obtain rfl := Option.some.inj hstep
    exact inv_call hinv horderly (fits_stop _)
  | onDecoyTrafficToggleClicked => exact inv_toggle hinv horderly.1 horderly.2 hstep
  | advance k => exact inv_advance hinv hstep
  | report k =>
    obtain rfl : k = 0 := horderly
    obtain ⟨hquiet, hsends⟩ := quiet_report hinv.endless hstep
    exact hinv.quiet hquiet (hsends ▸ hinv.guarded)
  | wake i | turn i due | send i | answer i =>
    obtain ⟨loop, hloop, hloopStep⟩ := Option.bind_eq_some_iff.mp hstep
    exact inv_stepLoop _ hinv horderly hloop hloopStep

theorem inv_initial (status : Status) (isDecoyTrafficOn : Bool) :
    Inv (State.initial status isDecoyTrafficOn) where
  endless := nofun
  exclusive := Nat.le_refl _
  fits := by
    intro call hcall
    rw [List.mem_singleton.mp hcall]
    exact ⟨⟨nofun, nofun, nofun, trivial⟩, nofun, fun hmem ↦ absurd hmem (by decide),
      fun _ _ ↦ Or.inr (Or.inr rfl), fun hmem ↦ absurd hmem (by decide)⟩
  main := by
    rintro i ⟨loop, hloop, -⟩
    cases hloop
  guarded := nofun
  covered := by
    rintro - i ⟨loop, hloop, -⟩
    cases hloop
  reported := fun hstops ↦ absurd (hstops _ (List.mem_singleton_self _)) (by decide)

/-- The promise follows from the invariant. -/
theorem Inv.truthful (hinv : Inv s) : Truthful s where
  single := fun i j hi hj ↦ Option.some.inj ((hinv.main i hi).symm.trans (hinv.main j hj))
  guarded := hinv.guarded
  reported := by
    intro hcalls hreports
    have hreported := hinv.reported (by rw [hcalls]; exact nofun)
    rwa [State.final, hreports, List.foldl_nil] at hreported

/-- Along orderly runs the controller keeps its promise. -/
theorem truthful_of_orderly (status : Status) (isDecoyTrafficOn : Bool)
    (hreach : Reaches step Orderly (State.initial status isDecoyTrafficOn) s) : Truthful s :=
  (hreach.invariant Inv (fun a _ _ hinv horderly hstep ↦ inv_step a hinv horderly hstep)
    (inv_initial status isDecoyTrafficOn)).truthful

/-- The VPN connects while the setting is on, and a request is sent; then it disconnects, and the
loop ends. -/
theorem truthful_of_orderly_connected :
    ∃ s, Reaches step Orderly (State.initial .disconnected true) s ∧
      (s.sends = [(.connected, true)] ∧ s.calls = [] ∧ s.reports = [] ∧ s.events = false) ∧
      Truthful s := by
  obtain ⟨s, hreach, hcheck⟩ := exists_reaches_of_run step Orderly
    (State.initial .disconnected true)
    [.advance 0, .advance 0, .advance 0, .advance 0, .advance 0, .collect, .advance 0,
      .setState .connected, .collect, .advance 0, .advance 0, .report 0, .report 0, .report 0,
      .report 0, .report 0, .report 0, .report 0, .wake 1, .turn 1 true, .send 1,
      .setState .disconnected, .collect, .advance 0, .report 0, .answer 1, .turn 1 false, .wake 1]
    (fun s ↦ decide (s.sends = [(.connected, true)] ∧ s.calls = [] ∧ s.reports = [] ∧
      s.events = false))
    (by decide)
  exact ⟨s, hreach, of_decide_eq_true hcheck, truthful_of_orderly _ _ hreach⟩

/-- The setting is turned off while a loop runs: the loop goes on to send. -/
theorem not_truthful_turnedOff :
    ¬ ∀ (status : Status) (isDecoyTrafficOn : Bool) (s : State),
      Reaches step Always (State.initial status isDecoyTrafficOn) s → Truthful s := by
  intro htruthful
  obtain ⟨s, hreach, hcheck⟩ := exists_reaches_of_run step Always
    (State.initial .disconnected true)
    [.advance 0, .advance 0, .advance 0, .advance 0, .advance 0, .collect, .advance 0,
      .setState .connected, .collect, .advance 0, .advance 0, .report 0, .report 0, .report 0,
      .report 0, .report 0, .report 0, .report 0, .wake 1, .onDecoyTrafficToggleClicked,
      .turn 1 true, .send 1]
    (fun s ↦ decide (s.sends = [(.connected, false)]))
    (by decide)
  have hsends := of_decide_eq_true hcheck
  have hguarded := (htruthful _ _ s hreach).guarded (.connected, false)
    (hsends ▸ List.mem_singleton_self _)
  cases hguarded.2

end WindscribeVpn.Decoytraffic.DecoyTrafficController
