import WindscribeVpn.Backend.PublishedState
import WindscribeVpn.Foundations.Runs
import Mathlib.Data.List.TakeDrop

/-!
# Emergency connect

`connectUsingEmergencyProfile` of `WindVpnController.kt` collects the published connection state and
starts the next emergency profile each time it takes a `Disconnected`. The flow keeps its latest
value only, and the backend, the controller and the service all publish to it, each state through a
coroutine of `setState` that emits when it is scheduled. One attempt that fails is published more
than once: by the service that ends the session and by the backend itself.

`InTurn` is the promise: the profiles are started in their order, each after a terminal state of the
attempt before it, none behind a `Connected`, and a walk without one fails when every profile was
tried. `prefix_of_reaches` is the part that holds of every run. `not_inTurn_twice` is a run that
breaks the rest: the second `Disconnected` of one failure is taken for that of the next attempt.
`not_inTurn_unread` is another, a profile that cannot be read. `Orderly` is the condition that each
attempt comes to one terminal state, published behind its other states and by nobody else, and
`inTurn_of_orderly` proves the promise for every run whose steps all meet it.
-/

set_option autoImplicit false
set_option relaxedAutoImplicit false

namespace WindscribeVpn.Backend.EmergencyConnect

open Foundations.Runs

/-! ### The walk -/

/-- `OpenVPNConnectionInfo`, by its protocol and whether `createOpenVPNProfile` reads its
configuration or throws. -/
structure OpenVPNConnectionInfo where
  protocolInformation : ProtocolInformation
  parses : Bool
  deriving DecidableEq, Repr

/-- Where the collector is behind its `setState` with `Connecting`. -/
inductive Body
  /-- Before `createOpenVPNProfile`. -/
  | announced
  /-- Behind `launchVPNService`, before `connectionAttempt++`. -/
  | launched
  deriving DecidableEq, Repr

/-- How the walk ended. -/
inductive Result
  | connected
  | failed
  deriving DecidableEq, Repr

/-- The walk and the flow that it collects. The fields from `started` on are history: the profiles
started, whether the latest attempt goes on (`underWay`) and whether it has produced a
`Disconnected` (`ended`), whether any has produced a `Connected`, whether a profile was started
before the attempt before it was over (`early`) and whether one was started behind a `Connected`
(`past`). -/
structure Walk where
  connectionInfo : List OpenVPNConnectionInfo
  connectionAttempt : ℕ
  collecting : Option Body
  result : Option Result
  flow : PublishedState
  started : List OpenVPNConnectionInfo
  underWay : Bool
  ended : Bool
  connected : Bool
  early : Bool
  past : Bool
  deriving DecidableEq, Repr

namespace Walk

/-- The walk when it begins, with the state published then. -/
def initial (connectionInfo : List OpenVPNConnectionInfo) (published : VPNState) : Walk where
  connectionInfo := connectionInfo
  connectionAttempt := 0
  collecting := none
  result := none
  flow := .initial published
  started := []
  underWay := false
  ended := false
  connected := false
  early := false
  past := false

variable (w : Walk)

/-- The collector takes the published state, up to its `setState` with `Connecting`. -/
def collect : Walk :=
  let state := w.flow.value
  let w := { w with flow := w.flow.take }
  if state.status = .connected then { w with result := some .connected }
  else if 0 < w.connectionAttempt ∧ state.error.map Error.error = some .userDisconnect then w
  else if state.status = .disconnected ∧ w.connectionAttempt < w.connectionInfo.length then
    { w with
      flow := w.flow.setState { status := .connecting } false
      collecting := some .announced }
  else if state.status ≠ .connecting ∧ w.connectionInfo.length ≤ w.connectionAttempt then
    { w with result := some .failed }
  else w

/-- `launchVPNService` for a profile. -/
def launchVPNService (openVPNInfo : OpenVPNConnectionInfo) : Walk :=
  { w with
    collecting := some .launched
    started := w.started ++ [openVPNInfo]
    underWay := true
    ended := false
    early := w.early || (!w.started.isEmpty && !w.ended)
    past := w.past || w.connected }

/-- `createOpenVPNProfile` for the next profile, and its launch. What is thrown ends the walk. -/
def launch : Walk :=
  match w.connectionInfo[w.connectionAttempt]? with
  | some openVPNInfo =>
    if openVPNInfo.parses then w.launchVPNService openVPNInfo
    else { w with collecting := none, result := some .failed }
  | none => { w with collecting := none, result := some .failed }

/-- An attempt is the one started last. -/
def isLatest (attempt : Option ℕ) : Bool := attempt.any fun i ↦ i + 1 == w.started.length

/-- An attempt has produced a state, while the walk goes on. -/
def produce (attempt : Option ℕ) (state : VPNState) : Walk :=
  if w.result = none then
    { w with
      ended := w.ended || (w.isLatest attempt && state.status == .disconnected)
      connected := w.connected || (attempt.isSome && state.status == .connected) }
  else w

end Walk

/-- A step of one party. -/
inductive Action
  /-- The collector takes the published state. -/
  | collect
  /-- The collector builds the next profile and launches the service. -/
  | launch
  /-- The collector is done with the state it took. -/
  | finish
  /-- The backend, the controller or the service publishes a state: for an attempt, or for something
  else. -/
  | setState (attempt : Option ℕ) (state : VPNState) (force : Bool)
  /-- The latest attempt comes to an end. -/
  | conclude
  /-- A coroutine of `setState` compares its state with the published one. -/
  | compare (i : ℕ)
  /-- A coroutine of `setState` emits. -/
  | publish (i : ℕ)
  deriving DecidableEq, Repr

/-- One step, or nothing when it cannot be taken now. -/
def step (w : Walk) : Action → Option Walk
  | .collect =>
    if w.result = none ∧ w.collecting = none ∧ w.flow.taken = false then some w.collect
    else none
  | .launch => if w.collecting = some .announced then some w.launch else none
  | .finish =>
    if w.collecting = some .launched then
      some { w with collecting := none, connectionAttempt := w.connectionAttempt + 1 }
    else none
  | .setState attempt state force =>
    if attempt.all fun i ↦ i < w.started.length then
      some { w.produce attempt state with flow := w.flow.setState state force }
    else none
  | .conclude => if w.started = [] then none else some { w with underWay := false }
  | .compare i => (w.flow.compare i).map fun flow ↦ { w with flow }
  | .publish i => (w.flow.publish i).map fun flow ↦ { w with flow }

/-! ### The promise -/

/-- Nothing is left to happen: the collector has taken what is published and is done with it, and
the latest attempt has come to its end. -/
def Walk.Quiet (w : Walk) : Prop :=
  w.collecting = none ∧ w.flow.taken = true ∧ w.flow.emissions = [] ∧ w.underWay = false

/-- What is promised of a walk. -/
structure InTurn (w : Walk) : Prop where
  inOrder : w.started <+: w.connectionInfo
  awaited : w.early = false
  stopsAtConnected : w.past = false
  connected : w.result = some .connected → w.connected = true
  failed : w.result = some .failed →
    w.started = w.connectionInfo ∧ (w.started = [] ∨ w.ended = true) ∧ w.connected = false
  ends : w.Quiet → w.result ≠ none

/-- A status at which the walk waits on. Any but `Connecting` ends it behind the last profile. -/
def Walk.PassesOver (w : Walk) (status : Status) : Prop :=
  status = .connecting ∨
    status ≠ .connected ∧ status ≠ .disconnected ∧ w.started.length < w.connectionInfo.length

/-- The steps of attempts that each come to one terminal state, published last. -/
def Orderly (w : Walk) : Action → Prop
  /- The profile can be read. -/
  | .launch => (w.connectionInfo[w.connectionAttempt]?).all OpenVPNConnectionInfo.parses = true
  /- While the walk goes on, only the latest attempt publishes, up to its terminal state. -/
  | .setState attempt state _ =>
    w.result = none → w.isLatest attempt = true ∧ w.ended = false ∧ w.connected = false ∧
      (w.PassesOver state.status ∨ state.status = .connected ∨
        state.status = .disconnected ∧ state.error.map Error.error ≠ some .userDisconnect)
  /- An attempt comes to its end behind its terminal state. -/
  | .conclude => w.result = none → w.ended = true ∨ w.connected = true
  /- A terminal state is compared and emitted behind every other one. -/
  | .compare i | .publish i =>
    w.result = none → (w.flow.emissions[i]?).all (fun emission ↦
      emission.state.status != .connected && emission.state.status != .disconnected) = true ∨
        w.flow.emissions.length = 1
  | .collect | .finish => True

instance decidablePassesOver (w : Walk) (status : Status) : Decidable (w.PassesOver status) :=
  inferInstanceAs (Decidable (_ = _ ∨ _ ≠ _ ∧ _ ≠ _ ∧ _ < _))

instance decidableOrderly (w : Walk) : (a : Action) → Decidable (Orderly w a)
  | .launch => inferInstanceAs (Decidable (_ = _))
  | .setState _ state _ =>
    inferInstanceAs (Decidable (_ = _ → _ = _ ∧ _ = _ ∧ _ = _ ∧
      (w.PassesOver state.status ∨ _ = _ ∨ _ = _ ∧ _ ≠ _)))
  | .conclude => inferInstanceAs (Decidable (_ = _ → _ = _ ∨ _ = _))
  | .compare _ | .publish _ => inferInstanceAs (Decidable (_ = _ → _ = _ ∨ _ = _))
  | .collect | .finish => inferInstanceAs (Decidable True)

/-! ### The profiles are started in their order -/

section Order

variable {w after : Walk}

/-- How many profiles the collector has come past. -/
def Walk.reached (w : Walk) : ℕ :=
  w.connectionAttempt + if w.collecting = some .launched then 1 else 0

/-- The profiles that were started are those that the collector has come past. -/
structure InOrder (w : Walk) : Prop where
  started : w.started = w.connectionInfo.take w.reached
  bound : w.reached ≤ w.connectionInfo.length

theorem InOrder.length (horder : InOrder w) : w.started.length = w.reached := by
  rw [horder.started, List.length_take]
  exact Nat.min_eq_left horder.bound

/-- A step that starts nothing. -/
theorem InOrder.of_same (horder : InOrder w) (hinfo : after.connectionInfo = w.connectionInfo)
    (hstarted : after.started = w.started) (hreached : after.reached = w.reached) :
    InOrder after := by
  refine ⟨?_, ?_⟩
  · rw [hstarted, hinfo, hreached]
    exact horder.started
  · rw [hinfo, hreached]
    exact horder.bound

theorem InOrder.collect (horder : InOrder w) (hcollecting : w.collecting = none) :
    InOrder w.collect := by
  unfold Walk.collect
  dsimp only
  split_ifs
  · exact horder.of_same rfl rfl rfl
  · exact horder.of_same rfl rfl rfl
  · refine horder.of_same rfl rfl ?_
    rw [Walk.reached, Walk.reached, hcollecting]
    rfl
  · exact horder.of_same rfl rfl rfl
  · exact horder.of_same rfl rfl rfl

theorem InOrder.launch (horder : InOrder w) (hcollecting : w.collecting = some .announced) :
    InOrder w.launch := by
  have hreached : w.reached = w.connectionAttempt := by
    rw [Walk.reached, hcollecting]
    rfl
  unfold Walk.launch
  split
  · rename_i openVPNInfo hinfo
    split_ifs
    · refine ⟨?_, ?_⟩
      · change w.started ++ [openVPNInfo] = w.connectionInfo.take (w.connectionAttempt + 1)
        rw [List.take_add_one, hinfo, horder.started, hreached]
        rfl
      · obtain ⟨hlt, -⟩ := List.getElem?_eq_some_iff.mp hinfo
        exact hlt
    · exact horder.of_same rfl rfl hreached.symm
  · exact horder.of_same rfl rfl hreached.symm

theorem InOrder.step (horder : InOrder w) {a : Action} (hstep : step w a = some after) :
    InOrder after := by
  cases a with
  | collect =>
    obtain ⟨⟨-, hcollecting, -⟩, ⟨⟩⟩ := Option.ite_none_right_eq_some.mp hstep
    exact horder.collect hcollecting
  | launch =>
    obtain ⟨hcollecting, ⟨⟩⟩ := Option.ite_none_right_eq_some.mp hstep
    exact horder.launch hcollecting
  | finish =>
    obtain ⟨hcollecting, ⟨⟩⟩ := Option.ite_none_right_eq_some.mp hstep
    refine horder.of_same rfl rfl ?_
    rw [Walk.reached, Walk.reached, hcollecting]
    rfl
  | setState attempt state force =>
    obtain ⟨-, ⟨⟩⟩ := Option.ite_none_right_eq_some.mp hstep
    unfold Walk.produce
    split_ifs
    · exact horder.of_same rfl rfl rfl
    · exact horder.of_same rfl rfl rfl
  | conclude =>
    obtain ⟨-, ⟨⟩⟩ := Option.ite_none_left_eq_some.mp hstep
    exact horder.of_same rfl rfl rfl
  | compare i =>
    obtain ⟨flow, -, rfl⟩ := Option.map_eq_some_iff.mp hstep
    exact horder.of_same rfl rfl rfl
  | publish i =>
    obtain ⟨flow, -, rfl⟩ := Option.map_eq_some_iff.mp hstep
    exact horder.of_same rfl rfl rfl

theorem inOrder_of_reaches {admits : Walk → Action → Prop}
    {connectionInfo : List OpenVPNConnectionInfo} {published : VPNState}
    (hreach : Reaches EmergencyConnect.step admits (Walk.initial connectionInfo published) w) :
    InOrder w := by
  refine hreach.invariant InOrder ?_ ⟨rfl, Nat.zero_le _⟩
  exact fun _ _ _ hx _ hstep ↦ hx.step hstep

/-- In every run, no profile is skipped and none is started twice. -/
theorem prefix_of_reaches {connectionInfo : List OpenVPNConnectionInfo} {published : VPNState}
    (hreach : Reaches EmergencyConnect.step Always (Walk.initial connectionInfo published) w) :
    w.started <+: w.connectionInfo := by
  rw [(inOrder_of_reaches hreach).started]
  exact List.take_prefix _ _

end Order

/-! ### What an orderly run keeps -/

section Run

variable {w after : Walk}

/-- The terminal state of the latest attempt, or the `Disconnected` at which the walk begins. -/
def Walk.IsTerminal (w : Walk) (state : VPNState) : Prop :=
  (w.connected = true ∧ state.status = .connected) ∨
    (w.connected = false ∧ state.status = .disconnected ∧
      (w.started = [] ∨ w.ended = true ∧ state.error.map Error.error ≠ some .userDisconnect))

/-- The published state is a `Disconnected` that the collector has taken, and a `Connecting` is on
its way. -/
def Walk.Superseded (w : Walk) : Prop :=
  w.flow.value.status = .disconnected ∧ w.flow.taken = true ∧
    ∃ state ∈ w.flow.pending, state.status = .connecting

/-- The collector starts nothing for what is published. -/
def Walk.Waits (w : Walk) : Prop := w.PassesOver w.flow.value.status ∨ w.Superseded

/-- How far the walk has come. -/
inductive Phase (w : Walk) : Prop
  /-- The terminal state is published, and the collector has not taken it. -/
  | published (hcollecting : w.collecting ≠ some .announced) (hpending : w.flow.pending = [])
      (htaken : w.flow.taken = false) (hterminal : w.IsTerminal w.flow.value)
  /-- The collector has taken it, and the next profile is about to be launched. -/
  | announced (hcollecting : w.collecting = some .announced)
      (hbound : w.connectionAttempt < w.connectionInfo.length)
      (hended : w.started = [] ∨ w.ended = true) (hconnected : w.connected = false)
      (hpending : ∀ state ∈ w.flow.pending, state.status = .connecting)
      (hwaits : w.flow.value.status = .connecting ∨ w.Superseded)
  /-- The latest attempt has produced no terminal state. -/
  | running (hcollecting : w.collecting ≠ some .announced) (hunderWay : w.underWay = true)
      (hended : w.ended = false) (hconnected : w.connected = false)
      (hpending : ∀ state ∈ w.flow.pending, w.PassesOver state.status) (hwaits : w.Waits)
  /-- It has produced one, which is not published yet. -/
  | produced (hcollecting : w.collecting ≠ some .announced)
      (hterminal : ∃ state ∈ w.flow.pending, w.IsTerminal state)
      (hpending : ∀ state ∈ w.flow.pending, w.PassesOver state.status ∨ w.IsTerminal state)
      (hwaits : w.Waits)

/-- The invariant of the orderly runs. -/
structure Inv (w : Walk) : Prop where
  phase : w.result = none → Phase w
  idle : w.result ≠ none → w.collecting = none
  awaited : w.early = false
  stopsAtConnected : w.past = false
  connected : w.result = some .connected → w.connected = true
  failed : w.result = some .failed →
    w.started = w.connectionInfo ∧ (w.started = [] ∨ w.ended = true) ∧ w.connected = false

theorem Walk.PassesOver.not_terminal {status : Status} (hpasses : w.PassesOver status) :
    status ≠ .connected ∧ status ≠ .disconnected := by
  rcases hpasses with rfl | ⟨hconnected, hdisconnected, -⟩
  · exact ⟨nofun, nofun⟩
  · exact ⟨hconnected, hdisconnected⟩

theorem Walk.IsTerminal.status {state : VPNState} (hterminal : w.IsTerminal state) :
    state.status = .connected ∨ state.status = .disconnected := by
  rcases hterminal with ⟨-, hstatus⟩ | ⟨-, hstatus, -⟩
  · exact Or.inl hstatus
  · exact Or.inr hstatus

/-- The walk goes on. -/
theorem Inv.of_phase (hresult : after.result = none) (hphase : Phase after)
    (hearly : after.early = false) (hpast : after.past = false) : Inv after where
  phase _ := hphase
  idle hsome := absurd hresult hsome
  awaited := hearly
  stopsAtConnected := hpast
  connected hsome := absurd (hresult.symm.trans hsome) nofun
  failed hsome := absurd (hresult.symm.trans hsome) nofun

/-! #### What the collector does with a state -/

theorem collect_of_connected (hstatus : w.flow.value.status = .connected) :
    w.collect = { w with flow := w.flow.take, result := some .connected } :=
  if_pos hstatus

/-- A `Disconnected` that starts the next profile. -/
theorem collect_of_next (hstatus : w.flow.value.status = .disconnected)
    (herror : ¬ (0 < w.connectionAttempt ∧
      w.flow.value.error.map Error.error = some .userDisconnect))
    (hbound : w.connectionAttempt < w.connectionInfo.length) :
    w.collect = { w with
      flow := w.flow.take.setState { status := .connecting } false
      collecting := some .announced } := by
  unfold Walk.collect
  dsimp only
  rw [if_neg (by rw [hstatus]; decide), if_neg herror, if_pos ⟨hstatus, hbound⟩]

/-- A `Disconnected` behind the last profile. -/
theorem collect_of_last (hstatus : w.flow.value.status = .disconnected)
    (herror : ¬ (0 < w.connectionAttempt ∧
      w.flow.value.error.map Error.error = some .userDisconnect))
    (hbound : w.connectionInfo.length ≤ w.connectionAttempt) :
    w.collect = { w with flow := w.flow.take, result := some .failed } := by
  unfold Walk.collect
  dsimp only
  rw [if_neg (by rw [hstatus]; decide), if_neg herror,
    if_neg fun hnext ↦ absurd hnext.2 (Nat.not_lt.mpr hbound),
    if_pos ⟨by rw [hstatus]; decide, hbound⟩]

theorem collect_of_passesOver (hpasses : w.PassesOver w.flow.value.status)
    (hlength : w.started.length = w.connectionAttempt) :
    w.collect = { w with flow := w.flow.take } := by
  obtain ⟨hconnected, hdisconnected⟩ := hpasses.not_terminal
  unfold Walk.collect
  dsimp only
  rw [if_neg hconnected]
  split_ifs with herror hnext hlast
  · rfl
  · exact absurd hnext.1 hdisconnected
  · rcases hpasses with hconnecting | ⟨-, -, hbound⟩
    · exact absurd hconnecting hlast.1
    · exact absurd hlast.2 (Nat.not_le.mpr (hlength ▸ hbound))
  · rfl

/-- The collector takes the terminal state of the latest attempt. -/
theorem Inv.collect_of_isTerminal (hinv : Inv w) (horder : InOrder w) (hresult : w.result = none)
    (hcollecting : w.collecting = none) (hpending : w.flow.pending = [])
    (hterminal : w.IsTerminal w.flow.value) : Inv w.collect := by
  have hlength : w.started.length = w.connectionAttempt := by
    rw [horder.length, Walk.reached, hcollecting]
    rfl
  rcases hterminal with ⟨hconnected, hstatus⟩ | ⟨hconnected, hstatus, hbehind⟩
  · rw [collect_of_connected hstatus]
    exact ⟨nofun, fun _ ↦ hcollecting, hinv.awaited, hinv.stopsAtConnected, fun _ ↦ hconnected,
      nofun⟩
  · have herror : ¬ (0 < w.connectionAttempt ∧
        w.flow.value.error.map Error.error = some .userDisconnect) := by
      rintro ⟨hpos, herror⟩
      rcases hbehind with hempty | ⟨-, hother⟩
      · rw [← hlength, hempty] at hpos
        exact absurd hpos (Nat.lt_irrefl 0)
      · exact hother herror
    have hended : w.started = [] ∨ w.ended = true := hbehind.imp id And.left
    rcases Nat.lt_or_ge w.connectionAttempt w.connectionInfo.length with hbound | hbound
    · rw [collect_of_next hstatus herror hbound]
      have hannounced : (w.flow.take.setState { status := .connecting } false).pending =
          [{ status := .connecting }] := by
        rw [PublishedState.pending_setState, PublishedState.pending_take, hpending]
        rfl
      refine .of_phase hresult (.announced rfl hbound hended hconnected ?_
        (Or.inr ⟨hstatus, rfl, ?_⟩)) hinv.awaited hinv.stopsAtConnected
      · rw [hannounced]
        simp
      · rw [hannounced]
        exact ⟨_, List.mem_singleton_self _, rfl⟩
    · rw [collect_of_last hstatus herror hbound]
      refine ⟨nofun, fun _ ↦ hcollecting, hinv.awaited, hinv.stopsAtConnected, nofun,
        fun _ ↦ ⟨?_, hended, hconnected⟩⟩
      change w.started = w.connectionInfo
      rw [horder.started, ← horder.length, hlength]
      exact List.take_of_length_le hbound

/-- A step that leaves the history, and keeps the phase of a walk that goes on. -/
theorem Inv.of_same (hinv : Inv w) (hresult : after.result = w.result)
    (hcollecting : w.result ≠ none → after.collecting = w.collecting)
    (hstarted : after.started = w.started) (hinfo : after.connectionInfo = w.connectionInfo)
    (hended : after.ended = w.ended) (hconnected : after.connected = w.connected)
    (hearly : after.early = w.early) (hpast : after.past = w.past)
    (hphase : w.result = none → Phase w → Phase after) : Inv after := by
  refine ⟨fun hnone ↦ ?_, fun hsome ↦ ?_, ?_, ?_, ?_, ?_⟩
  · rw [hresult] at hnone
    exact hphase hnone (hinv.phase hnone)
  · rw [hresult] at hsome
    rw [hcollecting hsome]
    exact hinv.idle hsome
  · rw [hearly]
    exact hinv.awaited
  · rw [hpast]
    exact hinv.stopsAtConnected
  · rw [hresult, hconnected]
    exact hinv.connected
  · rw [hresult, hstarted, hinfo, hended, hconnected]
    exact hinv.failed

/-- The collector takes what is published. -/
theorem Inv.collect (hinv : Inv w) (horder : InOrder w) (hresult : w.result = none)
    (hcollecting : w.collecting = none) (htaken : w.flow.taken = false) : Inv w.collect := by
  have hlength : w.started.length = w.connectionAttempt := by
    rw [horder.length, Walk.reached, hcollecting]
    rfl
  have hpasses (hwaits : w.Waits) : w.PassesOver w.flow.value.status := by
    rcases hwaits with hpasses | ⟨-, hsuperseded, -⟩
    · exact hpasses
    · exact absurd (htaken.symm.trans hsuperseded) nofun
  cases hinv.phase hresult with
  | published _ hpending _ hterminal =>
    exact hinv.collect_of_isTerminal horder hresult hcollecting hpending hterminal
  | announced hannounced => exact absurd (hcollecting.symm.trans hannounced) nofun
  | running hbody hunderWay hended hconnected hpending hwaits =>
    rw [collect_of_passesOver (hpasses hwaits) hlength]
    refine hinv.of_same rfl (fun _ ↦ rfl) rfl rfl rfl rfl rfl rfl fun _ _ ↦ ?_
    exact .running hbody hunderWay hended hconnected hpending (Or.inl (hpasses hwaits))
  | produced hbody hterminal hpending hwaits =>
    rw [collect_of_passesOver (hpasses hwaits) hlength]
    refine hinv.of_same rfl (fun _ ↦ rfl) rfl rfl rfl rfl rfl rfl fun _ _ ↦ ?_
    exact .produced hbody hterminal hpending (Or.inl (hpasses hwaits))

/-- The next profile is launched. -/
theorem Inv.launch (hinv : Inv w) (hcollecting : w.collecting = some .announced)
    (hparses : (w.connectionInfo[w.connectionAttempt]?).all OpenVPNConnectionInfo.parses = true) :
    Inv w.launch := by
  have hresult : w.result = none := by
    by_contra hsome
    exact absurd (hcollecting.symm.trans (hinv.idle hsome)) nofun
  cases hinv.phase hresult with
  | announced _ hbound hended hconnected hpending hwaits =>
    have hinfo := List.getElem?_eq_getElem hbound
    rw [hinfo, Option.all_some] at hparses
    have hlaunch : w.launch = w.launchVPNService w.connectionInfo[w.connectionAttempt] := by
      rw [Walk.launch, hinfo]
      exact if_pos hparses
    rw [hlaunch]
    refine .of_phase hresult (.running nofun rfl rfl hconnected ?_ ?_) ?_ ?_
    · exact fun state hstate ↦ Or.inl (hpending state hstate)
    · exact hwaits.imp Or.inl id
    · change (w.early || (!w.started.isEmpty && !w.ended)) = false
      rw [hinv.awaited]
      rcases hended with hempty | hended
      · rw [hempty]
        rfl
      · rw [hended, Bool.not_true, Bool.and_false]
        rfl
    · change (w.past || w.connected) = false
      rw [hinv.stopsAtConnected, hconnected]
      rfl
  | published hbody => exact absurd hcollecting hbody
  | running hbody => exact absurd hcollecting hbody
  | produced hbody => exact absurd hcollecting hbody

/-! #### What the coroutines of `setState` do -/

section Emissions

variable {i : ℕ} {emission : Emission} {flow : PublishedState}

/-- The condition on a coroutine: its state is none that ends an attempt, or the last one. -/
theorem nonterminal_or_last (hemission : w.flow.emissions[i]? = some emission)
    (horderly : (w.flow.emissions[i]?).all (fun emission ↦
      emission.state.status != .connected && emission.state.status != .disconnected) = true ∨
        w.flow.emissions.length = 1) :
    (emission.state.status ≠ .connected ∧ emission.state.status ≠ .disconnected) ∨
      w.flow.emissions = [emission] ∧ i = 0 := by
  rcases horderly with hall | hlength
  · rw [hemission, Option.all_some, Bool.and_eq_true, bne_iff_ne, bne_iff_ne] at hall
    exact Or.inl hall
  · exact Or.inr (PublishedState.emissions_eq_singleton hemission hlength)

/-- The published state and whether it was taken stay, and so does what is on its way. -/
theorem Phase.of_pending (hphase : Phase w) (hvalue : flow.value = w.flow.value)
    (htaken : flow.taken = w.flow.taken) (hpending : flow.pending = w.flow.pending) :
    Phase { w with flow } := by
  have hsuperseded (hbefore : w.Superseded) : ({ w with flow } : Walk).Superseded :=
    ⟨(congrArg VPNState.status hvalue).trans hbefore.1, htaken.trans hbefore.2.1,
      hpending.symm ▸ hbefore.2.2⟩
  have hwaits (hbefore : w.Waits) : ({ w with flow } : Walk).Waits :=
    hbefore.imp (fun hpasses ↦ congrArg VPNState.status hvalue ▸ hpasses) hsuperseded
  cases hphase with
  | published hbody hempty huntaken hterminal =>
    exact .published hbody (hpending.trans hempty) (htaken.trans huntaken) (hvalue.symm ▸ hterminal)
  | announced hbody hbound hended hconnected hall hbefore =>
    refine .announced hbody hbound hended hconnected (hpending.symm ▸ hall)
      (hbefore.imp (fun hstatus ↦ ?_) hsuperseded)
    exact (congrArg VPNState.status hvalue).trans hstatus
  | running hbody hunderWay hended hconnected hall hbefore =>
    exact .running hbody hunderWay hended hconnected (hpending.symm ▸ hall) (hwaits hbefore)
  | produced hbody hterminal hall hbefore =>
    exact .produced hbody (hpending.symm ▸ hterminal) (hpending.symm ▸ hall) (hwaits hbefore)

/-- A coroutine ends with a state that looks like the published one. -/
theorem Phase.drop (hphase : Phase w) (hemission : w.flow.emissions[i]? = some emission)
    (hlast : (emission.state.status ≠ .connected ∧ emission.state.status ≠ .disconnected) ∨
      w.flow.emissions = [emission] ∧ i = 0)
    (hstatus : emission.state.status = w.flow.value.status) :
    Phase { w with flow := { w.flow with emissions := w.flow.emissions.eraseIdx i } } := by
  have hmem := PublishedState.mem_pending hemission
  cases hphase with
  | published _ hempty => rw [hempty] at hmem; cases hmem
  | announced hbody hbound hended hconnected hall _ =>
    refine .announced hbody hbound hended hconnected
      (fun state hstate ↦ hall state (PublishedState.mem_pending_of_eraseIdx hstate)) (Or.inl ?_)
    exact hstatus.symm.trans (hall _ hmem)
  | running hbody hunderWay hended hconnected hall _ =>
    refine .running hbody hunderWay hended hconnected
      (fun state hstate ↦ hall state (PublishedState.mem_pending_of_eraseIdx hstate)) (Or.inl ?_)
    exact hstatus ▸ hall _ hmem
  | produced hbody hterminal hall hwaits =>
    obtain ⟨final, hfinal, hisTerminal⟩ := hterminal
    rcases hlast with hnonterminal | ⟨honly, -⟩
    · have hpasses : w.PassesOver emission.state.status := by
        rcases hall _ hmem with hpasses | hends
        · exact hpasses
        · exact absurd hends.status (not_or.mpr hnonterminal)
      refine .produced hbody
        ⟨final, PublishedState.mem_pending_eraseIdx hemission hfinal ?_, hisTerminal⟩
        (fun state hstate ↦ hall state (PublishedState.mem_pending_of_eraseIdx hstate))
        (Or.inl (hstatus ▸ hpasses))
      rintro rfl
      exact absurd hisTerminal.status (not_or.mpr hnonterminal)
    -- The terminal state does not look like what is published before it.
    · rw [PublishedState.pending, honly] at hfinal
      obtain rfl := List.mem_singleton.mp hfinal
      rcases hwaits with hpasses | ⟨-, -, state, hstate, hconnecting⟩
      · rw [← hstatus] at hpasses
        exact absurd hisTerminal.status (not_or.mpr hpasses.not_terminal)
      · rw [PublishedState.pending, honly] at hstate
        obtain rfl := List.mem_singleton.mp hstate
        exact absurd hisTerminal.status (by rw [hconnecting]; decide)

/-- A coroutine emits. -/
theorem Phase.publish (hphase : Phase w) (hemission : w.flow.emissions[i]? = some emission)
    (hlast : (emission.state.status ≠ .connected ∧ emission.state.status ≠ .disconnected) ∨
      w.flow.emissions = [emission] ∧ i = 0) :
    Phase { w with flow :=
      { value := emission.state, taken := false, emissions := w.flow.emissions.eraseIdx i } } := by
  have hmem := PublishedState.mem_pending hemission
  cases hphase with
  | published _ hempty => rw [hempty] at hmem; cases hmem
  | announced hbody hbound hended hconnected hall _ =>
    exact .announced hbody hbound hended hconnected
      (fun state hstate ↦ hall state (PublishedState.mem_pending_of_eraseIdx hstate))
      (Or.inl (hall _ hmem))
  | running hbody hunderWay hended hconnected hall _ =>
    exact .running hbody hunderWay hended hconnected
      (fun state hstate ↦ hall state (PublishedState.mem_pending_of_eraseIdx hstate))
      (Or.inl (hall _ hmem))
  | produced hbody hterminal hall _ =>
    obtain ⟨final, hfinal, hisTerminal⟩ := hterminal
    rcases hlast with hnonterminal | ⟨honly, rfl⟩
    · refine .produced hbody
        ⟨final, PublishedState.mem_pending_eraseIdx hemission hfinal ?_, hisTerminal⟩
        (fun state hstate ↦ hall state (PublishedState.mem_pending_of_eraseIdx hstate)) (Or.inl ?_)
      · rintro rfl
        exact absurd hisTerminal.status (not_or.mpr hnonterminal)
      · rcases hall _ hmem with hpasses | hends
        · exact hpasses
        · exact absurd hends.status (not_or.mpr hnonterminal)
    · rw [PublishedState.pending, honly] at hfinal
      obtain rfl := List.mem_singleton.mp hfinal
      refine .published hbody ?_ rfl hisTerminal
      change (w.flow.emissions.eraseIdx 0).map Emission.state = []
      rw [honly]
      rfl

/-- The latest attempt, which goes on, produces a state: one that the walk passes over, or the
terminal one. -/
theorem Phase.append {state : VPNState} {force ended connected : Bool}
    (hbody : w.collecting ≠ some .announced) (hunderWay : w.underWay = true)
    (hpending : ∀ state ∈ w.flow.pending, w.PassesOver state.status) (hwaits : w.Waits)
    (hstate : (ended = false ∧ connected = false ∧ w.PassesOver state.status) ∨
      ({ w with ended, connected } : Walk).IsTerminal state) :
    Phase { w with ended, connected, flow := w.flow.setState state force } := by
  have happend := w.flow.pending_setState state force
  have hwaits' :
      ({ w with ended, connected, flow := w.flow.setState state force } : Walk).Waits := by
    rcases hwaits with hpasses | ⟨hstatus, htaken, hconnecting⟩
    · exact Or.inl hpasses
    · obtain ⟨connecting, hmem, hconnecting⟩ := hconnecting
      refine Or.inr ⟨hstatus, htaken, connecting, ?_, hconnecting⟩
      rw [happend]
      exact List.mem_append_left _ hmem
  rcases hstate with ⟨hended, hconnected, hpasses⟩ | hterminal
  · refine .running hbody hunderWay hended hconnected (fun other hother ↦ ?_) hwaits'
    rw [happend, List.mem_append, List.mem_singleton] at hother
    rcases hother with hother | rfl
    · exact hpending other hother
    · exact hpasses
  · refine .produced hbody ⟨state, ?_, hterminal⟩ (fun other hother ↦ ?_) hwaits'
    · rw [happend]
      exact List.mem_append_right _ (List.mem_singleton_self _)
    · rw [happend, List.mem_append, List.mem_singleton] at hother
      rcases hother with hother | rfl
      · exact Or.inl (hpending other hother)
      · exact Or.inr hterminal

/-- The latest attempt produces a state. -/
theorem Inv.setState (hinv : Inv w) {attempt : Option ℕ} {state : VPNState} {force : Bool}
    (horderly : w.result = none → w.isLatest attempt = true ∧ w.ended = false ∧
      w.connected = false ∧ (w.PassesOver state.status ∨ state.status = .connected ∨
        state.status = .disconnected ∧ state.error.map Error.error ≠ some .userDisconnect)) :
    Inv { w.produce attempt state with flow := w.flow.setState state force } := by
  unfold Walk.produce
  split_ifs with hresult
  · obtain ⟨hlatest, hgoing, hconnected, hstate⟩ := horderly hresult
    obtain ⟨started, rfl, hstarted⟩ := Option.any_eq_true _ _ |>.mp hlatest
    have hnonempty : w.started ≠ [] := by
      intro hempty
      rw [hempty] at hstarted
      cases hstarted
    have hnone (s : VPNState) : ¬ w.IsTerminal s := by
      rintro (⟨htrue, -⟩ | ⟨-, -, hempty | ⟨htrue, -⟩⟩)
      · exact absurd (hconnected.symm.trans htrue) nofun
      · exact hnonempty hempty
      · exact absurd (hgoing.symm.trans htrue) nofun
    cases hinv.phase hresult with
    | published _ _ _ hterminal => exact absurd hterminal (hnone _)
    | announced _ _ hended =>
      rcases hended with hempty | htrue
      · exact absurd hempty hnonempty
      · exact absurd (hgoing.symm.trans htrue) nofun
    | produced _ hterminal =>
      obtain ⟨s, -, hterminal⟩ := hterminal
      exact absurd hterminal (hnone s)
    | running hbody hunderWay _ _ hpending hwaits =>
      refine .of_phase hresult (.append hbody hunderWay hpending hwaits ?_) hinv.awaited
        hinv.stopsAtConnected
      rw [hgoing, hlatest, hconnected]
      rcases hstate with hpasses | hstatus | ⟨hstatus, herror⟩
      · obtain ⟨hneconnected, hnedisconnected⟩ := hpasses.not_terminal
        refine Or.inl ⟨?_, ?_, hpasses⟩
        · exact beq_false_of_ne hnedisconnected
        · exact beq_false_of_ne hneconnected
      · refine Or.inr (Or.inl ⟨?_, hstatus⟩)
        exact beq_iff_eq.mpr hstatus
      · refine Or.inr (Or.inr ⟨?_, hstatus, Or.inr ⟨?_, herror⟩⟩)
        · exact beq_false_of_ne (by rw [hstatus]; decide)
        · exact beq_iff_eq.mpr hstatus
  · exact hinv.of_same rfl (fun _ ↦ rfl) rfl rfl rfl rfl rfl rfl fun hnone _ ↦ absurd hnone hresult

end Emissions

/-- One orderly step keeps the invariant. -/
theorem Inv.step (hinv : Inv w) (horder : InOrder w) {a : Action} (horderly : Orderly w a)
    (hstep : step w a = some after) : Inv after := by
  cases a with
  | collect =>
    obtain ⟨⟨hresult, hcollecting, htaken⟩, ⟨⟩⟩ := Option.ite_none_right_eq_some.mp hstep
    exact hinv.collect horder hresult hcollecting htaken
  | launch =>
    obtain ⟨hcollecting, ⟨⟩⟩ := Option.ite_none_right_eq_some.mp hstep
    exact hinv.launch hcollecting horderly
  | finish =>
    obtain ⟨hcollecting, ⟨⟩⟩ := Option.ite_none_right_eq_some.mp hstep
    refine hinv.of_same rfl (fun hsome ↦ (hinv.idle hsome).symm) rfl rfl rfl rfl rfl rfl
      fun _ hphase ↦ ?_
    cases hphase with
    | published _ hpending htaken hterminal => exact .published nofun hpending htaken hterminal
    | announced hannounced => exact absurd (hcollecting.symm.trans hannounced) nofun
    | running _ hunderWay hended hconnected hpending hwaits =>
      exact .running nofun hunderWay hended hconnected hpending hwaits
    | produced _ hterminal hpending hwaits => exact .produced nofun hterminal hpending hwaits
  | setState attempt state force =>
    obtain ⟨-, ⟨⟩⟩ := Option.ite_none_right_eq_some.mp hstep
    exact hinv.setState horderly
  | conclude =>
    obtain ⟨-, ⟨⟩⟩ := Option.ite_none_left_eq_some.mp hstep
    refine hinv.of_same rfl (fun _ ↦ rfl) rfl rfl rfl rfl rfl rfl fun hresult hphase ↦ ?_
    cases hphase with
    | published hbody hpending htaken hterminal =>
      exact .published hbody hpending htaken hterminal
    | announced hbody hbound hended hconnected hpending hwaits =>
      exact .announced hbody hbound hended hconnected hpending hwaits
    | running _ _ hended hconnected =>
      rcases horderly hresult with htrue | htrue
      · exact absurd (hended.symm.trans htrue) nofun
      · exact absurd (hconnected.symm.trans htrue) nofun
    | produced hbody hterminal hpending hwaits => exact .produced hbody hterminal hpending hwaits
  | compare i =>
    obtain ⟨flow, hcompare, rfl⟩ := Option.map_eq_some_iff.mp hstep
    refine hinv.of_same rfl (fun _ ↦ rfl) rfl rfl rfl rfl rfl rfl fun hresult hphase ↦ ?_
    rcases PublishedState.compare_cases hcompare with ⟨hvalue, htaken, hpending⟩ |
      ⟨emission, hemission, hkey, rfl⟩
    · exact hphase.of_pending hvalue htaken hpending
    · exact hphase.drop hemission (nonterminal_or_last hemission (horderly hresult))
        (congrArg Prod.fst hkey)
  | publish i =>
    obtain ⟨flow, hpublish, rfl⟩ := Option.map_eq_some_iff.mp hstep
    refine hinv.of_same rfl (fun _ ↦ rfl) rfl rfl rfl rfl rfl rfl fun hresult hphase ↦ ?_
    obtain ⟨emission, hemission, rfl⟩ := PublishedState.publish_cases hpublish
    exact hphase.publish hemission (nonterminal_or_last hemission (horderly hresult))

/-- The walk begins at a `Disconnected`. -/
theorem Inv.initial {connectionInfo : List OpenVPNConnectionInfo} {published : VPNState}
    (hpublished : published.status = .disconnected) : Inv (Walk.initial connectionInfo published) :=
  .of_phase rfl (.published nofun rfl rfl (Or.inr ⟨rfl, hpublished, Or.inl rfl⟩)) rfl rfl

/-- A walk with nothing left to happen has ended. -/
theorem Inv.ends (hinv : Inv w) (hquiet : w.Quiet) : w.result ≠ none := by
  obtain ⟨hcollecting, htaken, hemissions, hidle⟩ := hquiet
  intro hresult
  cases hinv.phase hresult with
  | published _ _ huntaken => exact absurd (htaken.symm.trans huntaken) nofun
  | announced hannounced => exact absurd (hcollecting.symm.trans hannounced) nofun
  | running _ hunderWay => exact absurd (hidle.symm.trans hunderWay) nofun
  | produced _ hterminal =>
    obtain ⟨state, hstate, -⟩ := hterminal
    rw [PublishedState.pending, hemissions] at hstate
    cases hstate

/-- Every orderly walk that begins at a `Disconnected` is in turn. -/
theorem inTurn_of_orderly {connectionInfo : List OpenVPNConnectionInfo} {published : VPNState}
    (hpublished : published.status = .disconnected)
    (hreach : Reaches EmergencyConnect.step Orderly (Walk.initial connectionInfo published) w) :
    InTurn w := by
  have hinv : Inv w := by
    refine hreach.invariant_of_reaches Inv ?_ (Inv.initial hpublished)
    exact fun _ _ _ hbefore hx horderly hstep ↦ hx.step (inOrder_of_reaches hbefore) horderly hstep
  have horder := inOrder_of_reaches hreach
  refine ⟨?_, hinv.awaited, hinv.stopsAtConnected, hinv.connected, hinv.failed, hinv.ends⟩
  rw [horder.started]
  exact List.take_prefix _ _

end Run

/-! ### One failure, two emissions -/

/-- A profile that can be read. -/
def sampleProfile : OpenVPNConnectionInfo where
  protocolInformation := { protocol := "udp", port := "443" }
  parses := true

/-- What an attempt publishes when it runs into the timeout. -/
def sampleTimeout (attempt : ℕ) : VPNState where
  status := .disconnected
  error := some { error := .timeoutError, message := "connection timeout" }
  connectionId := some attempt

/-- Both attempts run into the timeout, and the walk fails behind the second. -/
theorem inTurn_of_orderly_timeouts :
    ∃ w, InTurn w ∧ w.result = some .failed ∧ w.started.length = 2 := by
  obtain ⟨w, hreach, hcheck⟩ := exists_reaches_of_run step Orderly
    (Walk.initial [sampleProfile, sampleProfile] { status := .disconnected })
    [.collect, .compare 0, .publish 0, .launch, .finish, .collect,
      .setState (some 0) (sampleTimeout 0) false, .conclude, .compare 0, .publish 0, .collect,
      .compare 0, .publish 0, .launch, .setState (some 1) (sampleTimeout 1) false, .compare 0,
      .publish 0, .finish, .collect]
    (fun w ↦ w.result = some .failed ∧ w.started.length = 2) (by decide)
  exact ⟨w, inTurn_of_orderly rfl hreach, of_decide_eq_true hcheck⟩

/-- The first attempt runs into the timeout: the service that ends its session publishes a
`Disconnected`, and so does the backend. The collector takes the first and launches the second
attempt; it takes the other one behind that attempt's `Connecting`, and launches the third. -/
theorem not_inTurn_twice :
    ¬ ∀ (connectionInfo : List OpenVPNConnectionInfo) (published : VPNState) (w : Walk),
      published.status = .disconnected →
        Reaches step Always (Walk.initial connectionInfo published) w → InTurn w := by
  intro hpromise
  obtain ⟨w, hreach, hcheck⟩ := exists_reaches_of_run step Always
    (Walk.initial [sampleProfile, sampleProfile, sampleProfile] { status := .disconnected })
    [.collect, .compare 0, .publish 0, .launch, .finish, .collect,
      .setState (some 0) { status := .disconnected } true,
      .setState (some 0) (sampleTimeout 0) false, .conclude, .compare 0, .publish 0, .collect,
      .launch, .finish, .compare 1, .publish 1, .compare 0, .publish 0, .collect, .launch]
    (fun w ↦ w.early) (by decide)
  have hawaited := (hpromise _ _ w rfl hreach).awaited
  rw [hcheck] at hawaited
  cases hawaited

/-- The first profile cannot be read, and the walk fails with the second untried. -/
theorem not_inTurn_unread :
    ¬ ∀ (connectionInfo : List OpenVPNConnectionInfo) (published : VPNState) (w : Walk),
      published.status = .disconnected →
        Reaches step Always (Walk.initial connectionInfo published) w → InTurn w := by
  intro hpromise
  obtain ⟨w, hreach, hcheck⟩ := exists_reaches_of_run step Always
    (Walk.initial [{ sampleProfile with parses := false }, sampleProfile]
      { status := .disconnected })
    [.collect, .launch]
    (fun w ↦ w.result = some .failed ∧ w.started = [] ∧ w.connectionInfo ≠ []) (by decide)
  obtain ⟨hfailed, hstarted, hinfo⟩ := of_decide_eq_true hcheck
  exact hinfo (((hpromise _ _ w rfl hreach).failed hfailed).1.symm.trans hstarted)

end WindscribeVpn.Backend.EmergencyConnect
