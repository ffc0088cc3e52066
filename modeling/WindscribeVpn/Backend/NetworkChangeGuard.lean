import WindscribeVpn.Backend.PublishedState
import WindscribeVpn.Foundations.Runs
import WindscribeVpn.State.ConnectionPolicy
import WindscribeVpn.State.NetworkInfoManager

/-!
# The guard of a network change

A backend's observer of the network row (`VpnBackend.kt`) drops a change while
`isHandlingNetworkChange` is set. It sets the flag before `connectAsync` for a protocol switch, and
nothing but the backend's state collector clears it, when that takes a `Disconnected` or a
`Disconnecting`. The connect (`WindVpnController.kt`) publishes the `Disconnected` when it tears the
old session down; it can end before that, and a state that is published next can replace it.

`Heard` is the promise: the flag is set only while the switch that set it is under way, and no
change is dropped on a connected session without one. `not_heard_suspended` is a run that breaks it:
a suspended licence ends the switch at once, and the session is deaf from then on. In
`not_heard_late` the flag is set behind the `Disconnected`, and stays set in the next session.
`Prompt` is the condition that the `Disconnected` of a switch is published, and taken before the
switch goes on, and `heard_of_prompt` proves the promise for every run whose steps all meet it.
-/

set_option autoImplicit false
set_option relaxedAutoImplicit false

namespace WindscribeVpn.Backend.NetworkChangeGuard

open Foundations.Runs
open State.ConnectionPolicy (PolicyInput shouldSwitchProtocol)
open State.NetworkInfoManager (NetworkInfo)

/-! ### The backend -/

/-- What the observer comes to for a row. -/
inductive Decision
  | handleNetworkChange
  | switch
  | nothing
  deriving DecidableEq, Repr

/-- `Disconnected` and `Disconnecting`, at which the collector clears the flag. -/
def isDown (state : VPNState) : Bool :=
  state.status == .disconnected || state.status == .disconnecting

/-- How far the connect in `connectJob` has come. -/
inductive Job
  /-- Its coroutine is launched. -/
  | launched
  /-- It disconnects the active backend. -/
  | disconnecting
  /-- Before `createProfileAndLaunchService`. -/
  | tornDown
  /-- It has called `setState` with `Connecting`, and builds the profile. -/
  | building
  deriving DecidableEq, Repr

/-- A backend with what its two collectors read, and the connect in `connectJob`. `facts` is what
else the policy reads. The observer keeps the last row it took, and what it came to until it has
acted on it. `switching` says that a protocol switch of the observer is under way, and `ignored`
records a change dropped on a connected session without one; the code reads neither. -/
structure VpnBackend where
  networkInfo : Option NetworkInfo
  facts : PolicyInput
  flow : PublishedState
  active : Bool
  protocolInformation : Option ProtocolInformation
  collected : Option (Option NetworkInfo)
  decision : Option Decision
  isHandlingNetworkChange : Bool
  connectJob : Option Job
  switching : Bool
  ignored : Bool
  deriving DecidableEq, Repr

namespace VpnBackend

/-- The backend when the process starts. -/
def initial (networkInfo : Option NetworkInfo) (facts : PolicyInput) : VpnBackend where
  networkInfo := networkInfo
  facts := facts
  flow := .initial { status := .disconnected }
  active := false
  protocolInformation := none
  collected := none
  decision := none
  isHandlingNetworkChange := false
  connectJob := none
  switching := false
  ignored := false

variable (b : VpnBackend)

/-- `stateManager.isVPNConnected`. -/
def isVPNConnected : Bool := b.flow.value.status == .connected

/-- `ConnectionPolicyInputs.from`. -/
def input (networkInfo : Option NetworkInfo) : PolicyInput :=
  NetworkInfo.policyInput networkInfo
    { b.facts with
      status := b.flow.value.status
      activeProtocol := b.protocolInformation.map fun active ↦ (active.protocol, active.port) }

/-- What `handleNetworkInfoUpdate` comes to behind the guard. -/
def verdict (networkInfo : Option NetworkInfo) : Decision :=
  if !shouldSwitchProtocol (b.input networkInfo) then
    if b.isVPNConnected then .handleNetworkChange else .nothing
  else .switch

/-- `handleNetworkInfoUpdate`, up to what it comes to. -/
def handleNetworkInfoUpdate (networkInfo : Option NetworkInfo) : VpnBackend :=
  if b.isHandlingNetworkChange then
    { b with ignored := b.ignored || (b.isVPNConnected && !b.switching) }
  else { b with decision := some (b.verdict networkInfo) }

/-- The observer acts on what it came to: for a switch it sets the flag and calls `connectAsync`. -/
def act (decision : Decision) : VpnBackend :=
  if decision = .switch then
    { b with
      decision := none
      isHandlingNetworkChange := true
      connectJob := some .launched
      switching := true }
  else { b with decision := none }

/-- The state collector takes the published state. -/
def collect : VpnBackend :=
  { b with
    flow := b.flow.take
    isHandlingNetworkChange := b.isHandlingNetworkChange && !isDown b.flow.value }

/-- The end of `disconnect`, which publishes the terminal state unless it is published. -/
def publishDisconnected (error : Option Error) : VpnBackend :=
  if b.flow.value.status = .disconnected then b
  else { b with flow := b.flow.setState { status := .disconnected, error } true }

end VpnBackend

/-- A step of one party. -/
inductive Action
  /-- `NetworkInfoManager` publishes a row. -/
  | networkInfo (row : Option NetworkInfo)
  /-- Something else that the policy reads changes. -/
  | facts (facts : PolicyInput)
  /-- `activate`, which starts the observer unless it runs. -/
  | activate
  /-- `connect` of the backend. -/
  | connect (protocolInformation : ProtocolInformation)
  /-- `deactivate`. -/
  | deactivate
  /-- The observer takes a row. -/
  | observe
  /-- The observer acts on what it came to. -/
  | act
  /-- The state collector takes the published state. -/
  | collect
  /-- Another caller of `connectAsync`. -/
  | connectAsync
  /-- The launched connect begins. With a suspended licence it ends at once. -/
  | begin (isLicenceSuspended activeBackend : Bool)
  /-- The connect has disconnected the active backend. -/
  | tearDown
  /-- The connect calls `setState` with `Connecting`. -/
  | build
  /-- The profile could not be built. -/
  | fail
  /-- The connect launches the service, and ends. -/
  | launch
  /-- A disconnect cancels the connect in `connectJob`. -/
  | cancel
  /-- A backend, the controller or the service calls `setState`. -/
  | setState (state : VPNState) (force : Bool)
  /-- A coroutine of `setState` compares its state with the published one. -/
  | compare (i : ℕ)
  /-- A coroutine of `setState` emits. The session that a switch launched ends the switch. -/
  | publish (i : ℕ)
  deriving DecidableEq, Repr

/-- One step, or nothing when it cannot be taken now. -/
def step (b : VpnBackend) : Action → Option VpnBackend
  | .networkInfo row => some { b with networkInfo := row }
  | .facts facts => some { b with facts }
  | .activate =>
    some { b with active := true, collected := if b.active then b.collected else none }
  | .connect protocolInformation =>
    some { b with protocolInformation := some protocolInformation }
  | .deactivate => some { b with active := false }
  | .observe =>
    if b.active = true ∧ b.decision = none ∧ b.collected ≠ some b.networkInfo then
      some { b.handleNetworkInfoUpdate b.networkInfo with collected := some b.networkInfo }
    else none
  | .act => b.decision.map b.act
  | .collect => if b.flow.taken then none else some b.collect
  | .connectAsync => some { b with connectJob := some .launched, switching := false }
  | .begin isLicenceSuspended activeBackend =>
    if b.connectJob = some .launched ∧ (b.active = true → activeBackend = true) then
      if isLicenceSuspended then some { b with connectJob := none, switching := false }
      else some { b with connectJob := some (if activeBackend then .disconnecting else .tornDown) }
    else none
  | .tearDown =>
    if b.connectJob = some .disconnecting then
      some ({ b with active := false, connectJob := some .tornDown }.publishDisconnected
        (some { error := .userReconnect }))
    else none
  | .build =>
    if b.connectJob = some .tornDown then
      some { b with
        connectJob := some .building
        flow := b.flow.setState { status := .connecting } false }
    else none
  | .fail =>
    if b.connectJob = some .building then
      some ({ b with connectJob := none, switching := false }.publishDisconnected none)
    else none
  | .launch => if b.connectJob = some .building then some { b with connectJob := none } else none
  | .cancel => some { b with connectJob := none, switching := false }
  | .setState state force => some { b with flow := b.flow.setState state force }
  | .compare i => (b.flow.compare i).map fun flow ↦ { b with flow }
  | .publish i =>
    (b.flow.publish i).map fun flow ↦
      if b.connectJob = none ∧ (flow.value.status = .connected ∨ flow.value.status = .disconnected)
      then { b with flow, switching := false }
      else { b with flow }

/-! ### The promise -/

/-- What is promised of the guard. -/
structure Heard (b : VpnBackend) : Prop where
  guard : b.isHandlingNetworkChange = true → b.switching = true
  heard : b.ignored = false

/-- The published state will clear the flag when the collector takes it. -/
def VpnBackend.untaken (b : VpnBackend) : Bool := isDown b.flow.value && !b.flow.taken

/-- The published state has cleared the flag. -/
def VpnBackend.spent (b : VpnBackend) : Bool := isDown b.flow.value && b.flow.taken

/-- A state that clears the flag is published or on its way. -/
def VpnBackend.clearing (b : VpnBackend) : Bool := b.flow.pending.any isDown || b.untaken

/-- The steps of switches that publish a `Disconnected` and wait until it is taken. -/
def Prompt (b : VpnBackend) : Action → Prop
  /- The session that the observer judged has not ended when it sets the flag. -/
  | .act => b.decision = some .switch → b.spent = false
  /- A switch is not refused, and finds a session to disconnect or one that is ending. -/
  | .begin isLicenceSuspended activeBackend =>
    b.switching = true →
      isLicenceSuspended = false ∧ (activeBackend = true ∨ b.clearing = true)
  /- A switch goes on when its `Disconnected` is taken. -/
  | .build => b.switching = true → b.clearing = false
  /- It is cancelled by then at the earliest. -/
  | .cancel | .connectAsync =>
    b.switching = true → b.connectJob = none ∨
      (b.connectJob = some .tornDown ∨ b.connectJob = some .building) ∧ b.clearing = false
  /- Nothing is published over it. -/
  | .publish _ => b.switching = true → b.untaken = false
  | .networkInfo _ | .facts _ | .activate | .connect _ | .deactivate | .observe | .collect
  | .tearDown | .fail | .launch | .setState _ _ | .compare _ => True

instance decidablePrompt (b : VpnBackend) : (a : Action) → Decidable (Prompt b a)
  | .act => inferInstanceAs (Decidable (_ = _ → _ = _))
  | .begin _ _ => inferInstanceAs (Decidable (_ = _ → _ = _ ∧ (_ = _ ∨ _ = _)))
  | .build => inferInstanceAs (Decidable (_ = _ → _ = _))
  | .cancel | .connectAsync =>
    inferInstanceAs (Decidable (_ = _ → _ = _ ∨ (_ = _ ∨ _ = _) ∧ _ = _))
  | .publish _ => inferInstanceAs (Decidable (_ = _ → _ = _))
  | .networkInfo _ | .facts _ | .activate | .connect _ | .deactivate | .observe | .collect
  | .tearDown | .fail | .launch | .setState _ _ | .compare _ => inferInstanceAs (Decidable True)

/-! ### What a prompt run keeps -/

section Run

variable {b after : VpnBackend}

/-- How far a switch that holds the flag has come. -/
def VpnBackend.Holding (b : VpnBackend) : Prop :=
  b.connectJob = some .launched ∨ b.connectJob = some .disconnecting ∨
    b.connectJob = some .tornDown ∧ b.clearing = true

/-- The invariant of the prompt runs. -/
structure Inv (b : VpnBackend) : Prop where
  switching : b.isHandlingNetworkChange = true → b.switching = true
  unspent : b.isHandlingNetworkChange = true → b.spent = false
  holding : b.isHandlingNetworkChange = true → b.Holding
  heard : b.ignored = false

/-- A state without the flag. -/
theorem Inv.of_cleared (hflag : after.isHandlingNetworkChange = false)
    (hheard : after.ignored = false) : Inv after where
  switching hset := absurd (hflag.symm.trans hset) nofun
  unspent hset := absurd (hflag.symm.trans hset) nofun
  holding hset := absurd (hflag.symm.trans hset) nofun
  heard := hheard

/-- A step that leaves the flag, the switch and the published state. -/
theorem Inv.of_same (hinv : Inv b)
    (hflag : after.isHandlingNetworkChange = b.isHandlingNetworkChange)
    (hswitching : after.switching = b.switching) (hflow : after.flow = b.flow)
    (hjob : after.connectJob = b.connectJob) (hheard : after.ignored = b.ignored) : Inv after := by
  refine ⟨?_, ?_, ?_, hheard.trans hinv.heard⟩
  · rw [hflag, hswitching]
    exact hinv.switching
  · rw [hflag, VpnBackend.spent, hflow]
    exact hinv.unspent
  · rw [hflag, VpnBackend.Holding, VpnBackend.clearing, VpnBackend.untaken, hflow, hjob]
    exact hinv.holding

theorem clearing_iff (b : VpnBackend) :
    b.clearing = true ↔ (∃ state ∈ b.flow.pending, isDown state = true) ∨ b.untaken = true := by
  rw [VpnBackend.clearing, Bool.or_eq_true, List.any_eq_true]

/-- A state that is down and was not taken before the switch is still to be taken. -/
theorem untaken_of_unspent (hdown : isDown b.flow.value = true) (hspent : b.spent = false) :
    b.untaken = true := by
  rw [VpnBackend.spent, hdown, Bool.true_and] at hspent
  rw [VpnBackend.untaken, hdown, hspent]
  rfl

/-- A switch holds the flag as long as the connect stays where it is and a state is to clear it. -/
theorem VpnBackend.Holding.mono (hholding : b.Holding) (hjob : after.connectJob = b.connectJob)
    (hclearing : b.clearing = true → after.clearing = true) : after.Holding := by
  rw [VpnBackend.Holding, hjob]
  exact hholding.imp id (Or.imp id (And.imp id hclearing))

/-- A connect that is past the disconnect and waits for no state holds no flag. -/
theorem Inv.cleared (hinv : Inv b) (hlaunched : b.connectJob ≠ some .launched)
    (hdisconnecting : b.connectJob ≠ some .disconnecting)
    (hclearing : b.switching = true → b.connectJob = some .tornDown → b.clearing = false) :
    b.isHandlingNetworkChange = false := by
  refine Bool.eq_false_iff.mpr fun hset ↦ ?_
  rcases hinv.holding hset with hjob | hjob | ⟨hjob, hholds⟩
  · exact hlaunched hjob
  · exact hdisconnecting hjob
  · exact absurd ((hclearing (hinv.switching hset) hjob).symm.trans hholds) nofun

/-- A switch that is cancelled holds no flag. -/
theorem Inv.cleared_of_cancel (hinv : Inv b)
    (hprompt : b.switching = true → b.connectJob = none ∨
      (b.connectJob = some .tornDown ∨ b.connectJob = some .building) ∧ b.clearing = false) :
    b.isHandlingNetworkChange = false := by
  refine Bool.eq_false_iff.mpr fun hset ↦ ?_
  have hholding := hinv.holding hset
  rcases hprompt (hinv.switching hset) with hjob | ⟨hjob, hclearing⟩
  · rw [VpnBackend.Holding, hjob] at hholding
    rcases hholding with hother | hother | ⟨hother, -⟩ <;> cases hother
  · rcases hholding with hother | hother | ⟨-, hholds⟩
    · rw [hother] at hjob
      rcases hjob with hjob | hjob <;> cases hjob
    · rw [hother] at hjob
      rcases hjob with hjob | hjob <;> cases hjob
    · exact absurd (hclearing.symm.trans hholds) nofun

/-- A connect that builds its profile holds no flag. -/
theorem Inv.cleared_of_building (hinv : Inv b) (hjob : b.connectJob = some .building) :
    b.isHandlingNetworkChange = false := by
  refine hinv.cleared ?_ ?_ fun _ htornDown ↦ ?_
  · rw [hjob]
    nofun
  · rw [hjob]
    nofun
  · exact absurd (hjob.symm.trans htornDown) nofun

/-- The launched connect begins. -/
theorem Inv.begin (hinv : Inv b) {isLicenceSuspended activeBackend : Bool}
    (hprompt : b.switching = true →
      isLicenceSuspended = false ∧ (activeBackend = true ∨ b.clearing = true))
    (hbegin : (if isLicenceSuspended then some { b with connectJob := none, switching := false }
      else some { b with
        connectJob := some (if activeBackend then .disconnecting else .tornDown) }) = some after) :
    Inv after := by
  split_ifs at hbegin with hsuspended hactive
  · cases hbegin
    refine .of_cleared ?_ hinv.heard
    refine Bool.eq_false_iff.mpr fun hset ↦ ?_
    exact absurd ((hprompt (hinv.switching hset)).1.symm.trans hsuspended) nofun
  · cases hbegin
    exact ⟨hinv.switching, hinv.unspent, fun _ ↦ Or.inr (Or.inl rfl), hinv.heard⟩
  · cases hbegin
    refine ⟨hinv.switching, hinv.unspent, fun hset ↦ Or.inr (Or.inr ⟨rfl, ?_⟩), hinv.heard⟩
    exact (hprompt (hinv.switching hset)).2.resolve_left hactive

/-- The observer takes a row: behind the flag only while a switch is under way. -/
theorem Inv.observe (hinv : Inv b) (networkInfo : Option NetworkInfo) :
    Inv (b.handleNetworkInfoUpdate networkInfo) := by
  unfold VpnBackend.handleNetworkInfoUpdate
  split_ifs with hset
  · refine hinv.of_same rfl rfl rfl rfl ?_
    change (b.ignored || (b.isVPNConnected && !b.switching)) = b.ignored
    rw [hinv.switching hset, Bool.not_true, Bool.and_false, Bool.or_false]
  · exact hinv.of_same rfl rfl rfl rfl rfl

/-- The observer sets the flag. -/
theorem Inv.act (hinv : Inv b) {decision : Decision}
    (hspent : decision = .switch → b.spent = false) : Inv (b.act decision) := by
  unfold VpnBackend.act
  split_ifs with hswitch
  · exact ⟨fun _ ↦ rfl, fun _ ↦ hspent hswitch, fun _ ↦ Or.inl rfl, hinv.heard⟩
  · exact hinv.of_same rfl rfl rfl rfl rfl

/-- The state collector takes the published state. -/
theorem Inv.collect (hinv : Inv b) : Inv b.collect := by
  rcases hdown : isDown b.flow.value with _ | _
  · refine ⟨fun hset ↦ hinv.switching ?_, fun _ ↦ ?_, fun hset ↦ ?_, hinv.heard⟩
    · exact (Bool.and_eq_true _ _ |>.mp hset).1
    · change (isDown b.flow.value && true) = false
      rw [hdown]
      rfl
    · refine (hinv.holding (Bool.and_eq_true _ _ |>.mp hset).1).mono rfl fun hclearing ↦ ?_
      refine (clearing_iff _).mpr (Or.inl ?_)
      rcases (clearing_iff b).mp hclearing with hpending | huntaken
      · exact hpending
      · rw [VpnBackend.untaken, hdown] at huntaken
        cases huntaken
  · refine Inv.of_cleared ?_ hinv.heard
    change (b.isHandlingNetworkChange && !isDown b.flow.value) = false
    rw [hdown, Bool.not_true, Bool.and_false]

/-- Another state is on its way. -/
theorem clearing_setState (state : VPNState) (force : Bool)
    (hclearing : b.clearing = true ∨ isDown state = true) :
    ({ b with flow := b.flow.setState state force } : VpnBackend).clearing = true := by
  rw [clearing_iff]
  rw [clearing_iff] at hclearing
  change (∃ other ∈ (b.flow.setState state force).pending, _) ∨ b.untaken = true
  rw [PublishedState.pending_setState]
  rcases hclearing with (⟨other, hother, hdown⟩ | huntaken) | hdown
  · exact Or.inl ⟨other, List.mem_append_left _ hother, hdown⟩
  · exact Or.inr huntaken
  · exact Or.inl ⟨state, List.mem_append_right _ (List.mem_singleton_self _), hdown⟩

theorem Inv.setState (hinv : Inv b) (state : VPNState) (force : Bool) :
    Inv { b with flow := b.flow.setState state force } := by
  refine ⟨hinv.switching, hinv.unspent, fun hset ↦ ?_, hinv.heard⟩
  exact (hinv.holding hset).mono rfl fun hclearing ↦
    clearing_setState state force (Or.inl hclearing)

/-- The connect has disconnected the active backend, and its `Disconnected` is published. -/
theorem Inv.tearDown (hinv : Inv b) :
    Inv ({ b with active := false, connectJob := some .tornDown }.publishDisconnected
      (some { error := .userReconnect })) := by
  unfold VpnBackend.publishDisconnected
  split_ifs with hstatus
  · refine ⟨hinv.switching, hinv.unspent, fun hset ↦ Or.inr (Or.inr ⟨rfl, ?_⟩), hinv.heard⟩
    have hdown : isDown b.flow.value = true :=
      Bool.or_eq_true _ _ |>.mpr (Or.inl (beq_iff_eq.mpr hstatus))
    exact (clearing_iff _).mpr (Or.inr (untaken_of_unspent hdown (hinv.unspent hset)))
  · refine ⟨hinv.switching, hinv.unspent, fun _ ↦ Or.inr (Or.inr ⟨rfl, ?_⟩), hinv.heard⟩
    exact clearing_setState (b := { b with active := false, connectJob := some .tornDown }) _ _
      (Or.inr rfl)

/-- A coroutine of `setState` compares its state. -/
theorem Inv.compare (hinv : Inv b) {i : ℕ} {flow : PublishedState}
    (hcompare : b.flow.compare i = some flow) : Inv { b with flow } := by
  rcases PublishedState.compare_cases hcompare with ⟨hvalue, htaken, hpending⟩ |
    ⟨emission, hemission, hkey, rfl⟩
  · refine ⟨hinv.switching, fun hset ↦ ?_, fun hset ↦ ?_, hinv.heard⟩
    · change (isDown flow.value && flow.taken) = false
      rw [hvalue, htaken]
      exact hinv.unspent hset
    · refine (hinv.holding hset).mono rfl fun hclearing ↦ ?_
      change (flow.pending.any isDown || (isDown flow.value && !flow.taken)) = true
      rw [hvalue, htaken, hpending]
      exact hclearing
  · refine ⟨hinv.switching, hinv.unspent, fun hset ↦ ?_, hinv.heard⟩
    refine (hinv.holding hset).mono rfl fun hclearing ↦ (clearing_iff _).mpr ?_
    rcases (clearing_iff b).mp hclearing with ⟨state, hstate, hdown⟩ | huntaken
    · by_cases hne : state = emission.state
      -- The state that is dropped looks like the published one, which is not taken yet.
      · have hstatus : b.flow.value.status = state.status :=
          (congrArg Prod.fst hkey).symm.trans (congrArg VPNState.status hne.symm)
        have hvalue : isDown b.flow.value = true := by
          rw [isDown, hstatus]
          exact hdown
        exact Or.inr (untaken_of_unspent hvalue (hinv.unspent hset))
      · exact Or.inl ⟨state, PublishedState.mem_pending_eraseIdx hemission hstate hne, hdown⟩
    · exact Or.inr huntaken

/-- A coroutine of `setState` emits, over no state that is to clear the flag. -/
theorem Inv.publish (hinv : Inv b) {i : ℕ} {flow : PublishedState}
    (hpublish : b.flow.publish i = some flow) (huntaken : b.switching = true → b.untaken = false) :
    Inv { b with flow } := by
  obtain ⟨emission, hemission, rfl⟩ := PublishedState.publish_cases hpublish
  refine ⟨hinv.switching, fun _ ↦ Bool.and_false _, fun hset ↦ ?_, hinv.heard⟩
  refine (hinv.holding hset).mono rfl fun hclearing ↦ (clearing_iff _).mpr ?_
  rcases (clearing_iff b).mp hclearing with ⟨state, hstate, hdown⟩ | hlost
  · by_cases hne : state = emission.state
    · refine Or.inr ?_
      change (isDown emission.state && !false) = true
      rw [← hne, hdown]
      rfl
    · exact Or.inl ⟨state, PublishedState.mem_pending_eraseIdx hemission hstate hne, hdown⟩
  · exact absurd ((huntaken (hinv.switching hset)).symm.trans hlost) nofun

/-- One prompt step keeps the invariant. -/
theorem Inv.step (hinv : Inv b) {a : Action} (hprompt : Prompt b a)
    (hstep : step b a = some after) : Inv after := by
  cases a with
  | networkInfo row => cases hstep; exact hinv.of_same rfl rfl rfl rfl rfl
  | facts facts => cases hstep; exact hinv.of_same rfl rfl rfl rfl rfl
  | activate => cases hstep; exact hinv.of_same rfl rfl rfl rfl rfl
  | connect protocolInformation => cases hstep; exact hinv.of_same rfl rfl rfl rfl rfl
  | deactivate => cases hstep; exact hinv.of_same rfl rfl rfl rfl rfl
  | observe =>
    obtain ⟨-, ⟨⟩⟩ := Option.ite_none_right_eq_some.mp hstep
    exact (hinv.observe b.networkInfo).of_same rfl rfl rfl rfl rfl
  | act =>
    obtain ⟨decision, hdecision, rfl⟩ := Option.map_eq_some_iff.mp hstep
    exact hinv.act fun hswitch ↦ hprompt (hswitch ▸ hdecision)
  | collect =>
    obtain ⟨-, ⟨⟩⟩ := Option.ite_none_left_eq_some.mp hstep
    exact hinv.collect
  | connectAsync =>
    cases hstep
    exact .of_cleared (hinv.cleared_of_cancel hprompt) hinv.heard
  | begin isLicenceSuspended activeBackend =>
    obtain ⟨-, hbegin⟩ := Option.ite_none_right_eq_some.mp hstep
    exact hinv.begin hprompt hbegin
  | tearDown =>
    obtain ⟨-, ⟨⟩⟩ := Option.ite_none_right_eq_some.mp hstep
    exact hinv.tearDown
  | build =>
    obtain ⟨hjob, ⟨⟩⟩ := Option.ite_none_right_eq_some.mp hstep
    refine .of_cleared (hinv.cleared ?_ ?_ fun hswitching _ ↦ hprompt hswitching) hinv.heard
    · rw [hjob]
      nofun
    · rw [hjob]
      nofun
  | fail =>
    obtain ⟨hjob, ⟨⟩⟩ := Option.ite_none_right_eq_some.mp hstep
    have hcleared : Inv { b with connectJob := none, switching := false } :=
      .of_cleared (hinv.cleared_of_building hjob) hinv.heard
    unfold VpnBackend.publishDisconnected
    split_ifs
    · exact hcleared
    · exact hcleared.setState _ _
  | launch =>
    obtain ⟨hjob, ⟨⟩⟩ := Option.ite_none_right_eq_some.mp hstep
    exact .of_cleared (hinv.cleared_of_building hjob) hinv.heard
  | cancel =>
    cases hstep
    exact .of_cleared (hinv.cleared_of_cancel hprompt) hinv.heard
  | setState state force =>
    cases hstep
    exact hinv.setState state force
  | compare i =>
    obtain ⟨flow, hcompare, rfl⟩ := Option.map_eq_some_iff.mp hstep
    exact hinv.compare hcompare
  | publish i =>
    obtain ⟨flow, hpublish, rfl⟩ := Option.map_eq_some_iff.mp hstep
    have hpublished := hinv.publish hpublish hprompt
    split_ifs with hsession
    · refine .of_cleared (hinv.cleared_of_cancel fun _ ↦ Or.inl hsession.1) hinv.heard
    · exact hpublished

/-- In every run whose switches wait until their `Disconnected` is taken, the guard keeps its
promise. -/
theorem heard_of_prompt {networkInfo : Option NetworkInfo} {facts : PolicyInput}
    (hreach : Reaches NetworkChangeGuard.step Prompt (VpnBackend.initial networkInfo facts) b) :
    Heard b := by
  have hinv : Inv b := by
    refine hreach.invariant Inv ?_ (.of_cleared rfl rfl)
    exact fun _ _ _ hx hprompt hstep ↦ hx.step hprompt hstep
  exact ⟨hinv.switching, hinv.heard⟩

end Run

/-! ### A network with a preferred protocol -/

/-- Auto-Connect is off, and the account is fine. -/
def sampleFacts : PolicyInput where
  isAutoSecureOn := none
  isNetworkStoodDown := false
  isNetworkOptedIn := false
  autoConnect := false
  globalUserConnectionPreference := true
  accountStatus := some .okay
  status := .disconnected
  serviceMode := none
  canReadNetworkName := true

/-- A network that is to be secured, with a preferred protocol. -/
def sampleNetwork : NetworkInfo where
  networkName := "office"
  isAutoSecureOn := true
  isPreferredOn := true
  protocol := some "ikev2"
  port := some "500"

/-- A session over WireGuard comes up, and the network with the preferred protocol arrives. -/
def sampleSession : List Action :=
  [.activate, .connect { protocol := "wg", port := "443" },
    .setState { status := .connected } false, .compare 0, .publish 0,
    .networkInfo (some sampleNetwork)]

/-- The switch tears the session down, and its `Disconnected` clears the flag. -/
theorem heard_of_prompt_switch :
    ∃ b, Heard b ∧ b.switching = true ∧ b.isHandlingNetworkChange = false ∧
      b.connectJob = some .building := by
  obtain ⟨b, hreach, hcheck⟩ := exists_reaches_of_run step Prompt
    (VpnBackend.initial none sampleFacts)
    (sampleSession ++ [.observe, .act, .begin false true, .tearDown, .compare 0, .publish 0,
      .collect, .build])
    (fun b ↦ b.switching = true ∧ b.isHandlingNetworkChange = false ∧
      b.connectJob = some .building) (by decide)
  exact ⟨b, heard_of_prompt hreach, of_decide_eq_true hcheck⟩

/-- The licence is suspended: the connect of the switch returns at once, the session goes on, and
the next change of the network is dropped. -/
theorem not_heard_suspended :
    ¬ ∀ (networkInfo : Option NetworkInfo) (facts : PolicyInput) (b : VpnBackend),
      Reaches step Always (VpnBackend.initial networkInfo facts) b → Heard b := by
  intro hpromise
  obtain ⟨b, hreach, hcheck⟩ := exists_reaches_of_run step Always
    (VpnBackend.initial none sampleFacts)
    (sampleSession ++ [.observe, .act, .begin true true, .networkInfo none, .observe])
    (fun b ↦ b.ignored) (by decide)
  have hheard := (hpromise none sampleFacts b hreach).heard
  rw [hcheck] at hheard
  cases hheard

/-- The session ends between the observer's verdict and the flag: the collector has taken its
`Disconnected` by then. The connect of the switch finds nothing to disconnect, and the flag is still
set in the session it brings up. -/
theorem not_heard_late :
    ¬ ∀ (networkInfo : Option NetworkInfo) (facts : PolicyInput) (b : VpnBackend),
      Reaches step Always (VpnBackend.initial networkInfo facts) b → Heard b := by
  intro hpromise
  obtain ⟨b, hreach, hcheck⟩ := exists_reaches_of_run step Always
    (VpnBackend.initial none sampleFacts)
    (sampleSession ++ [.observe, .deactivate, .setState { status := .disconnected } true,
      .compare 0, .publish 0, .collect, .act, .begin false false, .build, .launch, .activate,
      .connect { protocol := "ikev2", port := "500" }, .compare 0, .publish 0,
      .setState { status := .connected } false, .compare 0, .publish 0, .observe])
    (fun b ↦ b.ignored) (by decide)
  have hheard := (hpromise none sampleFacts b hreach).heard
  rw [hcheck] at hheard
  cases hheard

end WindscribeVpn.Backend.NetworkChangeGuard
