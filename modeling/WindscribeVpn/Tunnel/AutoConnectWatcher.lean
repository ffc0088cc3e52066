import WindscribeVpn.Foundations.Runs
import WindscribeVpn.State.ConnectionPolicy
import WindscribeVpn.State.NetworkInfoManager

/-!
# `AutoConnectWatcher`

Two collectors evaluate the policy: one takes the network row, the other the connectivity, each
whenever its flow has another value. A collector that comes to a connect calls `connectAsync`, which
cancels the connect in `connectJob` and launches another; that one publishes `Connecting` through a
coroutine of `setState`. Until it has emitted, the published state is `Disconnected`, and the policy
goes on asking for a connect.

`AtMostOnce` is the promise: from the moment the policy asks for a connect to the moment the
published state leaves `Disconnected` at most one is issued, and none is cancelled for another.
`not_atMostOnce_both` is a run that breaks it: both collectors react to a network that arrives.
`Sequenced` is the condition that no collector evaluates such a policy while a connect is on its way
and that the connect on its way is published, and `atMostOnce_of_sequenced` proves the promise for
every run whose steps all meet it.
-/

set_option autoImplicit false
set_option relaxedAutoImplicit false

namespace WindscribeVpn.Tunnel.AutoConnectWatcher

open Backend Foundations.Runs State.ConnectionPolicy
open State.NetworkInfoManager (NetworkInfo)

/-! ### The watcher -/

/-- The two collectors of the watcher. -/
inductive Collector
  | networkInfo
  | isOnline
  deriving DecidableEq, Repr

/-- What an evaluation comes to. -/
inductive Decision
  | connect
  | disconnect
  | nothing
  deriving DecidableEq, Repr

/-- How far the connect in `connectJob` has come. -/
inductive Job
  /-- Its coroutine is launched. -/
  | launched
  /-- It has called `setState` with `Connecting`. -/
  | begun
  deriving DecidableEq, Repr

/-- The watcher with what it reads and what it starts. `networkInfo`, `isOnline`, `status` and
`serviceMode` are the values of flows, `facts` what else the policy reads, and `publications` the
coroutines of `setState` that have not emitted. A collector keeps the last value it took, and what
its evaluation came to until it has acted on it. `issued` counts the connects issued since the
policy asked for one, and `tornDown` records one that was cancelled for another; the code reads
neither. -/
structure Watcher where
  networkInfo : Option NetworkInfo
  isOnline : Bool
  facts : PolicyInput
  status : Status
  serviceMode : Option ServiceMode
  lastNetworkName : Option String
  collectedNetwork : Option (Option NetworkInfo)
  collectedOnline : Bool
  decision : Collector → Option Decision
  connectJob : Option Job
  publications : List Status
  issued : ℕ
  tornDown : Bool

namespace Watcher

/-- The watcher when it starts. The first value of the connectivity is dropped. -/
def initial (networkInfo : Option NetworkInfo) (isOnline : Bool) (facts : PolicyInput)
    (serviceMode : Option ServiceMode) : Watcher where
  networkInfo := networkInfo
  isOnline := isOnline
  facts := facts
  status := .disconnected
  serviceMode := serviceMode
  lastNetworkName := none
  collectedNetwork := none
  collectedOnline := isOnline
  decision := fun _ ↦ none
  connectJob := none
  publications := []
  issued := 0
  tornDown := false

variable (w : Watcher)

/-- `ConnectionPolicyInputs.from`. -/
def input (networkInfo : Option NetworkInfo) : PolicyInput :=
  NetworkInfo.policyInput networkInfo
    { w.facts with status := w.status, serviceMode := w.serviceMode, isOnline := w.isOnline }

/-- The policy asks for a connect. -/
def eligible : Bool := shouldAutoConnect (w.input w.networkInfo)

/-- `setServiceMode`. -/
def setServiceMode (serviceMode : Option ServiceMode) : Watcher := { w with serviceMode }

/-- `clearStaleModeOnNewNetwork`. -/
def clearStaleModeOnNewNetwork (networkName : Option String) : Watcher :=
  match networkName with
  | none => w
  | some name =>
    let w := if w.serviceMode = some .noNetwork then w.setServiceMode none else w
    if w.lastNetworkName = some name then w
    else
      let w := { w with lastNetworkName := some name }
      match w.serviceMode with
      | some (.failed _) => w.setServiceMode none
      | _ => w

/-- What `onNetworkChanged` decides for a row. -/
def verdict (networkInfo : Option NetworkInfo) : Decision :=
  if shouldAutoConnect (w.input networkInfo) then .connect
  else if shouldAutoDisconnect (w.input networkInfo) then .disconnect
  else .nothing

/-- The evaluation of `onNetworkChanged`, in one of the collectors. -/
def onNetworkChanged (collector : Collector) (networkInfo : Option NetworkInfo) : Watcher :=
  let w := w.clearStaleModeOnNewNetwork (networkInfo.map NetworkInfo.networkName)
  { w with decision := Function.update w.decision collector (some (w.verdict networkInfo)) }

/-- A collector is done with its evaluation. -/
def done (collector : Collector) : Watcher :=
  { w with decision := Function.update w.decision collector none }

/-- `connectAsync`, called by the watcher. -/
def connectAsync : Watcher :=
  { w with
    connectJob := some .launched
    issued := w.issued + 1
    tornDown := w.tornDown || (w.issued != 0 && w.connectJob.isSome) }

/-- `setState`, up to its coroutine. -/
def setState (status : Status) : Watcher :=
  { w with
    serviceMode := if status = .disconnected then w.serviceMode else none
    publications := w.publications ++ [status] }

end Watcher

/-- A step of one party. -/
inductive Action
  /-- `NetworkInfoManager` publishes a row. -/
  | networkInfo (row : Option NetworkInfo)
  /-- `DeviceStateManager` publishes the connectivity. -/
  | isOnline (online : Bool)
  /-- Something else that the policy reads changes. -/
  | facts (facts : PolicyInput)
  | setServiceMode (serviceMode : Option ServiceMode)
  /-- A collector takes the value of its flow and evaluates the policy. -/
  | take (collector : Collector)
  /-- A collector acts on its evaluation. -/
  | act (collector : Collector)
  /-- Another caller of `connectAsync`. -/
  | connectAsync
  /-- The launched connect begins. With a suspended licence it ends at once. -/
  | begin (isLicenceSuspended : Bool)
  /-- The connect in `connectJob` has ended. -/
  | finish
  /-- A disconnect cancels the connect in `connectJob`. -/
  | cancel
  /-- A connect, a backend or the service calls `setState`. -/
  | setState (status : Status)
  /-- A coroutine of `setState` emits. -/
  | publish (i : ℕ)
  deriving DecidableEq, Repr

/-- What a step does, or nothing when it cannot be taken now. -/
def move (w : Watcher) : Action → Option Watcher
  | .networkInfo row => some { w with networkInfo := row }
  | .isOnline online => some { w with isOnline := online }
  | .facts facts => some { w with facts }
  | .setServiceMode serviceMode => some (w.setServiceMode serviceMode)
  | .take .networkInfo =>
    if w.decision .networkInfo ≠ none ∨ w.collectedNetwork = some w.networkInfo then none
    else
      some { w.onNetworkChanged .networkInfo w.networkInfo with
        collectedNetwork := some w.networkInfo }
  | .take .isOnline =>
    if w.decision .isOnline ≠ none ∨ w.collectedOnline = w.isOnline then none
    else
      let evaluated := if w.isOnline then w.onNetworkChanged .isOnline w.networkInfo else w
      some { evaluated with collectedOnline := w.isOnline }
  | .act collector =>
    (w.decision collector).map fun decision ↦
      if decision = .connect then (w.done collector).connectAsync else w.done collector
  | .connectAsync => some { w with connectJob := some .launched }
  | .begin isLicenceSuspended =>
    if w.connectJob = some .launched then
      if isLicenceSuspended then some { w with connectJob := none }
      else some ({ w with connectJob := some .begun }.setState .connecting)
    else none
  | .finish => if w.connectJob = some .begun then some { w with connectJob := none } else none
  | .cancel => some { w with connectJob := none }
  | .setState status => some (w.setState status)
  | .publish i =>
    (w.publications[i]?).map fun status ↦
      { w with status, publications := w.publications.eraseIdx i }

/-- A new count begins when the published state leaves `Disconnected` and when the policy comes to
ask for a connect. -/
def Watcher.settle (before after : Watcher) : Watcher :=
  if after.status ≠ .disconnected ∨ (before.eligible = false ∧ after.eligible = true) then
    { after with issued := 0 }
  else after

/-- One step, or nothing when it cannot be taken now. -/
def step (w : Watcher) (a : Action) : Option Watcher := (move w a).map w.settle

/-! ### The promise -/

/-- What is promised of one arrival of a network. -/
structure AtMostOnce (w : Watcher) : Prop where
  once : w.issued ≤ 1
  kept : w.tornDown = false

/-- A connect is on its way to be published. -/
def Watcher.OnItsWay (w : Watcher) : Prop :=
  w.connectJob = some .launched ∨ .connecting ∈ w.publications

/-- The steps at which the two collectors do not both come to a connect. -/
def Sequenced (w : Watcher) : Action → Prop
  /- A collector evaluates a policy that asks for a connect only while none is on its way and the
  other collector has not come to one. -/
  | .take _ =>
    (w.clearStaleModeOnNewNetwork (w.networkInfo.map NetworkInfo.networkName)).eligible = true →
      ¬ w.OnItsWay ∧ w.decision .networkInfo ≠ some .connect ∧ w.decision .isOnline ≠ some .connect
  /- While the policy asks for a connect, the launched one is neither refused nor cancelled. -/
  | .begin isLicenceSuspended => isLicenceSuspended = true → w.eligible = false
  | .cancel => w.connectJob = some .launched → w.eligible = false
  | .networkInfo _ | .isOnline _ | .facts _ | .setServiceMode _ | .act _ | .connectAsync | .finish
  | .setState _ | .publish _ => True

instance decidableOnItsWay (w : Watcher) : Decidable w.OnItsWay :=
  inferInstanceAs (Decidable (_ ∨ _))

instance decidableSequenced (w : Watcher) : (a : Action) → Decidable (Sequenced w a)
  | .take _ => inferInstanceAs (Decidable (_ → ¬ w.OnItsWay ∧ _ ≠ _ ∧ _ ≠ _))
  | .begin _ => inferInstanceAs (Decidable (_ → _))
  | .cancel => inferInstanceAs (Decidable (_ → _))
  | .networkInfo _ | .isOnline _ | .facts _ | .setServiceMode _ | .act _ | .connectAsync | .finish
  | .setState _ | .publish _ => inferInstanceAs (Decidable True)

/-! ### What a run keeps -/

section Run

variable {w after : Watcher}

/-- The invariant of the runs. -/
structure Inv (w : Watcher) : Prop where
  pending : ∀ collector, w.decision collector = some .connect →
    w.issued = 0 ∧ ∀ other, other ≠ collector → w.decision other ≠ some .connect
  onItsWay : w.issued ≠ 0 → w.eligible = true → w.OnItsWay
  once : w.issued ≤ 1
  kept : w.tornDown = false

/-- A new count keeps the invariant. A count that goes on needs the connect that was issued only
while the policy asked for one before. -/
theorem Inv.settle
    (hpending : ∀ collector, after.decision collector = some .connect →
      after.issued = 0 ∧ ∀ other, other ≠ collector → after.decision other ≠ some .connect)
    (hway : after.issued ≠ 0 → w.eligible = true → after.status = .disconnected → after.OnItsWay)
    (honce : after.issued ≤ 1) (hkept : after.tornDown = false) : Inv (w.settle after) := by
  rw [Watcher.settle]
  split_ifs with hnew
  · exact ⟨fun collector hconnect ↦ ⟨rfl, (hpending collector hconnect).2⟩,
      fun hissued ↦ absurd rfl hissued, Nat.zero_le _, hkept⟩
  · rw [not_or, not_not, not_and] at hnew
    obtain ⟨hstatus, hrise⟩ := hnew
    refine ⟨hpending, fun hissued heligible ↦ hway hissued ?_ hstatus, honce, hkept⟩
    by_contra hbefore
    exact hrise (Bool.not_eq_true _ ▸ hbefore) heligible

/-- A step that leaves the decisions and the count. -/
theorem Inv.of_same (hinv : Inv w) (hdecision : after.decision = w.decision)
    (hissued : after.issued = w.issued) (htorn : after.tornDown = w.tornDown)
    (hway : w.eligible = true → w.OnItsWay → after.status = .disconnected → after.OnItsWay) :
    Inv (w.settle after) := by
  refine Inv.settle ?_ (fun hsome heligible hstatus ↦ ?_) ?_ ?_
  · rw [hdecision, hissued]
    exact hinv.pending
  · exact hway heligible (hinv.onItsWay (hissued ▸ hsome) heligible) hstatus
  · rw [hissued]
    exact hinv.once
  · rw [htorn]
    exact hinv.kept

/-- Only the mode and the name of the last network change. -/
theorem clearStaleModeOnNewNetwork_eq (w : Watcher) (networkName : Option String) :
    ∃ serviceMode lastNetworkName, w.clearStaleModeOnNewNetwork networkName =
      { w with serviceMode, lastNetworkName } := by
  unfold Watcher.clearStaleModeOnNewNetwork
  rcases networkName with _ | name
  · exact ⟨_, _, rfl⟩
  · simp only
    split_ifs
    · exact ⟨_, _, rfl⟩
    · split <;> exact ⟨_, _, rfl⟩
    · exact ⟨_, _, rfl⟩
    · split <;> exact ⟨_, _, rfl⟩

/-- An evaluation changes the decision of its collector only. -/
theorem decision_onNetworkChanged (w : Watcher) (collector : Collector) :
    (w.onNetworkChanged collector w.networkInfo).decision =
      Function.update w.decision collector (some ((w.clearStaleModeOnNewNetwork
        (w.networkInfo.map NetworkInfo.networkName)).verdict w.networkInfo)) := by
  obtain ⟨serviceMode, lastNetworkName, hclear⟩ :=
    clearStaleModeOnNewNetwork_eq w (w.networkInfo.map NetworkInfo.networkName)
  rw [Watcher.onNetworkChanged, hclear]

/-- The evaluation comes to a connect exactly when the policy asks for one. -/
theorem verdict_eq_connect (w : Watcher) :
    w.verdict w.networkInfo = .connect ↔ w.eligible = true := by
  rw [Watcher.verdict, Watcher.eligible]
  split_ifs with hconnect
  · exact iff_of_true rfl hconnect
  · exact iff_of_false nofun hconnect
  · exact iff_of_false nofun hconnect

/-- A collector evaluates the policy. -/
theorem Inv.take (hinv : Inv w) {collector : Collector}
    (hsequenced : (w.clearStaleModeOnNewNetwork
      (w.networkInfo.map NetworkInfo.networkName)).eligible = true →
        ¬ w.OnItsWay ∧ w.decision .networkInfo ≠ some .connect ∧
          w.decision .isOnline ≠ some .connect)
    (hdecision : after.decision = (w.onNetworkChanged collector w.networkInfo).decision)
    (hissued : after.issued = w.issued) (htorn : after.tornDown = w.tornDown)
    (hway : w.OnItsWay → after.OnItsWay)
    (heligible : after.eligible = (w.clearStaleModeOnNewNetwork
      (w.networkInfo.map NetworkInfo.networkName)).eligible) :
    Inv (w.settle after) := by
  rw [decision_onNetworkChanged] at hdecision
  have hself : after.decision collector = some ((w.clearStaleModeOnNewNetwork
      (w.networkInfo.map NetworkInfo.networkName)).verdict w.networkInfo) := by
    rw [hdecision, Function.update_self]
  have hother : ∀ other, other ≠ collector → after.decision other = w.decision other :=
    fun other hne ↦ by rw [hdecision, Function.update_of_ne hne]
  have hverdict := verdict_eq_connect (w.clearStaleModeOnNewNetwork
    (w.networkInfo.map NetworkInfo.networkName))
  have hrow : (w.clearStaleModeOnNewNetwork
      (w.networkInfo.map NetworkInfo.networkName)).networkInfo = w.networkInfo := by
    obtain ⟨serviceMode, lastNetworkName, hclear⟩ :=
      clearStaleModeOnNewNetwork_eq w (w.networkInfo.map NetworkInfo.networkName)
    rw [hclear]
  rw [hrow, ← heligible] at hverdict
  rw [← heligible] at hsequenced
  by_cases hasks : after.eligible = true
  · -- No connect was decided or is on its way, so the count is 0, or a new one begins.
    obtain ⟨hidle, hnetworkInfo, hisOnline⟩ := hsequenced hasks
    have hnone : ∀ other, other ≠ collector → after.decision other ≠ some .connect := by
      intro other hne
      rw [hother other hne]
      cases other with
      | networkInfo => exact hnetworkInfo
      | isOnline => exact hisOnline
    have honly : ∀ collector', after.decision collector' = some .connect →
        ∀ other, other ≠ collector' → after.decision other ≠ some .connect := by
      intro collector' hconnect
      have hsame : collector' = collector := by
        by_contra hne
        exact hnone collector' hne hconnect
      rw [hsame]
      exact hnone
    by_cases hbefore : w.eligible = true
    · have hzero : after.issued = 0 := by
        rw [hissued]
        by_contra hsome
        exact hidle (hinv.onItsWay hsome hbefore)
      exact Inv.settle (fun collector' hconnect ↦ ⟨hzero, honly collector' hconnect⟩)
        (fun hsome ↦ absurd hzero hsome) (hzero ▸ Nat.zero_le 1) (htorn ▸ hinv.kept)
    · rw [Watcher.settle, if_pos (Or.inr ⟨Bool.not_eq_true _ ▸ hbefore, hasks⟩)]
      exact ⟨fun collector' hconnect ↦ ⟨rfl, honly collector' hconnect⟩,
        fun hsome ↦ absurd rfl hsome, Nat.zero_le 1, htorn ▸ hinv.kept⟩
  · refine Inv.settle (fun collector' hconnect ↦ ?_) (fun hsome hbefore _ ↦ ?_)
      (hissued ▸ hinv.once) (htorn ▸ hinv.kept)
    · have hne : collector' ≠ collector := by
        rintro rfl
        rw [hself, Option.some.injEq] at hconnect
        exact hasks (hverdict.mp hconnect)
      rw [hother collector' hne] at hconnect
      obtain ⟨hzero, honly⟩ := hinv.pending collector' hconnect
      refine ⟨hissued.trans hzero, fun other hother' ↦ ?_⟩
      by_cases hcollector : other = collector
      · rw [hcollector, hself, ne_eq, Option.some.injEq, hverdict]
        exact hasks
      · rw [hother other hcollector]
        exact honly other hother'
    · exact hway (hinv.onItsWay (hissued ▸ hsome) hbefore)

/-- A collector that is done has no decision, and the other one keeps its own. -/
theorem decision_done {w : Watcher} {collector other : Collector}
    (hconnect : (w.done collector).decision other = some .connect) :
    other ≠ collector ∧ w.decision other = some .connect := by
  have hupdate : Function.update w.decision collector none other = some .connect := hconnect
  by_cases hsame : other = collector
  · rw [hsame, Function.update_self] at hupdate
    cases hupdate
  · rw [Function.update_of_ne hsame] at hupdate
    exact ⟨hsame, hupdate⟩

/-- A collector acts on its evaluation. -/
theorem Inv.act (hinv : Inv w) {collector : Collector}
    (hstep : move w (.act collector) = some after) : Inv (w.settle after) := by
  obtain ⟨decision, hdecision, rfl⟩ := Option.map_eq_some_iff.mp hstep
  split_ifs with hconnect
  · rw [hconnect] at hdecision
    obtain ⟨hzero, honly⟩ := hinv.pending collector hdecision
    have hissued : ((w.done collector).connectAsync).issued = w.issued + 1 := rfl
    refine Inv.settle (fun other hother ↦ ?_) (fun _ _ _ ↦ Or.inl rfl) ?_ ?_
    · obtain ⟨hne, hother⟩ := decision_done hother
      exact absurd hother (honly other hne)
    · rw [hissued, hzero]
    · have htorn : ((w.done collector).connectAsync).tornDown =
          (w.tornDown || (w.issued != 0 && w.connectJob.isSome)) := rfl
      rw [htorn, hinv.kept, hzero]
      rfl
  · refine Inv.settle (fun other hother ↦ ?_) (fun hsome hbefore _ ↦ ?_) hinv.once hinv.kept
    · obtain ⟨-, hother⟩ := decision_done hother
      obtain ⟨hzero, honly⟩ := hinv.pending other hother
      exact ⟨hzero, fun third hne hthird ↦ honly third hne (decision_done hthird).2⟩
    · exact hinv.onItsWay hsome hbefore

/-- A publication that is not `Connecting` leaves those that are. -/
theorem connecting_mem_eraseIdx {publications : List Status} {i : ℕ} {status : Status}
    (hi : publications[i]? = some status) (hstatus : status ≠ .connecting)
    (hmem : .connecting ∈ publications) : .connecting ∈ publications.eraseIdx i := by
  obtain ⟨j, hj⟩ := List.getElem?_of_mem hmem
  refine List.mem_eraseIdx_iff_getElem?.mpr ⟨j, ?_, hj⟩
  rintro rfl
  rw [hi, Option.some.injEq] at hj
  exact hstatus hj

/-- One step keeps the invariant. -/
theorem Inv.step {a : Action} (hinv : Inv w) (hsequenced : Sequenced w a)
    (hstep : step w a = some after) : Inv after := by
  obtain ⟨moved, hmove, rfl⟩ := Option.map_eq_some_iff.mp hstep
  cases a with
  | networkInfo row =>
    obtain rfl := Option.some.inj hmove
    exact hinv.of_same rfl rfl rfl fun _ hway _ ↦ hway
  | isOnline online =>
    obtain rfl := Option.some.inj hmove
    exact hinv.of_same rfl rfl rfl fun _ hway _ ↦ hway
  | facts facts =>
    obtain rfl := Option.some.inj hmove
    exact hinv.of_same rfl rfl rfl fun _ hway _ ↦ hway
  | setServiceMode serviceMode =>
    obtain rfl := Option.some.inj hmove
    exact hinv.of_same rfl rfl rfl fun _ hway _ ↦ hway
  | take collector =>
    obtain ⟨serviceMode, lastNetworkName, hclear⟩ :=
      clearStaleModeOnNewNetwork_eq w (w.networkInfo.map NetworkInfo.networkName)
    have hcleared : ∀ collector, w.onNetworkChanged collector w.networkInfo =
        { w with
          serviceMode, lastNetworkName
          decision := (w.onNetworkChanged collector w.networkInfo).decision } := by
      intro collector
      rw [Watcher.onNetworkChanged, hclear]
    cases collector with
    | networkInfo =>
      simp only [move] at hmove
      split_ifs at hmove
      obtain rfl := Option.some.inj hmove
      refine hinv.take hsequenced rfl ?_ ?_ ?_ ?_ <;> rw [hcleared]
      · exact fun hway ↦ hway
      · rw [hclear]
        rfl
    | isOnline =>
      simp only [move] at hmove
      split_ifs at hmove
      · obtain rfl := Option.some.inj hmove
        refine hinv.take hsequenced rfl ?_ ?_ ?_ ?_ <;> rw [hcleared]
        · exact fun hway ↦ hway
        · rw [hclear]
          rfl
      · obtain rfl := Option.some.inj hmove
        exact hinv.of_same rfl rfl rfl fun _ hway _ ↦ hway
  | act collector => exact hinv.act hmove
  | connectAsync =>
    obtain rfl := Option.some.inj hmove
    exact hinv.of_same rfl rfl rfl fun _ _ _ ↦ Or.inl rfl
  | begin isLicenceSuspended =>
    simp only [move] at hmove
    split_ifs at hmove with hlaunched hsuspended
    · obtain rfl := Option.some.inj hmove
      refine hinv.of_same rfl rfl rfl fun hbefore _ _ ↦ ?_
      rw [hsequenced hsuspended] at hbefore
      cases hbefore
    · obtain rfl := Option.some.inj hmove
      refine hinv.of_same rfl rfl rfl fun _ _ _ ↦ Or.inr ?_
      exact List.mem_append_right _ List.mem_cons_self
  | finish =>
    simp only [move] at hmove
    split_ifs at hmove with hbegun
    obtain rfl := Option.some.inj hmove
    refine hinv.of_same rfl rfl rfl fun _ hway _ ↦ hway.imp_left fun hlaunched ↦ ?_
    rw [hbegun] at hlaunched
    cases hlaunched
  | cancel =>
    obtain rfl := Option.some.inj hmove
    refine hinv.of_same rfl rfl rfl fun hbefore hway _ ↦ hway.imp_left fun hlaunched ↦ ?_
    rw [hsequenced hlaunched] at hbefore
    cases hbefore
  | setState status =>
    obtain rfl := Option.some.inj hmove
    refine hinv.of_same rfl rfl rfl fun _ hway _ ↦ hway.imp_right fun hmem ↦ ?_
    exact List.mem_append_left _ hmem
  | publish i =>
    obtain ⟨status, hi, rfl⟩ := Option.map_eq_some_iff.mp hmove
    refine hinv.of_same rfl rfl rfl fun _ hway hstatus ↦ hway.imp_right fun hmem ↦ ?_
    refine connecting_mem_eraseIdx hi ?_ hmem
    rintro rfl
    cases hstatus

/-- An arrival causes at most one connect in a run whose steps are all sequenced. -/
theorem atMostOnce_of_sequenced {networkInfo : Option NetworkInfo} {isOnline : Bool}
    {facts : PolicyInput} {serviceMode : Option ServiceMode}
    (hreach : Reaches step Sequenced (Watcher.initial networkInfo isOnline facts serviceMode) w) :
    AtMostOnce w := by
  have hinv : Inv w := by
    refine hreach.invariant Inv ?_ ⟨nofun, fun hissued ↦ absurd rfl hissued, Nat.zero_le 1, rfl⟩
    exact fun _ _ _ hx hsequenced hstep ↦ hx.step hsequenced hstep
  exact ⟨hinv.once, hinv.kept⟩

end Run

/-! ### A network that arrives -/

/-- Auto-Connect is on, and the account is fine. -/
def sampleFacts : PolicyInput where
  isAutoSecureOn := none
  isNetworkStoodDown := false
  isNetworkOptedIn := false
  autoConnect := true
  globalUserConnectionPreference := true
  accountStatus := some .okay
  status := .disconnected
  serviceMode := none
  canReadNetworkName := true

/-- A network that is to be secured. -/
def sampleNetwork : NetworkInfo where
  networkName := "home"
  isAutoSecureOn := true
  isPreferredOn := false
  protocol := some "wg"
  port := some "443"

/-- The collector of the network row issues a connect, and the other one has not evaluated the
policy yet. -/
theorem atMostOnce_of_sequenced_arrival :
    ∃ w, AtMostOnce w ∧ w.issued = 1 ∧ w.collectedOnline ≠ w.isOnline := by
  obtain ⟨w, hreach, hcheck⟩ := exists_reaches_of_run step Sequenced
    (Watcher.initial none false sampleFacts none)
    [.take .networkInfo, .act .networkInfo, .networkInfo (some sampleNetwork), .isOnline true,
      .take .networkInfo, .act .networkInfo, .begin false]
    (fun w ↦ w.issued = 1 ∧ w.collectedOnline ≠ w.isOnline) (by decide)
  exact ⟨w, atMostOnce_of_sequenced hreach, of_decide_eq_true hcheck⟩

/-- The network row and the connectivity of a network that arrives are both published before a
collector takes either. Each collector issues a connect, and the second cancels the first. -/
theorem not_atMostOnce_both :
    ¬ ∀ (networkInfo : Option NetworkInfo) (isOnline : Bool) (facts : PolicyInput)
        (serviceMode : Option ServiceMode) (w : Watcher),
      Reaches step Always (Watcher.initial networkInfo isOnline facts serviceMode) w →
        AtMostOnce w := by
  intro hpromise
  obtain ⟨w, hreach, hcheck⟩ := exists_reaches_of_run step Always
    (Watcher.initial none false sampleFacts none)
    [.take .networkInfo, .act .networkInfo, .networkInfo (some sampleNetwork), .isOnline true,
      .take .networkInfo, .act .networkInfo, .take .isOnline, .act .isOnline]
    (fun w ↦ w.tornDown) (by decide)
  have hkept := (hpromise none false sampleFacts none w hreach).kept
  rw [hcheck] at hkept
  cases hkept

end WindscribeVpn.Tunnel.AutoConnectWatcher
