import WindscribeVpn.Foundations.Runs
import WindscribeVpn.State.ConnectionPolicy
import WindscribeVpn.State.UnderlyingNetwork

/-!
# Standing a network down

A user who disconnects stands the network down: auto-connect leaves it alone until the device has
left it. `DeviceStateManager.kt` records this by the name of the network or, when it has none, by a
flag, and drops the record when a re-evaluation of the network sees a change.

`Standing` says what the user's last stand-down asks for, by what the re-evaluations since have
seen, and `Lasting` that `isCurrentNetworkWhitelisted` answers accordingly. `not_lasting_offline` is
a run that breaks it: the flag of an unnamed network outlives a loss of connectivity, since nothing
changes in a detail that is missing before and after. A forced re-evaluation breaks it the other
way, since it drops the flag with nothing changed. `Kept` is the condition on a re-evaluation that
it does neither, and `lasting_of_kept` proves the promise for every run whose steps all meet it.
-/

set_option autoImplicit false
set_option relaxedAutoImplicit false

namespace WindscribeVpn.State.StandDown

open ConnectionPolicy UnderlyingNetwork Foundations.Runs

/-- The state of `DeviceStateManager` that concerns the network. -/
structure DeviceState where
  isOnline : Bool := false
  networkDetail : Option NetworkDetail := none
  isCurrentNetworkWhitelisted : Bool := false
  whitelistedNetworkName : Option String := none
  standDownWithoutName : Bool := false
  optedInNetworkName : Option String := none
  isCurrentNetworkOptedIn : Bool := false
  deriving DecidableEq, Repr

variable (d : DeviceState)

/-- `getCurrentNetworkName`. -/
def DeviceState.getCurrentNetworkName : Option String := d.networkDetail.map NetworkDetail.name

/-- A detail is of the network that a decision was made on. -/
def namedAs (detail : Option NetworkDetail) (decided : Option String) : Bool :=
  detail.any fun current ↦ some current.name = decided

/-- `updateWhitelistedNetworkState`. -/
def DeviceState.updateWhitelistedNetworkState (detail : Option NetworkDetail) : DeviceState :=
  { d with isCurrentNetworkWhitelisted :=
      d.standDownWithoutName || namedAs detail d.whitelistedNetworkName }

/-- `updateOptedInNetworkState`. -/
def DeviceState.updateOptedInNetworkState (detail : Option NetworkDetail) : DeviceState :=
  { d with isCurrentNetworkOptedIn := namedAs detail d.optedInNetworkName }

/-- `setWhitelistedNetwork`. -/
def DeviceState.setWhitelistedNetwork (networkName : Option String) : DeviceState :=
  DeviceState.updateWhitelistedNetworkState
    { d with
      whitelistedNetworkName := networkName
      standDownWithoutName := d.standDownWithoutName && networkName.isSome } d.networkDetail

/-- `standDownCurrentNetwork`. -/
def DeviceState.standDownCurrentNetwork : DeviceState :=
  let recorded :=
    match d.getCurrentNetworkName with
    | some networkName => { d with whitelistedNetworkName := some networkName }
    | none => { d with standDownWithoutName := true }
  recorded.updateWhitelistedNetworkState d.networkDetail

/-- `setOptedInNetwork`. -/
def DeviceState.setOptedInNetwork (networkName : Option String) : DeviceState :=
  DeviceState.updateOptedInNetworkState { d with optedInNetworkName := networkName }
    d.networkDetail

/-- The decisions that a re-evaluation drops: those by name under another name, the unnamed one
whenever it emits the detail. -/
def DeviceState.dropDecisions (force : Bool) (detail : Option NetworkDetail) : DeviceState :=
  if force || d.networkDetail ≠ detail then
    let renamed := d.getCurrentNetworkName ≠ detail.map NetworkDetail.name
    { d with
      networkDetail := detail
      whitelistedNetworkName := if renamed then none else d.whitelistedNetworkName
      optedInNetworkName := if renamed then none else d.optedInNetworkName
      standDownWithoutName := false }
  else d

/-- `processNetworkChange`, by what it finds. -/
def DeviceState.processNetworkChange (force online : Bool) (detail : Option NetworkDetail) :
    DeviceState :=
  let decided := DeviceState.dropDecisions { d with isOnline := online } force detail
  (decided.updateWhitelistedNetworkState detail).updateOptedInNetworkState detail

/-! ### What a stand-down asks for -/

/-- What the user's last stand-down asks for. -/
inductive Standing
  /-- There was none. -/
  | never
  /-- Nothing has changed since. -/
  | inForce
  /-- Something has changed that is neither another name nor a loss of connectivity. -/
  | unsettled
  /-- The network was left, or the user connected. -/
  | ended
  deriving DecidableEq, Repr

/-- The network is left, or the user overrules the stand-down. -/
def Standing.ends : Standing → Standing
  | .never => .never
  | .inForce | .unsettled | .ended => .ended

/-- Something else has changed. -/
def Standing.unsettles : Standing → Standing
  | .inForce => .unsettled
  | standing => standing

/-- A re-evaluation sees another name than the last one, or finds connectivity lost. -/
def DeviceState.leaves (online : Bool) (detail : Option NetworkDetail) : Bool :=
  decide (d.getCurrentNetworkName ≠ detail.map NetworkDetail.name) || (d.isOnline && !online)

/-- A re-evaluation sees the same connectivity and the same detail as the last one. -/
def DeviceState.stays (online : Bool) (detail : Option NetworkDetail) : Bool :=
  decide (online = d.isOnline ∧ detail = d.networkDetail)

/-- What is asked for after a re-evaluation. -/
def Standing.afterChange (standing : Standing) (online : Bool) (detail : Option NetworkDetail) :
    Standing :=
  if d.leaves online detail then standing.ends
  else if d.stays online detail then standing
  else standing.unsettles

/-- A device with what its user asks of it. -/
structure Device where
  state : DeviceState := {}
  standing : Standing := .never
  deriving DecidableEq, Repr

/-- A step of the device. -/
inductive Action
  /-- `processNetworkChange`, debounced or forced: what is there when it asks for the connectivity,
  and when it asks for the detail. -/
  | processNetworkChange (force : Bool) (first second : Surroundings)
  /-- A disconnect of the user. -/
  | disconnect
  /-- A connect of the user. -/
  | connect
  /-- `onAutoConnectChanged`, with Auto-Connect on. -/
  | onAutoConnectChanged

/-- One step. -/
def step (x : Device) : Action → Option Device
  | .processNetworkChange force first second =>
    let online := hasUnderlyingConnectivity first
    let detail := getCurrentNetworkDetail second
    some ⟨x.state.processNetworkChange force online detail,
      x.standing.afterChange x.state online detail⟩
  | .disconnect => some ⟨x.state.standDownCurrentNetwork, .inForce⟩
  | .connect =>
    let cleared := x.state.setWhitelistedNetwork none
    some ⟨cleared.setOptedInNetwork cleared.getCurrentNetworkName, x.standing.ends⟩
  | .onAutoConnectChanged => some ⟨x.state.setWhitelistedNetwork none, x.standing.ends⟩

/-- The network is stood down for as long as the user's stand-down asks. -/
def Lasting (x : Device) : Prop :=
  match x.standing with
  | .inForce => x.state.isCurrentNetworkWhitelisted = true
  | .ended => x.state.isCurrentNetworkWhitelisted = false
  | .never | .unsettled => True

/-- A re-evaluation is not forced on an unnamed stand-down with nothing changed, and finds a loss of
connectivity on a network that is stood down only with another name, or forced on an unnamed
one. -/
def Kept (x : Device) : Action → Prop
  | .processNetworkChange force first second =>
    let online := hasUnderlyingConnectivity first
    let detail := getCurrentNetworkDetail second
    (x.state.standDownWithoutName = true → force = true → x.state.stays online detail = false) ∧
      (x.state.isCurrentNetworkWhitelisted = true → x.state.isOnline = true → online = false →
        x.state.getCurrentNetworkName ≠ detail.map NetworkDetail.name ∨
          x.state.standDownWithoutName = true ∧ force = true)
  | .disconnect | .connect | .onAutoConnectChanged => True

instance decidableKept (x : Device) : (a : Action) → Decidable (Kept x a)
  | .processNetworkChange _ _ _ =>
    inferInstanceAs (Decidable ((_ → _ → _) ∧ (_ → _ → _ → _ ∨ _ ∧ _)))
  | .disconnect | .connect | .onAutoConnectChanged => inferInstanceAs (Decidable True)

/-! ### What the state keeps -/

variable {d}

/-- What holds of the records between operations: what is published agrees with them, the unnamed
one is of a network without detail, and the named one of the network of the current name. -/
structure WellFormed (d : DeviceState) : Prop where
  published : d.isCurrentNetworkWhitelisted =
    (d.standDownWithoutName || d.whitelistedNetworkName.isSome)
  unnamed : d.standDownWithoutName = true → d.networkDetail = none
  named : ∀ name, d.whitelistedNetworkName = some name → d.getCurrentNetworkName = some name

theorem namedAs_none (detail : Option NetworkDetail) : namedAs detail none = false := by
  cases detail <;> simp [namedAs]

/-- A record of the current name is found under any detail of that name. -/
theorem namedAs_of_named {detail : Option NetworkDetail} {decided : Option String}
    (hnamed : ∀ name, decided = some name → detail.map NetworkDetail.name = some name) :
    namedAs detail decided = decided.isSome := by
  cases decided with
  | none => exact namedAs_none detail
  | some name =>
    obtain ⟨current, rfl, hname⟩ := Option.map_eq_some_iff.mp (hnamed name rfl)
    simp [namedAs, hname]

/-- Not both records are kept at once. -/
theorem WellFormed.whitelistedNetworkName_of_unnamed (hwell : WellFormed d)
    (hunnamed : d.standDownWithoutName = true) : d.whitelistedNetworkName = none := by
  cases hname : d.whitelistedNetworkName with
  | none => rfl
  | some name =>
    have hcurrent := hwell.named name hname
    rw [DeviceState.getCurrentNetworkName, hwell.unnamed hunnamed] at hcurrent
    cases hcurrent

theorem WellFormed.isCurrentNetworkWhitelisted_eq_false (hwell : WellFormed d) :
    d.isCurrentNetworkWhitelisted = false ↔
      d.standDownWithoutName = false ∧ d.whitelistedNetworkName = none := by
  rw [hwell.published, Bool.or_eq_false_iff, Option.isSome_eq_false_iff, Option.isNone_iff_eq_none]

/-! ### The re-evaluation -/

section ProcessNetworkChange

variable (d) (force online : Bool) (detail : Option NetworkDetail)

/-- The unnamed record is dropped when the re-evaluation is forced or the detail differs, those by
name under another name. -/
theorem dropDecisions_eq :
    d.dropDecisions force detail =
      { d with
        networkDetail := detail
        whitelistedNetworkName :=
          if d.getCurrentNetworkName = detail.map NetworkDetail.name then d.whitelistedNetworkName
          else none
        optedInNetworkName :=
          if d.getCurrentNetworkName = detail.map NetworkDetail.name then d.optedInNetworkName
          else none
        standDownWithoutName :=
          d.standDownWithoutName && !force && decide (d.networkDetail = detail) } := by
  unfold DeviceState.dropDecisions
  by_cases hdetail : d.networkDetail = detail
  · subst hdetail
    cases force <;> simp [DeviceState.getCurrentNetworkName]
  · simp [hdetail]

theorem processNetworkChange_standDownWithoutName :
    (d.processNetworkChange force online detail).standDownWithoutName =
      (d.standDownWithoutName && !force && decide (d.networkDetail = detail)) :=
  congrArg DeviceState.standDownWithoutName
    (dropDecisions_eq { d with isOnline := online } force detail)

theorem processNetworkChange_whitelistedNetworkName :
    (d.processNetworkChange force online detail).whitelistedNetworkName =
      if d.getCurrentNetworkName = detail.map NetworkDetail.name then d.whitelistedNetworkName
      else none :=
  congrArg DeviceState.whitelistedNetworkName
    (dropDecisions_eq { d with isOnline := online } force detail)

theorem processNetworkChange_networkDetail :
    (d.processNetworkChange force online detail).networkDetail = detail :=
  congrArg DeviceState.networkDetail
    (dropDecisions_eq { d with isOnline := online } force detail)

/-- A record by name that a re-evaluation keeps is of the name it sees. -/
theorem processNetworkChange_named (hwell : WellFormed d) (name : String)
    (hname : (d.processNetworkChange force online detail).whitelistedNetworkName = some name) :
    detail.map NetworkDetail.name = some name := by
  rw [processNetworkChange_whitelistedNetworkName] at hname
  split_ifs at hname with hsame
  exact hsame.symm.trans (hwell.named name hname)

theorem processNetworkChange_wellFormed (hwell : WellFormed d) :
    WellFormed (d.processNetworkChange force online detail) where
  published := by
    rw [← namedAs_of_named (processNetworkChange_named d force online detail hwell)]
    rfl
  unnamed hunnamed := by
    rw [processNetworkChange_standDownWithoutName, Bool.and_eq_true, Bool.and_eq_true,
      decide_eq_true_eq] at hunnamed
    rw [processNetworkChange_networkDetail, ← hunnamed.2]
    exact hwell.unnamed hunnamed.1.1
  named name hname := by
    rw [DeviceState.getCurrentNetworkName, processNetworkChange_networkDetail]
    exact processNetworkChange_named d force online detail hwell name hname

/-- What is published after a re-evaluation. -/
theorem processNetworkChange_isCurrentNetworkWhitelisted (hwell : WellFormed d) :
    (d.processNetworkChange force online detail).isCurrentNetworkWhitelisted = false ↔
      (d.standDownWithoutName = true → force = false → d.networkDetail ≠ detail) ∧
        (d.getCurrentNetworkName = detail.map NetworkDetail.name →
          d.whitelistedNetworkName = none) := by
  rw [(processNetworkChange_wellFormed d force online detail
    hwell).isCurrentNetworkWhitelisted_eq_false, processNetworkChange_standDownWithoutName,
    processNetworkChange_whitelistedNetworkName]
  refine and_congr ?_ ?_
  · cases d.standDownWithoutName <;> cases force <;> simp
  · split_ifs with hsame <;> simp [hsame]

end ProcessNetworkChange

/-! ### The user -/

theorem standDownCurrentNetwork_wellFormed (hwell : WellFormed d) :
    WellFormed d.standDownCurrentNetwork ∧
      d.standDownCurrentNetwork.isCurrentNetworkWhitelisted = true := by
  cases hdetail : d.networkDetail with
  | none =>
    have hname : d.getCurrentNetworkName = none := by
      rw [DeviceState.getCurrentNetworkName, hdetail, Option.map_none]
    have hstood : d.standDownCurrentNetwork =
        { d with standDownWithoutName := true, isCurrentNetworkWhitelisted := true } := by
      simp [DeviceState.standDownCurrentNetwork, hname, DeviceState.updateWhitelistedNetworkState]
    rw [hstood]
    exact ⟨⟨rfl, fun _ ↦ hdetail, hwell.named⟩, rfl⟩
  | some detail =>
    have hname : d.getCurrentNetworkName = some detail.name := by
      rw [DeviceState.getCurrentNetworkName, hdetail, Option.map_some]
    have hstood : d.standDownCurrentNetwork =
        { d with
          whitelistedNetworkName := some detail.name, isCurrentNetworkWhitelisted := true } := by
      simp [DeviceState.standDownCurrentNetwork, hname, DeviceState.updateWhitelistedNetworkState,
        hdetail, namedAs]
    rw [hstood]
    refine ⟨⟨by simp, hwell.unnamed, fun name hrecorded ↦ ?_⟩, rfl⟩
    exact hname.trans hrecorded

theorem setWhitelistedNetwork_none_wellFormed :
    WellFormed (d.setWhitelistedNetwork none) ∧
      (d.setWhitelistedNetwork none).isCurrentNetworkWhitelisted = false := by
  have hcleared : d.setWhitelistedNetwork none =
      { d with
        whitelistedNetworkName := none
        standDownWithoutName := false
        isCurrentNetworkWhitelisted := false } := by
    simp [DeviceState.setWhitelistedNetwork, DeviceState.updateWhitelistedNetworkState,
      namedAs_none]
  rw [hcleared]
  exact ⟨⟨rfl, nofun, nofun⟩, rfl⟩

/-- The opt-in does not touch the stand-down. -/
theorem setOptedInNetwork_wellFormed (hwell : WellFormed d) (networkName : Option String) :
    WellFormed (d.setOptedInNetwork networkName) :=
  ⟨hwell.published, hwell.unnamed, hwell.named⟩

/-! ### Runs -/

variable {x y : Device}

/-- A re-evaluation that leaves the network drops the stand-down, if it is kept to the condition. -/
theorem processNetworkChange_leaves {force online : Bool} {detail : Option NetworkDetail}
    (hwell : WellFormed d) (hleaves : d.leaves online detail = true)
    (hlost : d.isCurrentNetworkWhitelisted = true → d.isOnline = true → online = false →
      d.getCurrentNetworkName ≠ detail.map NetworkDetail.name ∨
        d.standDownWithoutName = true ∧ force = true) :
    (d.processNetworkChange force online detail).isCurrentNetworkWhitelisted = false := by
  rw [processNetworkChange_isCurrentNetworkWhitelisted d force online detail hwell]
  by_cases hname : d.getCurrentNetworkName = detail.map NetworkDetail.name
  · simp only [DeviceState.leaves, ne_eq, hname, not_true_eq_false, decide_false, Bool.false_or,
      Bool.and_eq_true, Bool.not_eq_true'] at hleaves
    cases hpublished : d.isCurrentNetworkWhitelisted with
    | false =>
      obtain ⟨hflag, hnone⟩ := hwell.isCurrentNetworkWhitelisted_eq_false.mp hpublished
      refine ⟨fun hunnamed ↦ ?_, fun _ ↦ hnone⟩
      rw [hflag] at hunnamed
      cases hunnamed
    | true =>
      rcases hlost hpublished hleaves.1 hleaves.2 with hrenamed | ⟨hunnamed, hforce⟩
      · exact absurd hname hrenamed
      · refine ⟨fun _ hunforced ↦ ?_, fun _ ↦ hwell.whitelistedNetworkName_of_unnamed hunnamed⟩
        rw [hforce] at hunforced
        cases hunforced
  · refine ⟨fun _ _ hsame ↦ hname ?_, fun hsame ↦ absurd hsame hname⟩
    exact congrArg (Option.map NetworkDetail.name) hsame

/-- A re-evaluation that sees nothing new keeps the stand-down, if it is kept to the condition. -/
theorem processNetworkChange_stays {force online : Bool} {detail : Option NetworkDetail}
    (hwell : WellFormed d) (hstays : d.stays online detail = true)
    (hunforced : d.standDownWithoutName = true → force = true → d.stays online detail = false)
    (hstood : d.isCurrentNetworkWhitelisted = true) :
    (d.processNetworkChange force online detail).isCurrentNetworkWhitelisted = true := by
  obtain ⟨-, rfl⟩ := of_decide_eq_true hstays
  by_contra hdropped
  rw [Bool.not_eq_true, processNetworkChange_isCurrentNetworkWhitelisted d force online _ hwell]
    at hdropped
  obtain ⟨hflag, hname⟩ := hdropped
  rw [hwell.published, hname rfl, Option.isSome_none, Bool.or_false] at hstood
  cases hforce : force with
  | true =>
    rw [hunforced hstood hforce] at hstays
    cases hstays
  | false => exact hflag hstood hforce rfl

/-- What is not stood down is not stood down by a re-evaluation. -/
theorem processNetworkChange_of_not {force online : Bool} {detail : Option NetworkDetail}
    (hwell : WellFormed d) (hnot : d.isCurrentNetworkWhitelisted = false) :
    (d.processNetworkChange force online detail).isCurrentNetworkWhitelisted = false := by
  obtain ⟨hflag, hnone⟩ := hwell.isCurrentNetworkWhitelisted_eq_false.mp hnot
  rw [processNetworkChange_isCurrentNetworkWhitelisted d force online detail hwell]
  refine ⟨fun hunnamed ↦ ?_, fun _ ↦ hnone⟩
  rw [hflag] at hunnamed
  cases hunnamed

/-- The end of a stand-down is kept by a state that publishes none. -/
theorem lasting_ends (hnot : d.isCurrentNetworkWhitelisted = false) (standing : Standing) :
    Lasting ⟨d, standing.ends⟩ := by
  cases standing with
  | never => trivial
  | inForce | unsettled | ended => exact hnot

theorem lasting_step (a : Action) (hwell : WellFormed x.state) (hlasting : Lasting x)
    (hkept : Kept x a) (hstep : step x a = some y) : WellFormed y.state ∧ Lasting y := by
  cases a with
  | processNetworkChange force first second =>
    obtain rfl := Option.some.inj hstep
    refine ⟨processNetworkChange_wellFormed _ _ _ _ hwell, ?_⟩
    unfold Standing.afterChange
    split_ifs with hleaves hstays
    · exact lasting_ends (processNetworkChange_leaves hwell hleaves hkept.2) x.standing
    · cases hstanding : x.standing with
      | never | unsettled => trivial
      | inForce =>
        rw [Lasting, hstanding] at hlasting
        exact processNetworkChange_stays hwell hstays hkept.1 hlasting
      | ended =>
        rw [Lasting, hstanding] at hlasting
        exact processNetworkChange_of_not hwell hlasting
    · cases hstanding : x.standing with
      | never | inForce | unsettled => trivial
      | ended =>
        rw [Lasting, hstanding] at hlasting
        exact processNetworkChange_of_not hwell hlasting
  | disconnect =>
    obtain rfl := Option.some.inj hstep
    exact standDownCurrentNetwork_wellFormed hwell
  | connect =>
    obtain rfl := Option.some.inj hstep
    obtain ⟨hcleared, hnot⟩ := setWhitelistedNetwork_none_wellFormed (d := x.state)
    have hopted := setOptedInNetwork_wellFormed hcleared
      (x.state.setWhitelistedNetwork none).getCurrentNetworkName
    exact ⟨hopted, lasting_ends hnot x.standing⟩
  | onAutoConnectChanged =>
    obtain rfl := Option.some.inj hstep
    obtain ⟨hcleared, hnot⟩ := setWhitelistedNetwork_none_wellFormed (d := x.state)
    exact ⟨hcleared, lasting_ends hnot x.standing⟩

/-- A run that is kept to the condition keeps the records and the promise. -/
theorem lasting_reaches (hreach : Reaches step Kept {} x) : WellFormed x.state ∧ Lasting x :=
  hreach.invariant (fun x ↦ WellFormed x.state ∧ Lasting x)
    (fun a _ _ hsofar hkept hstep ↦ lasting_step a hsofar.1 hsofar.2 hkept hstep)
    ⟨⟨rfl, nofun, nofun⟩, trivial⟩

/-- Auto-connect leaves the network alone while a stand-down is in force. -/
theorem not_shouldAutoConnect_of_inForce (hreach : Reaches step Kept {} x)
    (hstanding : x.standing = .inForce) {input : PolicyInput}
    (hread : input.isNetworkStoodDown = x.state.isCurrentNetworkWhitelisted) :
    shouldAutoConnect input = false := by
  have hlasting := (lasting_reaches hreach).2
  rw [Lasting, hstanding] at hlasting
  exact shouldAutoConnect_of_standsDown (hread.trans hlasting)

/-- The condition is of concern to unnamed networks only: a re-evaluation that finds the same
surroundings both times meets it when the stand-down is by name. -/
theorem kept_of_named (hwell : WellFormed x.state) (hnamed : x.state.standDownWithoutName = false)
    (force : Bool) (seen : Surroundings) : Kept x (.processNetworkChange force seen seen) := by
  refine ⟨fun hunnamed ↦ ?_, fun hstood _ hoffline ↦ Or.inl ?_⟩
  · rw [hnamed] at hunnamed
    cases hunnamed
  · rw [hwell.published, hnamed, Bool.false_or] at hstood
    obtain ⟨name, hname⟩ := Option.isSome_iff_exists.mp hstood
    rw [hwell.named name hname, getCurrentNetworkDetail_of_offline hoffline]
    exact Option.some_ne_none name

/-- A stand-down lasts exactly as long as the network in a run that is kept to the condition. -/
theorem lasting_of_kept (hreach : Reaches step Kept {} x) : Lasting x :=
  (lasting_reaches hreach).2

/-- A Wi-Fi network with or without a name that may be read. -/
def onWifi (wifiName : Option String) : Surroundings :=
  { connectivityManager := some
      { activeNetwork := .ok (some 0)
        allNetworks := .ok [0]
        getNetworkCapabilities := fun _ ↦
          .ok (some { internet := true, notVpn := true, validated := true, wifi := true }) }
    wifiName
    operatorName := none }

/-- No network at all. -/
def offline : Surroundings :=
  { connectivityManager := some
      { activeNetwork := .ok none
        allNetworks := .ok []
        getNetworkCapabilities := fun _ ↦ .ok none }
    wifiName := none
    operatorName := none }

/-- A stand-down on a named network outlives a forced re-evaluation, and not the network. -/
theorem lasting_of_kept_named :
    (∃ x, Reaches step Kept {} x ∧ x.standing = .inForce ∧ Lasting x) ∧
      ∃ x, Reaches step Kept {} x ∧ x.standing = .ended ∧ Lasting x := by
  constructor
  · obtain ⟨x, hreach, hcheck⟩ := exists_reaches_of_run step Kept {}
      [.processNetworkChange true (onWifi (some "Home")) (onWifi (some "Home")), .disconnect,
        .processNetworkChange true (onWifi (some "Home")) (onWifi (some "Home"))]
      (fun x ↦ decide (x.standing = .inForce)) (by decide)
    exact ⟨x, hreach, of_decide_eq_true hcheck, lasting_of_kept hreach⟩
  · obtain ⟨x, hreach, hcheck⟩ := exists_reaches_of_run step Kept {}
      [.processNetworkChange true (onWifi (some "Home")) (onWifi (some "Home")), .disconnect,
        .processNetworkChange false offline offline]
      (fun x ↦ decide (x.standing = .ended)) (by decide)
    exact ⟨x, hreach, of_decide_eq_true hcheck, lasting_of_kept hreach⟩

/-- The user disconnects on a Wi-Fi network whose name may not be read, and the device then loses
its network. The detail is missing before and after, and the stand-down stays. -/
theorem not_lasting_offline : ¬ ∀ x, Reaches step Always {} x → Lasting x := by
  intro hpromise
  obtain ⟨x, hreach, hcheck⟩ := exists_reaches_of_run step Always {}
    [.processNetworkChange true (onWifi none) (onWifi none), .disconnect,
      .processNetworkChange false offline offline]
    (fun x ↦ decide (x.standing = .ended ∧ x.state.isCurrentNetworkWhitelisted = true)) (by decide)
  obtain ⟨hended, hstood⟩ := of_decide_eq_true hcheck
  have hlasting := hpromise x hreach
  rw [Lasting, hended] at hlasting
  rw [hstood] at hlasting
  cases hlasting

end WindscribeVpn.State.StandDown
