import WindscribeVpn.Foundations.Runs
import WindscribeVpn.Repository.LocationRepository

/-!
# The selected location

`LocationRepository` keeps the selected location twice: in a preference, which `setSelectedCity`
writes at once, and in the flow `selectedCity`, to which a coroutine of its own copies the
preference. A connect reads the flow, looks its location up in the database, takes the flow's value
or an alternative, writes it back with `setSelectedCity`, and later builds its profile from the
preference. Any number of copies and connects are under way at a time.

`Kept` is the promise: the stored selection is the user's last one whenever no connect is choosing,
and a connect that started after the user's call connects to it. `not_kept_stale` is a run that
breaks it, with a connect that reads the flow before the copy is made, and `not_kept_overwritten`
one with a selection made while a connect is choosing. `Settled` is the condition on a step, and
`kept_of_settled` proves the promise for every run whose steps all meet it.
-/

set_option autoImplicit false
set_option relaxedAutoImplicit false

namespace WindscribeVpn.Repository.SelectedLocation

open Foundations.Runs LocationRepository

/-! ### The repository and the connects -/

/-- The database, in `call`, and what the lookups of static IPs and custom configs find in it. -/
structure Lookups where
  call : Call
  staticIpAvailable : ℤ → Bool
  configProfileAvailable : ℤ → Bool

/-- `isLocationValid` for a location of a source type. -/
def Lookups.isLocationValid (lookups : Lookups) (source : SelectedLocationType) (id : ℤ) : Bool :=
  let call : Call := { lookups.call with
    isConnectingToConfigured := source == .customConfiguredProfile
    isConnectingToStaticIp := source == .staticIp
    staticIpAvailable := lookups.staticIpAvailable id
    configProfileAvailable := lookups.configProfileAvailable id }
  call.isLocationValid id

/-- How far a connect has come with its location. -/
inductive Stage
  /-- It has not read the flow yet. -/
  | starting
  /-- It has read the flow and the source type, and `isLocationValid` is under way. -/
  | validating (id : ℤ) (source : SelectedLocationType)
  /-- The location was not valid, and `getAlternativeLocation` is under way. -/
  | alternative
  /-- `updateLocation` has returned, and `setSelectedCity` is next. -/
  | choosing (city : ℤ)
  /-- The choice is stored, and the profile is next. -/
  | preparing
  deriving DecidableEq, Repr

/-- A connect. `current` says that it started after the last call of the user, and is not read by
the code. -/
structure Connect where
  stage : Stage
  current : Bool
  deriving DecidableEq, Repr

/-- A connect that has read the flow and not stored its choice yet. -/
def Connect.Choosing (connect : Connect) : Prop :=
  connect.stage ≠ .starting ∧ connect.stage ≠ .preparing

instance decidableChoosing (connect : Connect) : Decidable connect.Choosing :=
  inferInstanceAs (Decidable (_ ∧ _))

/-- The repository with the coroutines. `selectedCity` and `source` are the preferences and `flow`
is the value of the flow; a copy has read the preference or not yet. `chosen` is what the user
selected last, and `astray` records a connect to another location that started after it. -/
structure State where
  selectedCity : ℤ
  source : SelectedLocationType
  flow : ℤ
  copies : List (Option ℤ)
  connects : List Connect
  chosen : Option (ℤ × SelectedLocationType)
  astray : Bool

/-- The start of the process: the flow has the stored selection, and `init` copies it again. -/
def State.initial (selectedCity : ℤ) (source : SelectedLocationType) : State where
  selectedCity := selectedCity
  source := source
  flow := selectedCity
  copies := [none]
  connects := []
  chosen := none
  astray := false

/-- A step of one party. -/
inductive Action
  /-- The user selects a location: the click stores its source type and calls `setSelectedCity`. -/
  | select (id : ℤ) (source : SelectedLocationType)
  /-- `setSelectedCity` without a location. -/
  | refresh
  /-- A copy reads the preference. -/
  | read (i : ℕ)
  /-- A copy emits what it read. -/
  | emit (i : ℕ)
  /-- A connect starts. -/
  | connect
  /-- A connect reads the flow in `updateLocation`. -/
  | update (i : ℕ)
  /-- `isLocationValid` answers a connect. -/
  | validated (i : ℕ)
  /-- `getAlternativeLocation` answers a connect. -/
  | alternative (i : ℕ) (city : ℤ)
  /-- A connect stores its choice with `setSelectedCity`. -/
  | choose (i : ℕ)
  /-- A connect builds its profile from the preference. -/
  | createProfile (i : ℕ)
  /-- A connect is cancelled, or fails. -/
  | cancel (i : ℕ)
  deriving DecidableEq, Repr

namespace State

variable (s : State)

/-- `setSelectedCity`: the write, where there is one, and the copy that is launched. -/
def setSelectedCity (locationId : Option ℤ) : State :=
  { s with
    selectedCity := locationId.getD s.selectedCity
    copies := s.copies ++ [none] }

/-- A connect moves on. -/
def put (i : ℕ) (connect : Connect) (stage : Stage) : State :=
  { s with connects := s.connects.set i { connect with stage } }

/-- The user's last selection, when it names a valid location. -/
def Owed (lookups : Lookups) (id : ℤ) (source : SelectedLocationType) : Prop :=
  s.chosen = some (id, source) ∧ lookups.isLocationValid source id = true

end State

/-- One step, or nothing when it cannot be taken now. -/
def step (lookups : Lookups) (s : State) : Action → Option State
  | .select id source =>
    some { s.setSelectedCity (some id) with
      source
      chosen := some (id, source)
      connects := s.connects.map fun connect ↦ { connect with current := false } }
  | .refresh => some (s.setSelectedCity none)
  | .read i =>
    match s.copies[i]? with
    | some none => some { s with copies := s.copies.set i (some s.selectedCity) }
    | _ => none
  | .emit i =>
    match s.copies[i]? with
    | some (some value) => some { s with flow := value, copies := s.copies.eraseIdx i }
    | _ => none
  | .connect => some { s with connects := s.connects ++ [⟨.starting, true⟩] }
  | .update i =>
    match s.connects[i]? with
    | some ⟨.starting, current⟩ => some (s.put i ⟨.starting, current⟩ (.validating s.flow s.source))
    | _ => none
  | .validated i =>
    match s.connects[i]? with
    | some ⟨.validating id source, current⟩ =>
      let connect := ⟨.validating id source, current⟩
      if lookups.isLocationValid source id then some (s.put i connect (.choosing s.flow))
      else some { s.put i connect .alternative with source := .cityLocation }
    | _ => none
  | .alternative i city =>
    match s.connects[i]? with
    | some ⟨.alternative, current⟩ => some (s.put i ⟨.alternative, current⟩ (.choosing city))
    | _ => none
  | .choose i =>
    match s.connects[i]? with
    | some ⟨.choosing city, current⟩ =>
      some ((s.setSelectedCity (some city)).put i ⟨.choosing city, current⟩ .preparing)
    | _ => none
  | .createProfile i =>
    match s.connects[i]? with
    | some ⟨.preparing, current⟩ =>
      let owed := s.chosen.any fun chosen ↦
        lookups.isLocationValid chosen.2 chosen.1 && chosen.1 != s.selectedCity
      some { s with
        connects := s.connects.eraseIdx i
        astray := s.astray || (current && owed) }
    | _ => none
  | .cancel i =>
    match s.connects[i]? with
    | some _ => some { s with connects := s.connects.eraseIdx i }
    | none => none

/-! ### The promise -/

/-- What is promised of the user's last selection, when it names a valid location. -/
structure Kept (lookups : Lookups) (s : State) : Prop where
  stored : ∀ id source, s.Owed lookups id source →
    (∀ connect ∈ s.connects, ¬ connect.Choosing) → s.selectedCity = id
  connected : s.astray = false

/-- The flow has the stored selection, and no copy is about to emit another. -/
def State.Copied (s : State) : Prop :=
  s.flow = s.selectedCity ∧ ∀ copy ∈ s.copies, ∀ value ∈ copy, value = s.selectedCity

/-- The steps at which no selection is lost. -/
def Settled (lookups : Lookups) (s : State) : Action → Prop
  /- A valid location is selected only while no connect is choosing. -/
  | .select id source =>
    lookups.isLocationValid source id = true → ∀ connect ∈ s.connects, ¬ connect.Choosing
  /- With a valid selection a connect reads the flow only after the selection was copied. -/
  | .update _ => (∃ chosen ∈ s.chosen, lookups.isLocationValid chosen.2 chosen.1 = true) → s.Copied
  | .refresh | .read _ | .emit _ | .connect | .validated _ | .alternative _ _ | .choose _
  | .createProfile _ | .cancel _ => True

instance decidableCopied (s : State) : Decidable s.Copied :=
  inferInstanceAs (Decidable (_ ∧ ∀ copy ∈ s.copies, ∀ value ∈ copy, _))

instance decidableSettled (lookups : Lookups) (s : State) : (a : Action) →
    Decidable (Settled lookups s a)
  | .select _ _ => inferInstanceAs (Decidable (_ → ∀ connect ∈ s.connects, ¬ connect.Choosing))
  | .update _ => inferInstanceAs (Decidable ((∃ chosen ∈ s.chosen, _) → s.Copied))
  | .refresh | .read _ | .emit _ | .connect | .validated _ | .alternative _ _ | .choose _
  | .createProfile _ | .cancel _ => inferInstanceAs (Decidable True)

/-! ### What a run keeps -/

section Run

variable {lookups : Lookups} {s t : State} {id : ℤ} {source : SelectedLocationType}

/-- What a connect has found so far is the user's selection. -/
def Stage.Sound (s : State) (id : ℤ) (source : SelectedLocationType) : Stage → Prop
  | .starting | .preparing => True
  | .validating read readSource => read = id ∧ readSource = source ∧ s.Copied
  | .alternative => False
  | .choosing city => city = id

/-- The invariant of the runs, for the selection that is owed. -/
structure Inv (lookups : Lookups) (s : State) : Prop where
  stored : ∀ id source, s.Owed lookups id source → s.selectedCity = id ∧ s.source = source
  connects : ∀ id source, s.Owed lookups id source →
    ∀ connect ∈ s.connects, connect.stage.Sound s id source
  connected : s.astray = false

/-- A connect is not concerned by a step that leaves the preference, and the flow once it was
copied. -/
theorem Stage.Sound.mono {stage : Stage} (hsound : stage.Sound s id source)
    (hcopied : s.Copied → t.Copied) : stage.Sound t id source := by
  cases stage with
  | starting => trivial
  | validating read readSource => exact ⟨hsound.1, hsound.2.1, hcopied hsound.2.2⟩
  | alternative => exact hsound
  | choosing city => exact hsound
  | preparing => trivial

/-- A step that changes neither the selection nor what a connect reads, and leaves no connect but
those there were or sound ones. -/
theorem Inv.of_same (hinv : Inv lookups s) (hcity : t.selectedCity = s.selectedCity)
    (hsource : t.source = s.source) (hchosen : t.chosen = s.chosen)
    (hcopied : s.Copied → t.Copied) (hastray : t.astray = false)
    (hconnects : ∀ connect ∈ t.connects, connect ∈ s.connects ∨
      ∀ id source, s.Owed lookups id source → connect.stage.Sound t id source) :
    Inv lookups t where
  stored := by
    intro id source howed
    rw [State.Owed, hchosen] at howed
    rw [hcity, hsource]
    exact hinv.stored id source howed
  connects := by
    intro id source howed connect hconnect
    rw [State.Owed, hchosen] at howed
    rcases hconnects connect hconnect with hold | hsound
    · exact (hinv.connects id source howed connect hold).mono hcopied
    · exact hsound id source howed
  connected := hastray

/-- A connect of the list moves on or stays. -/
theorem mem_put {i : ℕ} {connect moved : Connect} {stage : Stage}
    (hmem : connect ∈ (s.put i moved stage).connects) :
    connect ∈ s.connects ∨ connect.stage = stage := by
  rcases List.mem_or_eq_of_mem_set hmem with hold | rfl
  · exact Or.inl hold
  · exact Or.inr rfl

/-- A copy that has not read the preference yet may be launched. -/
theorem State.Copied.launch (hcopied : s.Copied) : (s.setSelectedCity none).Copied := by
  refine ⟨hcopied.1, fun copy hcopy value hvalue ↦ ?_⟩
  rcases List.mem_append.mp hcopy with hold | hnew
  · exact hcopied.2 copy hold value hvalue
  · rw [List.mem_singleton.mp hnew] at hvalue
    cases hvalue

/-- A copy that reads reads the stored selection. -/
theorem State.Copied.read (hcopied : s.Copied) (i : ℕ) :
    State.Copied { s with copies := s.copies.set i (some s.selectedCity) } := by
  obtain ⟨hflow, hcopies⟩ := hcopied
  refine ⟨hflow, fun copy hcopy value hvalue ↦ ?_⟩
  rcases List.mem_or_eq_of_mem_set hcopy with hold | rfl
  · exact hcopies copy hold value hvalue
  · exact (Option.mem_some_iff.mp hvalue).symm

/-- A copy that emits emits the stored selection. -/
theorem State.Copied.emit (hcopied : s.Copied) {i : ℕ} {value : ℤ}
    (hcopy : s.copies[i]? = some (some value)) :
    State.Copied { s with flow := value, copies := s.copies.eraseIdx i } :=
  ⟨hcopied.2 _ (List.mem_of_getElem? hcopy) value rfl,
    fun copy hmem ↦ hcopied.2 copy (List.mem_of_mem_eraseIdx hmem)⟩

/-- No connect is choosing when a valid location is selected, so none is about to replace it. -/
theorem Inv.select (hinv : Inv lookups s) (hidle : lookups.isLocationValid source id = true →
    ∀ connect ∈ s.connects, ¬ connect.Choosing) :
    Inv lookups { s.setSelectedCity (some id) with
      source
      chosen := some (id, source)
      connects := s.connects.map fun connect ↦ { connect with current := false } } where
  stored := by
    rintro id' source' ⟨hchosen, -⟩
    obtain ⟨rfl, rfl⟩ := Prod.mk.inj (Option.some.inj hchosen)
    exact ⟨rfl, rfl⟩
  connects := by
    rintro id' source' ⟨hchosen, hvalid⟩ connect hconnect
    obtain ⟨rfl, rfl⟩ := Prod.mk.inj (Option.some.inj hchosen)
    obtain ⟨old, hold, rfl⟩ := List.mem_map.mp hconnect
    have hnot : ¬ old.Choosing := hidle hvalid old hold
    rw [Connect.Choosing, not_and_or, not_not, not_not] at hnot
    rcases hnot with hstarting | hpreparing
    · simp only [hstarting]
      trivial
    · simp only [hpreparing]
      trivial
  connected := hinv.connected

/-- What a connect chooses is the selection that is owed, so storing it changes nothing. -/
theorem Inv.choose (hinv : Inv lookups s) {i : ℕ} {city : ℤ} {current : Bool}
    (hconnect : s.connects[i]? = some ⟨.choosing city, current⟩) :
    Inv lookups ((s.setSelectedCity (some city)).put i ⟨.choosing city, current⟩ .preparing) := by
  have hcity : ∀ id source, s.Owed lookups id source → city = id := fun id source howed ↦
    hinv.connects id source howed _ (List.mem_of_getElem? hconnect)
  refine ⟨fun id source howed ↦ ?_, fun id source howed other hother ↦ ?_, hinv.connected⟩
  · exact ⟨hcity id source howed, (hinv.stored id source howed).2⟩
  · have hsame : s.selectedCity = city :=
      (hinv.stored id source howed).1.trans (hcity id source howed).symm
    rcases mem_put hother with hold | hstage
    · refine (hinv.connects id source howed other hold).mono fun hcopied ↦ ?_
      have hlaunched := hcopied.launch
      rw [State.setSelectedCity, Option.getD_none, hsame] at hlaunched
      exact hlaunched
    · rw [hstage]
      trivial

/-- One step keeps the invariant. -/
theorem Inv.step {a : Action} (hinv : Inv lookups s) (hsettled : Settled lookups s a)
    (hstep : step lookups s a = some t) : Inv lookups t := by
  cases a with
  | select id source =>
    obtain rfl := Option.some.inj hstep
    exact hinv.select hsettled
  | refresh =>
    obtain rfl := Option.some.inj hstep
    exact hinv.of_same rfl rfl rfl State.Copied.launch hinv.connected fun connect hconnect ↦
      Or.inl hconnect
  | read i =>
    simp only [SelectedLocation.step] at hstep
    split at hstep
    · obtain rfl := Option.some.inj hstep
      exact hinv.of_same rfl rfl rfl (fun hcopied ↦ hcopied.read i) hinv.connected
        fun connect hconnect ↦ Or.inl hconnect
    · cases hstep
  | emit i =>
    simp only [SelectedLocation.step] at hstep
    split at hstep
    · rename_i value hcopy
      obtain rfl := Option.some.inj hstep
      exact hinv.of_same rfl rfl rfl (fun hcopied ↦ hcopied.emit hcopy) hinv.connected
        fun connect hconnect ↦ Or.inl hconnect
    · cases hstep
  | connect =>
    obtain rfl := Option.some.inj hstep
    refine hinv.of_same rfl rfl rfl (fun hcopied ↦ hcopied) hinv.connected fun connect hconnect ↦ ?_
    rcases List.mem_append.mp hconnect with hold | hnew
    · exact Or.inl hold
    · obtain rfl := List.mem_singleton.mp hnew
      exact Or.inr fun _ _ _ ↦ trivial
  | update i =>
    simp only [SelectedLocation.step] at hstep
    split at hstep
    · obtain rfl := Option.some.inj hstep
      refine hinv.of_same rfl rfl rfl (fun hcopied ↦ hcopied) hinv.connected
        fun connect hconnect ↦ ?_
      refine (mem_put hconnect).imp_right fun hstage id source howed ↦ ?_
      obtain ⟨hcity, hsource⟩ := hinv.stored id source howed
      have hcopied := hsettled ⟨_, howed.1, howed.2⟩
      rw [hstage]
      exact ⟨hcopied.1.trans hcity, hsource, hcopied⟩
    · cases hstep
  | validated i =>
    simp only [SelectedLocation.step] at hstep
    split at hstep
    · rename_i read readSource current hconnect
      have hread : ∀ id source, s.Owed lookups id source →
          read = id ∧ readSource = source ∧ s.Copied := fun id source howed ↦
        hinv.connects id source howed _ (List.mem_of_getElem? hconnect)
      split_ifs at hstep with hvalid
      · obtain rfl := Option.some.inj hstep
        refine hinv.of_same rfl rfl rfl (fun hcopied ↦ hcopied) hinv.connected fun other hother ↦ ?_
        refine (mem_put hother).imp_right fun hstage id source howed ↦ ?_
        obtain ⟨-, -, hcopied⟩ := hread id source howed
        rw [hstage]
        exact hcopied.1.trans (hinv.stored id source howed).1
      · obtain rfl := Option.some.inj hstep
        have hnone : ∀ id source, ¬ s.Owed lookups id source := by
          intro id source howed
          obtain ⟨rfl, rfl, -⟩ := hread id source howed
          exact hvalid howed.2
        exact ⟨fun id source howed ↦ absurd howed (hnone id source),
          fun id source howed ↦ absurd howed (hnone id source), hinv.connected⟩
    · cases hstep
  | alternative i city =>
    simp only [SelectedLocation.step] at hstep
    split at hstep
    · rename_i current hconnect
      obtain rfl := Option.some.inj hstep
      refine hinv.of_same rfl rfl rfl (fun hcopied ↦ hcopied) hinv.connected fun other hother ↦ ?_
      refine (mem_put hother).imp_right fun _ id source howed ↦ ?_
      exact (hinv.connects id source howed _ (List.mem_of_getElem? hconnect)).elim
    · cases hstep
  | choose i =>
    simp only [SelectedLocation.step] at hstep
    split at hstep
    · rename_i city current hconnect
      obtain rfl := Option.some.inj hstep
      exact hinv.choose hconnect
    · cases hstep
  | createProfile i =>
    simp only [SelectedLocation.step] at hstep
    split at hstep
    · obtain rfl := Option.some.inj hstep
      refine hinv.of_same rfl rfl rfl (fun hcopied ↦ hcopied) ?_ fun connect hconnect ↦
        Or.inl (List.mem_of_mem_eraseIdx hconnect)
      rw [hinv.connected, Bool.false_or, Bool.and_eq_false_iff]
      right
      rcases hchosen : s.chosen with _ | ⟨id, source⟩
      · rfl
      · rw [Option.any_some, Bool.and_eq_false_iff]
        rcases hvalid : lookups.isLocationValid source id with _ | _
        · exact Or.inl rfl
        · right
          rw [(hinv.stored id source ⟨hchosen, hvalid⟩).1]
          exact bne_self_eq_false id
    · cases hstep
  | cancel i =>
    simp only [SelectedLocation.step] at hstep
    split at hstep
    · obtain rfl := Option.some.inj hstep
      exact hinv.of_same rfl rfl rfl (fun hcopied ↦ hcopied) hinv.connected fun connect hconnect ↦
        Or.inl (List.mem_of_mem_eraseIdx hconnect)
    · cases hstep

/-- No selection is lost in a run whose steps are all settled. -/
theorem kept_of_settled {selectedCity : ℤ} (lookups : Lookups)
    (hreach : Reaches (step lookups) (Settled lookups) (State.initial selectedCity source) s) :
    Kept lookups s := by
  have hinv : Inv lookups s := by
    refine hreach.invariant (Inv lookups) ?_ ⟨nofun, fun _ _ _ ↦ nofun, rfl⟩
    exact fun _ _ _ hx hsettled hstep ↦ hx.step hsettled hstep
  exact ⟨fun id source howed _ ↦ (hinv.stored id source howed).1, hinv.connected⟩

end Run

/-! ### Runs on two datacenters -/

/-- The datacenters 1 and 2 with a node each. -/
def sampleLookups : Lookups where
  call :=
    { db :=
        { datacenters := [⟨1, 10, none⟩, ⟨2, 10, none⟩]
          locations := [10]
          servers :=
            [⟨1, "a.example.com", "10.0.0.1", "10.0.0.2", "10.0.0.3", 1, 1, 0, 0, 0⟩,
              ⟨2, "b.example.com", "10.0.1.1", "10.0.1.2", "10.0.1.3", 2, 1, 0, 0, 0⟩]
          pings := [] }
      isConnectingToConfigured := false
      isConnectingToStaticIp := false
      selectedCity := 1
      preferredCity := 1
      freeUser := false
      staticIpAvailable := false
      configProfileAvailable := false
      draw := 0
      userTimeZone := ""
      offsetMinutes := fun _ ↦ 0
      ping := fun _ ↦ -1 }
  staticIpAvailable := fun _ ↦ false
  configProfileAvailable := fun _ ↦ false

/-- The user selects a location, and a connect starts after it was copied. -/
theorem kept_of_settled_copied :
    ∃ s, Kept sampleLookups s ∧ s.chosen = some (2, .cityLocation) ∧ s.selectedCity = 2 := by
  obtain ⟨s, hreach, hcheck⟩ := exists_reaches_of_run (step sampleLookups) (Settled sampleLookups)
    (State.initial 1 .cityLocation)
    [.read 0, .emit 0, .select 2 .cityLocation, .read 0, .emit 0, .connect, .update 0,
      .validated 0, .choose 0, .createProfile 0]
    (fun s ↦ s.chosen = some (2, .cityLocation) ∧ s.selectedCity = 2) (by decide)
  exact ⟨s, kept_of_settled sampleLookups hreach, of_decide_eq_true hcheck⟩

/-- The user selects datacenter 2, and a connect starts at once. It reads the flow before the copy
is made, takes datacenter 1, stores it over the selection and connects to it. -/
theorem not_kept_stale :
    ¬ ∀ (lookups : Lookups) (selectedCity : ℤ) (source : SelectedLocationType) (s : State),
      Reaches (step lookups) Always (State.initial selectedCity source) s → Kept lookups s := by
  intro hpromise
  obtain ⟨s, hreach, hcheck⟩ := exists_reaches_of_run (step sampleLookups) Always
    (State.initial 1 .cityLocation)
    [.read 0, .emit 0, .select 2 .cityLocation, .connect, .update 0, .validated 0, .choose 0,
      .createProfile 0]
    State.astray (by decide)
  have hpromised := (hpromise sampleLookups 1 .cityLocation s hreach).connected
  rw [hcheck] at hpromised
  cases hpromised

/-- The user selects datacenter 2 while a connect has looked up datacenter 1 and not stored it yet.
The connect stores it over the selection. -/
theorem not_kept_overwritten :
    ∃ s, Reaches (step sampleLookups) Always (State.initial 1 .cityLocation) s ∧
      ¬ Kept sampleLookups s ∧ s.Copied := by
  obtain ⟨s, hreach, hcheck⟩ := exists_reaches_of_run (step sampleLookups) Always
    (State.initial 1 .cityLocation)
    [.read 0, .emit 0, .connect, .update 0, .validated 0, .select 2 .cityLocation, .read 0, .emit 0,
      .choose 0, .read 0, .emit 0]
    (fun s ↦ s.chosen = some (2, .cityLocation) ∧ s.selectedCity = 1 ∧ s.Copied ∧
      (∀ connect ∈ s.connects, ¬ connect.Choosing)) (by decide)
  obtain ⟨hchosen, hcity, hcopied, hidle⟩ := of_decide_eq_true hcheck
  refine ⟨s, hreach, fun hkept ↦ ?_, hcopied⟩
  have hstored := hkept.stored 2 .cityLocation ⟨hchosen, by decide⟩ hidle
  rw [hcity] at hstored
  exact absurd hstored (by decide)

end WindscribeVpn.Repository.SelectedLocation
