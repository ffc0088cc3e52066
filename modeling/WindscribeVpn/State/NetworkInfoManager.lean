import WindscribeVpn.Foundations.KeyedTables
import WindscribeVpn.Foundations.Runs
import WindscribeVpn.State.ConnectionPolicy
import WindscribeVpn.State.UnderlyingNetwork

/-!
# `NetworkInfoManager`

The row of the current network is published through `networkInfo`, which auto-connect and the
protocol choice follow. Every change of the network that the collector takes, and every explicit
`reload`, starts a coroutine that reads the network's detail, asks the database for its row, inserts
a default one when there is none, and publishes what it read. Nothing orders two such coroutines,
and each answer of the database is one moment's.

`Faithful` is the promise: once every reload has finished the published row is the stored one of the
current network, no row is published after a change to another network or to none, and no reload
overwrites what the user set. `not_faithful_overtaken` is a run that breaks the first two, with a
reload that is overtaken by the one of the next network, and `not_faithful_inserted` one that breaks
the last. `Orderly` is the condition on a step, and `rows_faithful_of_orderly` proves the promise
for every run whose steps all meet it.
-/

set_option autoImplicit false
set_option relaxedAutoImplicit false

namespace WindscribeVpn.State.NetworkInfoManager

open Foundations.KeyedTables Foundations.Runs UnderlyingNetwork

/-! ### The table -/

/-- `NetworkInfo`. -/
structure NetworkInfo where
  networkName : String
  isAutoSecureOn : Bool
  isPreferredOn : Bool
  protocol : Option String
  port : Option String
  deriving DecidableEq, Repr

/-- `ConnectionPolicyInputs.from`, for the inputs that are read off a row. -/
def NetworkInfo.policyInput (networkInfo : Option NetworkInfo)
    (facts : ConnectionPolicy.PolicyInput) : ConnectionPolicy.PolicyInput :=
  { facts with
    isAutoSecureOn := networkInfo.map NetworkInfo.isAutoSecureOn
    isPreferredProtocolOn := networkInfo.any NetworkInfo.isPreferredOn
    preferredProtocol := networkInfo.bind fun row ↦
      row.protocol.bind fun protocol ↦ row.port.map fun port ↦ (protocol, port) }

/-- The preferences that a default row is made of. -/
structure Defaults where
  isAutoSecureOn : Bool
  protocol : String
  port : String
  deriving DecidableEq, Repr

/-- `getDefaultNetworkInfo`. -/
def Defaults.networkInfo (defaults : Defaults) (networkName : String) : NetworkInfo where
  networkName := networkName
  isAutoSecureOn := defaults.isAutoSecureOn
  isPreferredOn := false
  protocol := some defaults.protocol
  port := some defaults.port

/-- The table `Network_Info`, whose primary key is the name. -/
structure NetworkTable where
  getNetwork : Table String NetworkInfo
  keyed : ∀ name row, getNetwork name = some row → row.networkName = name

namespace NetworkTable

variable (table : NetworkTable)

/-- The table without rows. -/
def empty : NetworkTable := ⟨fun _ ↦ none, nofun⟩

/-- `addNetwork`, which replaces a row of the same name. -/
def addNetwork (row : NetworkInfo) : NetworkTable where
  getNetwork := upsert NetworkInfo.networkName table.getNetwork row
  keyed := by
    intro name stored hstored
    by_cases hname : name = row.networkName
    · rw [upsert, hname, Function.update_self, Option.some.injEq] at hstored
      rw [← hstored, hname]
    · rw [upsert, Function.update_of_ne hname] at hstored
      exact table.keyed name stored hstored

/-- `updateNetworkSync`, which changes a row that is there. -/
def updateNetwork (row : NetworkInfo) : NetworkTable :=
  if (table.getNetwork row.networkName).isSome then table.addNetwork row else table

/-- `deleteNetworkSync`. -/
def deleteNetwork (name : String) : NetworkTable where
  getNetwork := eraseAll [name] table.getNetwork
  keyed := by
    intro other stored hstored
    rw [eraseAll] at hstored
    split_ifs at hstored
    exact table.keyed other stored hstored

@[simp] theorem getNetwork_addNetwork_self (row : NetworkInfo) :
    (table.addNetwork row).getNetwork row.networkName = some row := Function.update_self ..

theorem getNetwork_addNetwork_of_ne {row : NetworkInfo} {name : String}
    (hname : name ≠ row.networkName) :
    (table.addNetwork row).getNetwork name = table.getNetwork name := Function.update_of_ne hname ..

theorem getNetwork_deleteNetwork_of_ne {deleted name : String} (hname : name ≠ deleted) :
    (table.deleteNetwork deleted).getNetwork name = table.getNetwork name :=
  if_neg fun hmem ↦ hname (List.mem_singleton.mp hmem)

end NetworkTable

/-! ### Coroutines -/

/-- How far a coroutine has come. `captured` counts the changes of the network before it read the
detail, and is not read by the code. -/
inductive Reload
  /-- It has not read the detail yet. -/
  | launched
  /-- `getNetwork` is under way. -/
  | reading (name : String) (captured : ℕ)
  /-- There was no row, and `addNetwork` is under way. -/
  | inserting (name : String) (captured : ℕ)
  /-- The second `getNetwork` is under way. -/
  | rereading (name : String) (captured : ℕ)
  /-- It is about to publish what it read. -/
  | publishing (name : String) (row : Option NetworkInfo) (captured : ℕ)
  /-- It is about to publish null: a `reload` that found no detail or caught an exception, or the
  collector itself. -/
  | clearing (collector : Bool)
  deriving DecidableEq, Repr

/-- The network a coroutine has read, and when. -/
def Reload.network : Reload → Option (String × ℕ)
  | .launched | .clearing _ => none
  | .reading name captured | .inserting name captured | .rereading name captured
  | .publishing name _ captured => some (name, captured)

/-- The network whose row a coroutine is about to publish. -/
def Reload.publishes : Reload → Option String
  | .publishing name _ _ => some name
  | .launched | .reading _ _ | .inserting _ _ | .rereading _ _ | .clearing _ => none

/-- The manager with its coroutines. `collected` is the detail the collector took last. `moves`
counts the changes of the network, `userSet` is what the user set, and `late` and `overwritten`
record a row that was published after a change and one that a reload replaced. -/
structure Manager where
  networkDetail : Option NetworkDetail
  networkInfo : Option NetworkInfo
  table : NetworkTable
  collected : Option (Option NetworkDetail)
  reloads : List Reload
  moves : ℕ
  userSet : String → Option NetworkInfo
  late : Bool
  overwritten : Bool

/-- The start of the process; the rows that are stored are the user's. -/
def Manager.initial (table : NetworkTable) : Manager where
  networkDetail := none
  networkInfo := none
  table := table
  collected := none
  reloads := []
  moves := 0
  userSet := table.getNetwork
  late := false
  overwritten := false

/-- A step of one party. -/
inductive Action
  /-- `processNetworkChange` emits a detail. -/
  | change (detail : Option NetworkDetail)
  /-- The collector takes the detail. -/
  | collect
  /-- `reload` is called. -/
  | reload
  /-- A coroutine starts, and reads the detail. -/
  | start (i : ℕ)
  /-- A `getNetwork` of a coroutine is answered. -/
  | getNetwork (i : ℕ)
  /-- The `addNetwork` of a coroutine is done, with the defaults of that moment. -/
  | addNetwork (i : ℕ) (defaults : Defaults)
  /-- The database throws in a coroutine. -/
  | throws (i : ℕ)
  /-- A coroutine publishes. -/
  | emit (i : ℕ)
  /-- The user changes a row, which is written and then followed by a `reload`. -/
  | persist (row : NetworkInfo)
  /-- `forgetNetwork`. -/
  | forgetNetwork (name : String)
  deriving DecidableEq, Repr

/-- A coroutine moves on. -/
def Manager.put (m : Manager) (i : ℕ) (reload : Reload) : Manager :=
  { m with reloads := m.reloads.set i reload }

/-- A coroutine publishes and is finished. -/
def Manager.publish (m : Manager) (i : ℕ) (networkInfo : Option NetworkInfo) : Manager :=
  { m with networkInfo, reloads := m.reloads.eraseIdx i }

/-- One step, or nothing when it cannot be taken now. -/
def step (m : Manager) : Action → Option Manager
  | .change detail =>
    let renamed := m.networkDetail.map NetworkDetail.name ≠ detail.map NetworkDetail.name
    some { m with networkDetail := detail, moves := if renamed then m.moves + 1 else m.moves }
  | .collect =>
    if m.collected = some m.networkDetail ∨ .clearing true ∈ m.reloads then none
    else
      let reload := if m.networkDetail.isSome then .launched else .clearing true
      some { m with collected := some m.networkDetail, reloads := m.reloads ++ [reload] }
  | .reload => some { m with reloads := m.reloads ++ [.launched] }
  | .start i =>
    match m.reloads[i]? with
    | some .launched =>
      some <| m.put i <| match m.networkDetail with
        | none => .clearing false
        | some detail => .reading detail.name m.moves
    | _ => none
  | .getNetwork i =>
    match m.reloads[i]? with
    | some (.reading name captured) =>
      some <| m.put i <| match m.table.getNetwork name with
        | none => .inserting name captured
        | some row => .publishing name (some row) captured
    | some (.rereading name captured) =>
      some (m.put i (.publishing name (m.table.getNetwork name) captured))
    | _ => none
  | .addNetwork i defaults =>
    match m.reloads[i]? with
    | some (.inserting name captured) =>
      let row := defaults.networkInfo name
      some { m.put i (.rereading name captured) with
        table := m.table.addNetwork row
        overwritten := m.overwritten || decide (m.userSet name ≠ none ∧ m.userSet name ≠ some row) }
    | _ => none
  | .throws i =>
    match m.reloads[i]? with
    | some (.reading _ _) | some (.inserting _ _) | some (.rereading _ _) =>
      some (m.put i (.clearing false))
    | _ => none
  | .emit i =>
    match m.reloads[i]? with
    | some (.publishing _ row captured) =>
      some { m.publish i row with
        late := m.late || (row.isSome && decide (captured ≠ m.moves)) }
    | some (.clearing _) => some (m.publish i none)
    | _ => none
  | .persist row =>
    if (m.table.getNetwork row.networkName).isSome then
      some { m with
        table := m.table.updateNetwork row
        userSet := Function.update m.userSet row.networkName (some row)
        reloads := m.reloads ++ [.launched] }
    else some { m with reloads := m.reloads ++ [.launched] }
  | .forgetNetwork name =>
    some { m with
      table := m.table.deleteNetwork name
      userSet := Function.update m.userSet name none }

/-! ### The promise -/

/-- The published row is the stored one of the network with this detail, or null without one. -/
def Manager.Shows (m : Manager) : Option NetworkDetail → Prop
  | none => m.networkInfo = none
  | some detail => m.networkInfo ≠ none ∧ m.networkInfo = m.table.getNetwork detail.name

instance decidableShows (m : Manager) : (detail : Option NetworkDetail) → Decidable (m.Shows detail)
  | none => inferInstanceAs (Decidable (_ = _))
  | some _ => inferInstanceAs (Decidable (_ ∧ _))

/-- Every reload has finished, that of the last change included. -/
def Manager.Quiet (m : Manager) : Prop := m.reloads = [] ∧ m.collected = some m.networkDetail

/-- What the manager promises. -/
structure Faithful (m : Manager) : Prop where
  settled : m.Quiet →
    match m.networkDetail with
    | none => m.networkInfo = none
    | some detail =>
      ∃ row, m.networkInfo = some row ∧ m.table.getNetwork detail.name = some row ∧
        row.networkName = detail.name
  punctual : m.late = false
  unique : ∀ name name' row row', m.table.getNetwork name = some row →
    m.table.getNetwork name' = some row' → row.networkName = row'.networkName → name = name'
  preserved : m.overwritten = false

/-- The steps at which no reload is overtaken and no row replaced. -/
def Orderly (m : Manager) : Action → Prop
  /- The network changes only while no coroutine has read its detail, and it does not go back to the
  detail the collector took last with another row published in between. -/
  | .change detail =>
    (m.networkDetail.map NetworkDetail.name ≠ detail.map NetworkDetail.name →
      ∀ reload ∈ m.reloads, reload = .launched) ∧
    (m.collected = some detail → m.reloads ≠ [] ∨ m.Shows detail)
  /- A default row is inserted only while there is still no other. -/
  | .addNetwork i defaults =>
    ∀ reload ∈ m.reloads[i]?, ∀ name ∈ reload.network,
      m.table.getNetwork name.1 = none ∨
        m.table.getNetwork name.1 = some (defaults.networkInfo name.1)
  | .throws _ => False
  /- The user changes a row only while no coroutine is about to publish it as it was. -/
  | .persist row => ∀ reload ∈ m.reloads, reload.publishes ≠ some row.networkName
  /- The row that is forgotten is not that of the current network. -/
  | .forgetNetwork name => m.networkDetail.map NetworkDetail.name ≠ some name
  | .collect | .reload | .start _ | .getNetwork _ | .emit _ => True

instance decidableOrderly (m : Manager) : (a : Action) → Decidable (Orderly m a)
  | .change _ =>
    inferInstanceAs (Decidable ((_ → ∀ reload ∈ m.reloads, reload = .launched) ∧ (_ → _ ∨ _)))
  | .addNetwork i _ =>
    inferInstanceAs (Decidable (∀ reload ∈ m.reloads[i]?, ∀ name ∈ reload.network, _ ∨ _))
  | .throws _ => inferInstanceAs (Decidable False)
  | .persist _ => inferInstanceAs (Decidable (∀ reload ∈ m.reloads, reload.publishes ≠ _))
  | .forgetNetwork _ => inferInstanceAs (Decidable (_ ≠ _))
  | .collect | .reload | .start _ | .getNetwork _ | .emit _ => inferInstanceAs (Decidable True)

/-! ### What a run keeps -/

variable {m m' : Manager} {reload : Reload} {i : ℕ}

/-- A network that was read is the current one still. -/
def Manager.Current (m : Manager) (name : String) (captured : ℕ) : Prop :=
  m.networkDetail.map NetworkDetail.name = some name ∧ captured = m.moves

/-- What a coroutine has found so far is still so. -/
def Reload.Sound (m : Manager) : Reload → Prop
  | .launched => True
  | .reading name captured | .inserting name captured => m.Current name captured
  | .rereading name captured => m.Current name captured ∧ m.table.getNetwork name ≠ none
  | .publishing name row captured =>
    m.Current name captured ∧ row ≠ none ∧ row = m.table.getNetwork name
  | .clearing _ => m.networkDetail = none

/-- The invariant of the runs. -/
structure Inv (m : Manager) : Prop where
  reloads : ∀ reload ∈ m.reloads, reload.Sound m
  userSet : ∀ name row, m.userSet name = some row → m.table.getNetwork name = some row
  shows : m.collected = some m.networkDetail → m.reloads ≠ [] ∨ m.Shows m.networkDetail
  punctual : m.late = false
  preserved : m.overwritten = false

/-- A coroutine is not concerned by a step that leaves the network, the row it is about to publish
and the rows there are. -/
theorem Reload.Sound.mono (hsound : reload.Sound m) (hdetail : m'.networkDetail = m.networkDetail)
    (hmoves : m'.moves = m.moves)
    (hthere : ∀ name, m.networkDetail.map NetworkDetail.name = some name →
      m.table.getNetwork name ≠ none → m'.table.getNetwork name ≠ none)
    (hrow : ∀ name row captured, reload = .publishing name row captured →
      m.networkDetail.map NetworkDetail.name = some name → row ≠ none →
        row = m.table.getNetwork name → m'.table.getNetwork name = row) :
    reload.Sound m' := by
  have hcurrent : ∀ {name captured}, m.Current name captured → m'.Current name captured := by
    intro name captured hcurrent
    rwa [Manager.Current, hdetail, hmoves]
  cases reload with
  | launched => trivial
  | reading name captured => exact hcurrent hsound
  | inserting name captured => exact hcurrent hsound
  | rereading name captured => exact ⟨hcurrent hsound.1, hthere name hsound.1.1 hsound.2⟩
  | publishing name row captured =>
    obtain ⟨hnow, hsome, hstored⟩ := hsound
    exact ⟨hcurrent hnow, hsome, (hrow name row captured rfl hnow.1 hsome hstored).symm⟩
  | clearing _ => exact hdetail.trans hsound

/-- Only the coroutines and what they show change. -/
theorem Reload.Sound.of_eq (hsound : reload.Sound m) (hdetail : m'.networkDetail = m.networkDetail)
    (hmoves : m'.moves = m.moves) (htable : m'.table = m.table) : reload.Sound m' :=
  hsound.mono hdetail hmoves (fun _ _ hsome ↦ htable ▸ hsome)
    fun _ _ _ _ _ _ hstored ↦ htable ▸ hstored.symm

/-- A coroutine moves on. -/
theorem Inv.put (hinv : Inv m) (hi : m.reloads[i]? ≠ none) (hsound : reload.Sound m) :
    Inv (m.put i reload) where
  reloads := by
    intro other hother
    rcases List.mem_or_eq_of_mem_set hother with hbefore | rfl
    · exact (hinv.reloads other hbefore).of_eq rfl rfl rfl
    · exact hsound.of_eq rfl rfl rfl
  userSet := hinv.userSet
  shows := by
    intro _
    left
    intro hnil
    rw [Manager.put, List.set_eq_nil_iff] at hnil
    rw [hnil] at hi
    exact hi List.getElem?_nil
  punctual := hinv.punctual
  preserved := hinv.preserved

/-- A coroutine is launched. -/
theorem Inv.launch (hinv : Inv m) (collected : Option (Option NetworkDetail))
    (hsound : reload.Sound m) :
    Inv { m with collected, reloads := m.reloads ++ [reload] } where
  reloads := by
    intro other hother
    rcases List.mem_append.mp hother with hbefore | hnew
    · exact (hinv.reloads other hbefore).of_eq rfl rfl rfl
    · obtain rfl := List.mem_singleton.mp hnew
      exact hsound.of_eq rfl rfl rfl
  userSet := hinv.userSet
  shows := fun _ ↦ Or.inl (List.append_ne_nil_of_right_ne_nil _ (List.cons_ne_nil _ _))
  punctual := hinv.punctual
  preserved := hinv.preserved

/-- A coroutine publishes what is right for the current network. -/
theorem Inv.publish (hinv : Inv m) {networkInfo : Option NetworkInfo}
    (hshows : (m.publish i networkInfo).Shows m.networkDetail) : Inv (m.publish i networkInfo) where
  reloads := fun other hother ↦
    (hinv.reloads other (List.mem_of_mem_eraseIdx hother)).of_eq rfl rfl rfl
  userSet := hinv.userSet
  shows := fun _ ↦ Or.inr hshows
  punctual := hinv.punctual
  preserved := hinv.preserved

theorem inv_change (hinv : Inv m) {detail : Option NetworkDetail}
    (horderly : Orderly m (.change detail)) (hstep : step m (.change detail) = some m') :
    Inv m' := by
  obtain rfl := Option.some.inj hstep
  refine ⟨fun reload hreload ↦ ?_, hinv.userSet, fun hcollected ↦ ?_, hinv.punctual,
    hinv.preserved⟩
  · by_cases hrenamed : m.networkDetail.map NetworkDetail.name ≠ detail.map NetworkDetail.name
    · rw [horderly.1 hrenamed reload hreload]
      trivial
    · have hsound := hinv.reloads reload hreload
      have hname := not_not.mp hrenamed
      cases reload with
      | launched => trivial
      | reading name captured => simpa [Reload.Sound, Manager.Current, hname] using hsound
      | inserting name captured => simpa [Reload.Sound, Manager.Current, hname] using hsound
      | rereading name captured => simpa [Reload.Sound, Manager.Current, hname] using hsound
      | publishing name row captured => simpa [Reload.Sound, Manager.Current, hname] using hsound
      | clearing _ =>
        have hnone : m.networkDetail = none := hsound
        rw [hnone, Option.map_none] at hname
        exact Option.map_eq_none_iff.mp hname.symm
  · rcases horderly.2 hcollected with hreloads | hshows
    · exact Or.inl hreloads
    · right
      cases detail with
      | none => exact hshows
      | some detail => exact hshows

theorem inv_start (hinv : Inv m) (hstep : step m (.start i) = some m') : Inv m' := by
  simp only [step] at hstep
  split at hstep
  next hlaunched =>
    obtain rfl := Option.some.inj hstep
    refine hinv.put (by rw [hlaunched]; nofun) ?_
    cases hdetail : m.networkDetail with
    | none => exact hdetail
    | some detail => exact ⟨by rw [hdetail]; rfl, rfl⟩
  next => cases hstep

theorem inv_getNetwork (hinv : Inv m) (hstep : step m (.getNetwork i) = some m') : Inv m' := by
  simp only [step] at hstep
  split at hstep
  next name captured hreading =>
    obtain rfl := Option.some.inj hstep
    have hcurrent := hinv.reloads _ (List.mem_of_getElem? hreading)
    refine hinv.put (by rw [hreading]; nofun) ?_
    cases hrow : m.table.getNetwork name with
    | none => exact hcurrent
    | some row => exact ⟨hcurrent, nofun, hrow.symm⟩
  next name captured hrereading =>
    obtain rfl := Option.some.inj hstep
    obtain ⟨hcurrent, hthere⟩ := hinv.reloads _ (List.mem_of_getElem? hrereading)
    exact hinv.put (by rw [hrereading]; nofun) ⟨hcurrent, hthere, rfl⟩
  next => cases hstep

theorem inv_addNetwork (hinv : Inv m) {defaults : Defaults}
    (horderly : Orderly m (.addNetwork i defaults))
    (hstep : step m (.addNetwork i defaults) = some m') : Inv m' := by
  simp only [step] at hstep
  split at hstep
  next name captured hinserting =>
    obtain rfl := Option.some.inj hstep
    have hcurrent := hinv.reloads _ (List.mem_of_getElem? hinserting)
    have hunset := horderly _ hinserting _ rfl
    set row := defaults.networkInfo name with hrow
    have hadded : (m.table.addNetwork row).getNetwork name = some row :=
      m.table.getNetwork_addNetwork_self row
    have hkept : ∀ other stored, m.table.getNetwork other = some stored →
        (m.table.addNetwork row).getNetwork other = some stored := by
      intro other stored hstored
      by_cases hother : other = name
      · subst hother
        rcases hunset with hnone | hsame
        · rw [hnone] at hstored
          cases hstored
        · rw [hadded, ← hsame, hstored]
      · rw [m.table.getNetwork_addNetwork_of_ne hother, hstored]
    refine ⟨fun reload hreload ↦ ?_, fun other stored hset ↦ ?_, fun _ ↦ Or.inl ?_, hinv.punctual,
      ?_⟩
    · rcases List.mem_or_eq_of_mem_set hreload with hbefore | rfl
      · refine (hinv.reloads reload hbefore).mono rfl rfl (fun other _ hthere ↦ ?_)
          fun other stored _ _ _ hsome hstored ↦ ?_
        · obtain ⟨stored, hstored⟩ := Option.ne_none_iff_exists'.mp hthere
          exact Option.ne_none_iff_exists'.mpr ⟨stored, hkept other stored hstored⟩
        · obtain ⟨found, rfl⟩ := Option.ne_none_iff_exists'.mp hsome
          exact hkept other found hstored.symm
      · exact ⟨hcurrent, by rw [hadded]; nofun⟩
    · exact hkept other stored (hinv.userSet other stored hset)
    · intro hnil
      rw [Manager.put, List.set_eq_nil_iff] at hnil
      rw [hnil, List.getElem?_nil] at hinserting
      cases hinserting
    · rw [hinv.preserved, Bool.false_or]
      refine decide_eq_false fun hboth ↦ ?_
      obtain ⟨stored, hset⟩ := Option.ne_none_iff_exists'.mp hboth.1
      have hstored := hinv.userSet name stored hset
      rcases hunset with hnone | hsame
      · rw [hnone] at hstored
        cases hstored
      · exact hboth.2 (hset.trans (hstored.symm.trans hsame))
  next => cases hstep

theorem inv_emit (hinv : Inv m) (hstep : step m (.emit i) = some m') : Inv m' := by
  simp only [step] at hstep
  split at hstep
  next name row captured hpublishing =>
    obtain rfl := Option.some.inj hstep
    obtain ⟨⟨hname, hcaptured⟩, hsome, hstored⟩ :=
      hinv.reloads _ (List.mem_of_getElem? hpublishing)
    obtain ⟨detail, hdetail, rfl⟩ := Option.map_eq_some_iff.mp hname
    have hshows : (m.publish i row).Shows m.networkDetail := by
      rw [hdetail]
      exact ⟨hsome, hstored⟩
    have hpublished := hinv.publish hshows
    refine ⟨hpublished.reloads, hpublished.userSet, fun _ ↦ Or.inr ?_, ?_, hpublished.preserved⟩
    · change Manager.Shows _ m.networkDetail
      rw [hdetail] at hshows ⊢
      exact hshows
    · simp [hinv.punctual, hcaptured]
  next collector hclearing =>
    obtain rfl := Option.some.inj hstep
    have hnone : m.networkDetail = none := hinv.reloads _ (List.mem_of_getElem? hclearing)
    refine hinv.publish ?_
    rw [hnone]
    exact rfl
  next => cases hstep

theorem inv_persist (hinv : Inv m) {row : NetworkInfo} (horderly : Orderly m (.persist row))
    (hstep : step m (.persist row) = some m') : Inv m' := by
  simp only [step] at hstep
  split_ifs at hstep with hthere
  · obtain rfl := Option.some.inj hstep
    rw [NetworkTable.updateNetwork, if_pos hthere]
    refine ⟨fun reload hreload ↦ ?_, fun name stored hset ↦ ?_,
      fun _ ↦ Or.inl (List.append_ne_nil_of_right_ne_nil _ (List.cons_ne_nil _ _)),
      hinv.punctual, hinv.preserved⟩
    · rcases List.mem_append.mp hreload with hbefore | hnew
      · refine (hinv.reloads reload hbefore).mono rfl rfl (fun name _ hsome ↦ ?_)
          fun name stored captured heq _ _ hstored ↦ ?_
        · by_cases hname : name = row.networkName
          · rw [hname, m.table.getNetwork_addNetwork_self]
            nofun
          · rwa [m.table.getNetwork_addNetwork_of_ne hname]
        · subst heq
          have hname : name ≠ row.networkName := fun hsame ↦
            horderly _ hbefore (congrArg some hsame)
          rw [m.table.getNetwork_addNetwork_of_ne hname, hstored]
      · obtain rfl := List.mem_singleton.mp hnew
        trivial
    · change Function.update m.userSet row.networkName (some row) name = some stored at hset
      change (m.table.addNetwork row).getNetwork name = some stored
      by_cases hname : name = row.networkName
      · subst hname
        rw [Function.update_self] at hset
        rw [m.table.getNetwork_addNetwork_self, hset]
      · rw [Function.update_of_ne hname] at hset
        rw [m.table.getNetwork_addNetwork_of_ne hname]
        exact hinv.userSet name stored hset
  · obtain rfl := Option.some.inj hstep
    exact hinv.launch m.collected trivial

theorem inv_forgetNetwork (hinv : Inv m) {name : String}
    (horderly : Orderly m (.forgetNetwork name))
    (hstep : step m (.forgetNetwork name) = some m') : Inv m' := by
  obtain rfl := Option.some.inj hstep
  have hother : ∀ other, m.networkDetail.map NetworkDetail.name = some other →
      (m.table.deleteNetwork name).getNetwork other = m.table.getNetwork other := by
    intro other hcurrent
    refine m.table.getNetwork_deleteNetwork_of_ne ?_
    rintro rfl
    exact horderly hcurrent
  refine ⟨fun reload hreload ↦ ?_, fun other stored hset ↦ ?_, fun hcollected ↦ ?_,
    hinv.punctual, hinv.preserved⟩
  · refine (hinv.reloads reload hreload).mono rfl rfl (fun other hcurrent hsome ↦ ?_)
      fun other stored captured _ hcurrent _ hstored ↦ ?_
    · change (m.table.deleteNetwork name).getNetwork other ≠ none
      rwa [hother other hcurrent]
    · exact (hother other hcurrent).trans hstored.symm
  · change Function.update m.userSet name none other = some stored at hset
    change (m.table.deleteNetwork name).getNetwork other = some stored
    by_cases hname : other = name
    · rw [hname, Function.update_self] at hset
      cases hset
    · rw [Function.update_of_ne hname] at hset
      rw [m.table.getNetwork_deleteNetwork_of_ne hname]
      exact hinv.userSet other stored hset
  · rcases hinv.shows hcollected with hreloads | hshows
    · exact Or.inl hreloads
    · right
      change Manager.Shows _ m.networkDetail
      cases hdetail : m.networkDetail with
      | none =>
        rw [hdetail] at hshows
        exact hshows
      | some detail =>
        rw [hdetail] at hshows
        exact ⟨hshows.1, hshows.2.trans (hother detail.name (by rw [hdetail]; rfl)).symm⟩

theorem inv_step (a : Action) (hinv : Inv m) (horderly : Orderly m a) (hstep : step m a = some m') :
    Inv m' := by
  cases a with
  | change detail => exact inv_change hinv horderly hstep
  | collect =>
    simp only [step] at hstep
    split_ifs at hstep with _ hdetail
    · obtain rfl := Option.some.inj hstep
      exact hinv.launch _ trivial
    · obtain rfl := Option.some.inj hstep
      exact hinv.launch _ (Option.not_isSome_iff_eq_none.mp hdetail)
  | reload =>
    obtain rfl := Option.some.inj hstep
    exact hinv.launch m.collected trivial
  | start i => exact inv_start hinv hstep
  | getNetwork i => exact inv_getNetwork hinv hstep
  | addNetwork i defaults => exact inv_addNetwork hinv horderly hstep
  | throws i => cases horderly
  | emit i => exact inv_emit hinv hstep
  | persist row => exact inv_persist hinv horderly hstep
  | forgetNetwork name => exact inv_forgetNetwork hinv horderly hstep

theorem inv_initial (table : NetworkTable) : Inv (Manager.initial table) where
  reloads := nofun
  userSet := fun _ _ hset ↦ hset
  shows := nofun
  punctual := rfl
  preserved := rfl

/-! ### The manager keeps its promise -/

/-- In every run whose steps are all orderly the manager is faithful. -/
theorem rows_faithful_of_orderly (table : NetworkTable)
    (hreach : Reaches step Orderly (Manager.initial table) m) : Faithful m := by
  have hinv := hreach.invariant Inv (fun a _ _ hinv horderly hstep ↦ inv_step a hinv horderly hstep)
    (inv_initial table)
  refine ⟨fun hquiet ↦ ?_, hinv.punctual, fun name name' row row' hrow hrow' hsame ↦ ?_,
    hinv.preserved⟩
  · have hshows := (hinv.shows hquiet.2).resolve_left fun hreloads ↦ hreloads hquiet.1
    cases hdetail : m.networkDetail with
    | none =>
      rw [hdetail] at hshows
      exact hshows
    | some detail =>
      rw [hdetail] at hshows
      obtain ⟨row, hrow⟩ := Option.ne_none_iff_exists'.mp hshows.1
      have hstored : m.table.getNetwork detail.name = some row := hshows.2.symm.trans hrow
      exact ⟨row, hrow, hstored, m.table.keyed _ _ hstored⟩
  · rw [← m.table.keyed name row hrow, ← m.table.keyed name' row' hrow', hsame]

/-- The networks of the runs below. -/
def homeDetail : NetworkDetail := ⟨"Home", .wifi⟩

def cafeDetail : NetworkDetail := ⟨"Cafe", .wifi⟩

/-- The row that is inserted for a network in the runs below. -/
def plain : Defaults := ⟨true, "wg", "443"⟩

/-- The device joins a network and leaves it for another. The reload of the first is answered late,
and publishes its row when that of the second is done. -/
theorem not_faithful_overtaken :
    ¬ ∀ table m, Reaches step Always (Manager.initial table) m → Faithful m := by
  intro hpromise
  obtain ⟨m, hreach, hcheck⟩ := exists_reaches_of_run step Always
    (Manager.initial NetworkTable.empty)
    [.change (some homeDetail), .collect, .start 0, .getNetwork 0, .addNetwork 0 plain,
      .getNetwork 0, .change (some cafeDetail), .collect, .start 1, .getNetwork 1,
      .addNetwork 1 plain, .getNetwork 1, .emit 1, .emit 0]
    (fun m ↦ decide (m.reloads = [] ∧ m.collected = some (some cafeDetail) ∧
      m.networkDetail = some cafeDetail ∧ m.networkInfo = some (plain.networkInfo "Home")))
    (by decide)
  obtain ⟨hreloads, hcollected, hdetail, hinfo⟩ := of_decide_eq_true hcheck
  have hsettled := (hpromise _ m hreach).settled ⟨hreloads, hcollected.trans (by rw [hdetail])⟩
  rw [hdetail] at hsettled
  obtain ⟨row, hrow, -, hname⟩ := hsettled
  rw [hinfo, Option.some.injEq] at hrow
  rw [← hrow] at hname
  revert hname
  decide

/-- Two reloads find no row for a new network. The first inserts one, the user turns Auto-Secure off
in it, and the second inserts the default again. -/
theorem not_faithful_inserted :
    ¬ ∀ table m, Reaches step Always (Manager.initial table) m → Faithful m := by
  intro hpromise
  obtain ⟨m, hreach, hcheck⟩ := exists_reaches_of_run step Always
    (Manager.initial NetworkTable.empty)
    [.change (some homeDetail), .collect, .reload, .start 0, .start 1, .getNetwork 0, .getNetwork 1,
      .addNetwork 0 plain, .persist { plain.networkInfo "Home" with isAutoSecureOn := false },
      .addNetwork 1 plain]
    Manager.overwritten (by decide)
  rw [(hpromise _ m hreach).preserved] at hcheck
  cases hcheck

/-- The user changes the row of a new network, and the device moves on to another. -/
theorem rows_faithful_of_orderly_moved :
    ∃ m, Reaches step Orderly (Manager.initial NetworkTable.empty) m ∧
      m.networkInfo = some (plain.networkInfo "Cafe") ∧ Faithful m := by
  have hreach : ∃ m, Reaches step Orderly (Manager.initial NetworkTable.empty) m ∧
      decide (m.networkInfo = some (plain.networkInfo "Cafe")) = true := by
    refine exists_reaches_of_run step Orderly (Manager.initial NetworkTable.empty)
      [.change (some homeDetail), .collect, .start 0, .getNetwork 0, .addNetwork 0 plain,
        .getNetwork 0, .emit 0, .persist { plain.networkInfo "Home" with isPreferredOn := true },
        .start 0, .getNetwork 0, .emit 0, .change (some cafeDetail), .collect, .start 0,
        .getNetwork 0, .addNetwork 0 plain, .getNetwork 0, .emit 0] _ ?_
    decide
  obtain ⟨m, hreach, hcheck⟩ := hreach
  exact ⟨m, hreach, of_decide_eq_true hcheck, rows_faithful_of_orderly _ hreach⟩

end WindscribeVpn.State.NetworkInfoManager
