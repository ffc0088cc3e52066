import WindscribeVpn.Repository.ServerListRepository

/-!
# `ConnectionDataRepository` and the session refresh that relies on it

`update` fetches the four things a connect reads: the OpenVPN server config, the OpenVPN and the
IKEv2 credentials, and the port map. Each fetch may succeed, answer with an error, be cancelled, or
its handling may throw. `SessionWorker.refreshConnectionInputs` runs it after the server list update
when the account has changed, and `ReconnectAfterRefresh` follows when that returns true.

`Trustworthy` is the promise both make: `update` returns true only when everything stored was
obtained by that call, and the worker reconnects after an account change only when both updates
succeeded. Neither is kept. An error that a fetch answers with is logged and `update` goes on to
return true (`not_trustworthy_error`), and the worker drops the result of `update`. The main
theorem, `trustworthy_iff`, says for which answers the promise is kept nevertheless.
-/

set_option autoImplicit false
set_option relaxedAutoImplicit false

namespace WindscribeVpn.Repository.ConnectionDataRepository

open ServerListRepository

/-! ### What is fetched and where it goes -/

/-- `CallResult`; the message of an error is only logged. -/
inductive CallResult (α : Type)
  | success (data : α)
  | error (code : ℤ)
  deriving DecidableEq, Repr

/-- `ServerCredentialsResponse`. -/
structure ServerCredentialsResponse where
  passwordEncoded : Option String
  userNameEncoded : Option String
  deriving DecidableEq, Repr

/-- `PortMapResponse.PortMap`. -/
structure PortMap where
  legacyPorts : Option (List String)
  ports : Option (List String)
  heading : Option String
  protocol : Option String
  use : Option String
  deriving DecidableEq, Repr

/-- `PortMapResponse.Suggested`. -/
structure Suggested where
  port : ℤ := 0
  protocol : Option String
  deriving DecidableEq, Repr

/-- `PortMapResponse`. -/
structure PortMapResponse where
  portmap : Option (List PortMap)
  suggested : Option Suggested
  deriving DecidableEq, Repr

/-- The preferences `update` reads and writes, the protocols in the order `AutoConnectionManager`
lists them, and how often it was reset and the session told to disconnect. -/
structure Store where
  openVpnServerConfig : Option String
  openVpnCredentials : Option ServerCredentialsResponse
  ikev2Credentials : Option ServerCredentialsResponse
  portMap : Option PortMapResponse
  portMapVersion : ℕ
  suggestedProtocol : Option String
  suggestedPort : Option String
  globalUserConnectionPreference : Bool
  isConnectingToConfigured : Bool
  listOfProtocols : List String
  resets : ℕ
  disconnects : ℕ
  deriving DecidableEq, Repr

/-- `NetworkErrorCodes.ERROR_UNABLE_TO_GENERATE_CREDENTIALS`. -/
def errorUnableToGenerateCredentials : ℤ := 1700

/-- `NetworkKeyConstants.PORT_MAP_VERSION`. -/
def portMapVersion : ℕ := 5

/-- An exception out of the handling of an answer, before its first write or after its last. -/
inductive Fault
  | early
  | late
  deriving DecidableEq, Repr

/-- What becomes of one of the four fetches. `Ext.result` turns an exception of the call itself into
an error. -/
inductive Attempt (α : Type)
  | cancelled
  | answered (result : CallResult α) (fault : Option Fault)
  deriving DecidableEq, Repr

/-- Why `update` does not get to its end. -/
inductive Stop
  | cancelled
  | thrown
  deriving DecidableEq, Repr

/-- The four fetches of one call. -/
structure Answers where
  serverConfig : Attempt String
  openVpnCreds : Attempt ServerCredentialsResponse
  ikev2Creds : Attempt ServerCredentialsResponse
  portMap : Attempt PortMapResponse
  deriving DecidableEq, Repr

/-! ### `update` -/

/-- A fetch that is answered is handled, unless an exception comes first. -/
def Attempt.run {α : Type} (attempt : Attempt α) (handle : CallResult α → Store → Store)
    (store : Store) : Store × Option Stop :=
  match attempt with
  | .cancelled => (store, some .cancelled)
  | .answered result none => (handle result store, none)
  | .answered _ (some .early) => (store, some .thrown)
  | .answered result (some .late) => (handle result store, some .thrown)

/-- The handling of the first three answers, which differ in where they save their data. -/
def handleCredential {α : Type} (save : α → Store → Store) :
    CallResult α → Store → Store
  | .success data, store => save data store
  | .error code, store =>
    if code = errorUnableToGenerateCredentials ∧ store.isConnectingToConfigured = false then
      { store with globalUserConnectionPreference := false, disconnects := store.disconnects + 1 }
    else store

def handleServerConfig : CallResult String → Store → Store :=
  handleCredential fun data store ↦ { store with openVpnServerConfig := some data }

def handleOpenVpnCreds : CallResult ServerCredentialsResponse → Store → Store :=
  handleCredential fun data store ↦ { store with openVpnCredentials := some data }

def handleIkev2Creds : CallResult ServerCredentialsResponse → Store → Store :=
  handleCredential fun data store ↦ { store with ikev2Credentials := some data }

/-- `saveSuggestedProtocolPort`. -/
def saveSuggestedProtocolPort (portMap : PortMapResponse) (store : Store) : Store :=
  match portMap.suggested with
  | some suggested =>
    let indexOfSuggestedProtocol := store.listOfProtocols.findIdx? (some · == suggested.protocol)
    { store with
      suggestedProtocol := suggested.protocol
      suggestedPort := some (toString suggested.port)
      resets := if indexOfSuggestedProtocol = some 0 then store.resets else store.resets + 1 }
  | none => { store with suggestedProtocol := none, suggestedPort := none }

def handlePortMap : CallResult PortMapResponse → Store → Store
  | .success data, store =>
    { saveSuggestedProtocolPort data store with
      portMap := some data
      portMapVersion := ConnectionDataRepository.portMapVersion }
  | .error _, store => store

/-- The next of the steps, unless an earlier one has stopped the call. -/
def andThen (x : Store × Option Stop) (next : Store → Store × Option Stop) : Store × Option Stop :=
  match x.2 with
  | none => next x.1
  | some _ => x

/-- The body of the `try` in `update`. -/
def fetchAll (answers : Answers) (store : Store) : Store × Option Stop :=
  andThen (andThen (andThen (answers.serverConfig.run handleServerConfig store)
    (answers.openVpnCreds.run handleOpenVpnCreds)) (answers.ikev2Creds.run handleIkev2Creds))
    (answers.portMap.run handlePortMap)

/-- What `update` returns; `none` is a cancellation, which it passes on. -/
def update (answers : Answers) (store : Store) : Store × Option Bool :=
  let x := fetchAll answers store
  (x.1,
    match x.2 with
    | none => some true
    | some .thrown => some false
    | some .cancelled => none)

/-! ### `SessionWorker` -/

/-- What becomes of `serverListRepository.update`. -/
inductive ListUpdate
  | succeeded
  | threw
  | cancelled
  deriving DecidableEq, Repr

/-- The entries of `whatChanged`. -/
structure Changed where
  alcList : Bool
  sip : Bool
  status : Bool
  migrationRequired : Bool
  emailStatus : Bool
  deriving DecidableEq, Repr

/-- `accountChanged` in `refreshConnectionInputs`. -/
def Changed.accountChanged (changed : Changed) : Bool :=
  changed.alcList || changed.status || changed.migrationRequired

/-- One session refresh: what has changed, the inventory of the session, and what the calls come
to. -/
structure Refresh where
  changed : Changed
  serverInventory : Option ServerInventory
  listUpdate : ListUpdate
  answers : Answers
  store : Store
  deriving DecidableEq, Repr

/-- `refreshConnectionInputs`; `none` is a cancellation, which it passes on. -/
def Refresh.refreshConnectionInputs (x : Refresh) : Option Bool :=
  let accountChanged := x.changed.accountChanged
  let serverListStale :=
    accountChanged || x.serverInventory.any ServerInventory.hasPendingDelta
  if !serverListStale && !accountChanged then some true
  else
    match if serverListStale then x.listUpdate else .succeeded with
    | .threw => some false
    | .cancelled => none
    | .succeeded =>
      if accountChanged then (update x.answers x.store).2.map fun _ ↦ true
      else some true

/-- Whether `updateIfRequired` runs `ReconnectAfterRefresh`. -/
def Refresh.reconnects (x : Refresh) : Bool := x.refreshConnectionInputs == some true

/-! ### The promise -/

/-- A fetch has brought a value. -/
def Attempt.brings {α : Type} (attempt : Attempt α) (stored : Option α) : Prop :=
  ∃ data fault, attempt = .answered (.success data) fault ∧ stored = some data

/-- Everything that is stored was obtained by these fetches. -/
structure Obtained (answers : Answers) (store : Store) : Prop where
  serverConfig : answers.serverConfig.brings store.openVpnServerConfig
  openVpnCreds : answers.openVpnCreds.brings store.openVpnCredentials
  ikev2Creds : answers.ikev2Creds.brings store.ikev2Credentials
  portMap : answers.portMap.brings store.portMap

/-- What `update` and the worker that runs it promise. -/
structure Trustworthy (x : Refresh) : Prop where
  update : (update x.answers x.store).2 = some true →
    Obtained x.answers (ConnectionDataRepository.update x.answers x.store).1
  reconnect : x.changed.accountChanged = true → x.reconnects = true →
    x.listUpdate = .succeeded ∧ (ConnectionDataRepository.update x.answers x.store).2 = some true

/-! ### When it is kept -/

/-- Why a fetch stops the call, if it does. -/
def Attempt.stop {α : Type} : Attempt α → Option Stop
  | .cancelled => some .cancelled
  | .answered _ none => none
  | .answered _ (some _) => some .thrown

/-- A fetch was answered with data. -/
def Attempt.succeeds {α : Type} : Attempt α → Bool
  | .answered (.success _) _ => true
  | .answered (.error _) _ | .cancelled => false

/-- What stops the call first, if anything does. -/
def Answers.stop (answers : Answers) : Option Stop :=
  answers.serverConfig.stop <|> answers.openVpnCreds.stop <|> answers.ikev2Creds.stop <|>
    answers.portMap.stop

/-- All four fetches were answered with data. -/
def Answers.succeed (answers : Answers) : Bool :=
  answers.serverConfig.succeeds && answers.openVpnCreds.succeeds && answers.ikev2Creds.succeeds &&
    answers.portMap.succeeds

/-- The condition: a call that nothing stops gets data from all four fetches, and no call that an
exception stops follows a server list update that succeeded after an account change. -/
structure Dependable (x : Refresh) : Prop where
  complete : x.answers.stop = none → x.answers.succeed = true
  unthrown : x.answers.stop = some .thrown → x.changed.accountChanged = true →
    x.listUpdate ≠ .succeeded

theorem run_stop {α : Type} (attempt : Attempt α) (handle : CallResult α → Store → Store)
    (store : Store) : (attempt.run handle store).2 = attempt.stop := by
  match attempt with
  | .cancelled => rfl
  | .answered _ none => rfl
  | .answered _ (some .early) => rfl
  | .answered _ (some .late) => rfl

theorem andThen_stop (x : Store × Option Stop) (next : Store → Store × Option Stop) :
    (andThen x next).2 = (x.2 <|> (next x.1).2) := by
  obtain ⟨store, stop⟩ := x
  cases stop <;> rfl

/-- The call is stopped by the first of its fetches that stops. -/
theorem fetchAll_stop (answers : Answers) (store : Store) :
    (fetchAll answers store).2 = answers.stop := by
  rw [fetchAll, andThen_stop, andThen_stop, andThen_stop, run_stop, run_stop, run_stop, run_stop,
    Answers.stop]
  cases answers.serverConfig.stop <;> cases answers.openVpnCreds.stop <;>
    cases answers.ikev2Creds.stop <;> rfl

/-- Nothing stops the call when none of its fetches does. -/
theorem answers_stop_eq_none (answers : Answers) :
    answers.stop = none ↔ answers.serverConfig.stop = none ∧ answers.openVpnCreds.stop = none ∧
      answers.ikev2Creds.stop = none ∧ answers.portMap.stop = none := by
  rw [Answers.stop]
  cases answers.serverConfig.stop <;> cases answers.openVpnCreds.stop <;>
    cases answers.ikev2Creds.stop <;> simp

/-- What `update` returns, by what stops it. -/
theorem update_returns (answers : Answers) (store : Store) :
    (update answers store).2 =
      match answers.stop with
      | none => some true
      | some .thrown => some false
      | some .cancelled => none := by
  rw [update, fetchAll_stop]

theorem update_true_iff (answers : Answers) (store : Store) :
    (update answers store).2 = some true ↔ answers.stop = none := by
  rw [update_returns]
  rcases answers.stop with _ | _ | _ <;> simp

theorem Attempt.succeeds_of_brings {α : Type} {attempt : Attempt α} {stored : Option α}
    (hbrings : attempt.brings stored) : attempt.succeeds = true := by
  obtain ⟨data, fault, rfl, -⟩ := hbrings
  rfl

/-- A fetch that brings data and does not stop the call. -/
theorem Attempt.eq_of_succeeds {α : Type} {attempt : Attempt α}
    (hsucceeds : attempt.succeeds = true) (hstop : attempt.stop = none) :
    ∃ data, attempt = .answered (.success data) none := by
  match attempt, hsucceeds, hstop with
  | .answered (.success data) none, _, _ => exact ⟨data, rfl⟩

/-- A call that nothing stops has obtained everything exactly when all its fetches brought data. -/
theorem obtained_iff (answers : Answers) (store : Store) (hstop : answers.stop = none) :
    Obtained answers (update answers store).1 ↔ answers.succeed = true := by
  constructor
  · intro hobtained
    rw [Answers.succeed, Attempt.succeeds_of_brings hobtained.serverConfig,
      Attempt.succeeds_of_brings hobtained.openVpnCreds,
      Attempt.succeeds_of_brings hobtained.ikev2Creds,
      Attempt.succeeds_of_brings hobtained.portMap]
    rfl
  · intro hsucceed
    obtain ⟨serverConfig, openVpnCreds, ikev2Creds, portMap⟩ := answers
    simp only [Answers.succeed, Bool.and_eq_true] at hsucceed
    have hstops := (answers_stop_eq_none _).mp hstop
    obtain ⟨config, rfl⟩ := Attempt.eq_of_succeeds hsucceed.1.1.1 hstops.1
    obtain ⟨openVpn, rfl⟩ := Attempt.eq_of_succeeds hsucceed.1.1.2 hstops.2.1
    obtain ⟨ikev2, rfl⟩ := Attempt.eq_of_succeeds hsucceed.1.2 hstops.2.2.1
    obtain ⟨ports, rfl⟩ := Attempt.eq_of_succeeds hsucceed.2 hstops.2.2.2
    have hkeeps : ∀ s : Store,
        (saveSuggestedProtocolPort ports s).openVpnServerConfig = s.openVpnServerConfig ∧
        (saveSuggestedProtocolPort ports s).openVpnCredentials = s.openVpnCredentials ∧
        (saveSuggestedProtocolPort ports s).ikev2Credentials = s.ikev2Credentials := by
      intro s
      rw [saveSuggestedProtocolPort]
      cases ports.suggested <;> exact ⟨rfl, rfl, rfl⟩
    exact ⟨⟨config, none, rfl, (hkeeps _).1⟩, ⟨openVpn, none, rfl, (hkeeps _).2.1⟩,
      ⟨ikev2, none, rfl, (hkeeps _).2.2⟩, ⟨ports, none, rfl, rfl⟩⟩

/-- After an account change the worker reconnects exactly when the server list update has succeeded
and nobody has cancelled the other. -/
theorem reconnects_iff (x : Refresh) (hchanged : x.changed.accountChanged = true) :
    x.reconnects = true ↔ x.listUpdate = .succeeded ∧ x.answers.stop ≠ some .cancelled := by
  rw [Refresh.reconnects, beq_iff_eq, Refresh.refreshConnectionInputs, hchanged]
  simp only [Bool.true_or, Bool.not_true, Bool.and_self, Bool.false_eq_true, if_false, if_true,
    update_returns]
  cases x.listUpdate <;> rcases x.answers.stop with _ | _ | _ <;> simp

/-- The promise is kept for exactly the dependable refreshes. -/
theorem trustworthy_iff (x : Refresh) : Trustworthy x ↔ Dependable x := by
  constructor
  · intro htrust
    refine ⟨fun hstop ↦ ?_, fun hthrown hchanged hlist ↦ ?_⟩
    · have hobtained := htrust.update ((update_true_iff _ _).mpr hstop)
      exact (obtained_iff _ _ hstop).mp hobtained
    · have hreconnects : x.reconnects = true := by
        rw [reconnects_iff x hchanged, hthrown]
        exact ⟨hlist, nofun⟩
      have hstop := (update_true_iff _ _).mp (htrust.reconnect hchanged hreconnects).2
      rw [hthrown] at hstop
      cases hstop
  · intro hdependable
    refine ⟨fun htrue ↦ ?_, fun hchanged hreconnects ↦ ?_⟩
    · have hstop := (update_true_iff _ _).mp htrue
      exact (obtained_iff _ _ hstop).mpr (hdependable.complete hstop)
    · obtain ⟨hlist, hcancelled⟩ := (reconnects_iff x hchanged).mp hreconnects
      refine ⟨hlist, (update_true_iff _ _).mpr ?_⟩
      rcases hstop : x.answers.stop with _ | _ | _
      · rfl
      · exact absurd hstop hcancelled
      · exact absurd hlist (hdependable.unthrown hstop hchanged)

/-- Every fetch answers with the error of a lost network. The old server config stays, and `update`
says that it was refreshed. -/
theorem not_trustworthy_error : ¬ ∀ x : Refresh, Trustworthy x := by
  intro hpromise
  let failed : Refresh :=
    { changed := ⟨false, false, true, false, false⟩
      serverInventory := none
      listUpdate := .succeeded
      answers :=
        ⟨.answered (.error 2) none, .answered (.error 2) none, .answered (.error 2) none,
          .answered (.error 2) none⟩
      store := ⟨some "Y2xpZW50", none, none, none, 0, none, none, true, false, ["wg"], 0, 0⟩ }
  obtain ⟨data, fault, hanswer, -⟩ := ((hpromise failed).update rfl).serverConfig
  cases hanswer

end WindscribeVpn.Repository.ConnectionDataRepository
