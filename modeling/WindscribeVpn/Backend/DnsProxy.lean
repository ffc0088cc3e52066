import WindscribeVpn.Backend.VPNProfileCreator
import WindscribeVpn.Foundations.Runs

/-!
# The DNS proxy

`ProxyDNSManager.kt` runs ctrld in one coroutine, with the configuration that the file holds when it
starts.
`startControlDIfRequired`, called by every connect, starts it or stops it; it leaves a ctrld that
runs alone. `stopControlD` is called by a disconnect that finds `invalidConfig`, by a start that
failed, and by the settings screen, whose change of the address sets `invalidConfig` and stops ctrld
in a coroutine of its own unless the published state is `Connected`. `dnsDetails` are set by the
profile builds (`setCustomDNS`). Of `CdLib` the model has that `startCd` returns when ctrld has
stopped, and that `stopCd` makes it stop.

`Served` is the promise: from the return of `startControlDIfRequired` to the next disconnect or
change of the settings ctrld runs exactly when the DNS type is `Proxy` in custom mode, with the
address and the IP of `dnsDetails` and on the port of `getListenPort`; and the proxy of a session is
not stopped before the disconnect. `not_served_early` is a run that breaks it: the settings change
while the session connects. `not_served_stale` is another, a host that resolves to another address
at the next connect. `Undisturbed` is the condition under which neither happens, and
`served_of_undisturbed` proves the promise for every run whose steps all meet it.
-/

set_option autoImplicit false
set_option relaxedAutoImplicit false

namespace WindscribeVpn.Backend.DnsProxy

open Foundations.Runs
open VPNProfileCreator (DNSDetails DnsType)

/-! ### The manager -/

/-- What `updateControlDConfig` writes into `config.toml`. -/
structure Config where
  bootstrapIp : String
  endpoint : String
  port : ℕ
  deriving DecidableEq, Repr

/-- The configuration for the details of a session. -/
def config (details : DNSDetails) (port : ℕ) : Config where
  bootstrapIp := details.ip.getD ""
  endpoint := details.address.getD ""
  port := port

/-- The coroutine in `controlDJob`, while it is active. -/
inductive Job
  /-- Before `isRunning.set(true)`. -/
  | launched
  /-- In `startCd`, with the configuration that ctrld has read. ctrld has bound its port when it is
  `listening`, and `stopCd` was called when it is `stopping`. -/
  | running (config : Config) (listening stopping : Bool)
  deriving DecidableEq, Repr

/-- `stopCd`. -/
def Job.stopCd : Job → Job
  | .launched => .launched
  | .running config listening _ => .running config listening true

/-- Where `startControlDIfRequired` is. -/
inductive Start
  /-- Before `updateControlDConfig`. -/
  | configuring
  /-- Behind it, until the previous job has ended. -/
  | joining
  /-- In `waitForControlDReady`. -/
  | waiting
  /-- In `stopControlD`, behind `stopCd`: to throw if the start failed, else to return. -/
  | stopping (failed : Bool)
  deriving DecidableEq, Repr

/-- Where a `stopControlD` of a disconnect or of the settings screen is. -/
inductive Stop
  /-- Before it looks at `isRunning`. -/
  | called
  /-- Behind `stopCd`, until the job has ended. -/
  | joining
  /-- Before `invalidConfig = false`. -/
  | joined
  deriving DecidableEq, Repr

/-- The job has ended. -/
def Stop.release : Stop → Stop
  | .joining => .joined
  | stop => stop

/-- The manager with the coroutines that use it. `isRunning` of the source is set for as long as the
job is in `startCd`. The last three fields are history: a disconnect has begun since the last start
(`ended`), `startControlDIfRequired` has returned and no disconnect or change of the settings has
come since (`settled`), and it has returned with a proxy for a session that goes on (`needed`). -/
structure ProxyDNSManager where
  dnsModeCustom : Bool
  dnsAddress : Option String
  dnsDetails : Option DNSDetails
  invalidConfig : Bool
  activePort : ℕ
  configFile : Config
  controlDJob : Option Job
  start : Option Start
  stops : List Stop
  isVPNConnected : Bool
  ended : Bool
  settled : Bool
  needed : Bool
  deriving DecidableEq, Repr

namespace ProxyDNSManager

/-- The manager when the process starts. -/
def initial (dnsModeCustom : Bool) (dnsAddress : Option String) (configFile : Config) :
    ProxyDNSManager where
  dnsModeCustom := dnsModeCustom
  dnsAddress := dnsAddress
  dnsDetails := none
  invalidConfig := false
  activePort := 5355
  configFile := configFile
  controlDJob := none
  start := none
  stops := []
  isVPNConnected := false
  ended := false
  settled := false
  needed := false

variable (m : ProxyDNSManager)

/-- `getListenPort`. -/
def getListenPort : ℕ := m.activePort

/-- `isRunning`. -/
def isRunning : Bool :=
  match m.controlDJob with
  | some (.running _ _ _) => true
  | some .launched | none => false

/-- The DNS type is `Proxy`. -/
def isProxy : Bool := m.dnsDetails.any fun details ↦ details.type == .proxy

/-- `shouldRunControlD`. -/
def shouldRunControlD : Bool := m.isProxy && m.dnsModeCustom && m.dnsAddress.isSome

/-- `updateControlDConfig` with the port that `findAvailablePort` returns. Without one it throws. -/
def updateControlDConfig (port : Option ℕ) : Option ProxyDNSManager :=
  match m.dnsDetails with
  | some details =>
    if details.type = .proxy then
      port.map fun port ↦
        { m with activePort := port, configFile := config details port, invalidConfig := false }
    else some { m with invalidConfig := false }
  | none => some { m with invalidConfig := false }

/-- `startControlDIfRequired` returns. -/
def returned : ProxyDNSManager :=
  { m with start := none, settled := !m.ended, needed := !m.ended && m.shouldRunControlD }

/-- `startControlDIfRequired`, up to where it suspends. -/
def startControlDIfRequired : ProxyDNSManager :=
  let m := { m with ended := false, settled := false, needed := false }
  if m.shouldRunControlD && !m.isRunning then { m with start := some .configuring }
  else if !m.shouldRunControlD && m.isRunning then
    { m with
      start := some (.stopping false)
      controlDJob := m.controlDJob.map Job.stopCd }
  else m.returned

/-- `stopControlD` at the end of a `waitForControlDReady` that failed. -/
def giveUp : ProxyDNSManager :=
  if m.isRunning then
    { m with
      start := some (.stopping true)
      controlDJob := m.controlDJob.map Job.stopCd }
  else { m with start := none }

/-- The start is behind the `join` of its `stopControlD`. -/
def stopped (failed : Bool) : ProxyDNSManager :=
  let m := { m with invalidConfig := false }
  if failed then { m with start := none } else m.returned

/-- A disconnect of a backend, up to its `stopControlD`. -/
def disconnect : ProxyDNSManager :=
  { m with
    stops := if m.invalidConfig then m.stops ++ [.called] else m.stops
    ended := true
    settled := false
    needed := false }

/-- `saveCustomDNSAddress`, for another address than the stored one. -/
def saveCustomDNSAddress (address : String) : ProxyDNSManager :=
  { m with
    dnsAddress := some address
    invalidConfig := true
    stops := if m.isVPNConnected then m.stops else m.stops ++ [.called]
    settled := false }

/-- A `stopControlD` looks at `isRunning`. -/
def stopControlD (i : ℕ) : ProxyDNSManager :=
  if m.isRunning then
    { m with stops := m.stops.set i .joining, controlDJob := m.controlDJob.map Job.stopCd }
  else { m with stops := m.stops.eraseIdx i }

end ProxyDNSManager

/-- A step of one party. -/
inductive Action
  /-- A profile build sets the details. -/
  | setDnsDetails (details : DNSDetails)
  /-- A connect calls `startControlDIfRequired`. -/
  | startControlDIfRequired
  /-- The start writes the file. -/
  | configure (port : Option ℕ)
  /-- The start launches the job. -/
  | launch
  /-- The job calls `startCd`, and ctrld reads the file. -/
  | begin
  /-- ctrld binds its port. -/
  | listen
  /-- ctrld has stopped: it was told to, or it could not start. -/
  | exit
  /-- The start finds its port taken, by ctrld or by somebody else. -/
  | ready (takenByOther : Bool)
  /-- The start has polled for too long. -/
  | giveUp
  /-- The `stopControlD` of the start is over. -/
  | stopped
  /-- A disconnect begins. -/
  | disconnect
  /-- The disconnect cancels the start. -/
  | cancelEngineStart
  /-- The user chooses a DNS mode. -/
  | setDnsMode (custom : Bool)
  /-- The user saves an address. -/
  | saveCustomDNSAddress (address : String)
  /-- A `stopControlD` looks at `isRunning`. -/
  | stop (i : ℕ)
  /-- A `stopControlD` is over. -/
  | clear (i : ℕ)
  /-- The published state becomes `Connected`, or something else. -/
  | setConnected (connected : Bool)
  deriving DecidableEq, Repr

/-- One step, or nothing when it cannot be taken now. -/
def step (m : ProxyDNSManager) : Action → Option ProxyDNSManager
  | .setDnsDetails details => some { m with dnsDetails := some details }
  | .startControlDIfRequired => if m.start = none then some m.startControlDIfRequired else none
  | .configure port =>
    if m.start = some .configuring then
      match m.updateControlDConfig port with
      | some m => some { m with start := some .joining }
      | none => some { m with start := none }
    else none
  | .launch =>
    if m.start = some .joining ∧ m.controlDJob = none then
      some { m with start := some .waiting, controlDJob := some .launched }
    else none
  | .begin =>
    if m.controlDJob = some .launched then
      some { m with controlDJob := some (.running m.configFile false false) }
    else none
  | .listen =>
    match m.controlDJob with
    | some (.running config false stopping) =>
      some { m with controlDJob := some (.running config true stopping) }
    | _ => none
  | .exit =>
    match m.controlDJob with
    | some (.running _ listening stopping) =>
      if listening = true ∧ stopping = false then none
      else some { m with controlDJob := none, stops := m.stops.map Stop.release }
    | _ => none
  | .ready takenByOther =>
    match m.controlDJob with
    | some (.running config listening _) =>
      if m.start = some .waiting ∧
          (takenByOther = true ∨ listening = true ∧ config.port = m.activePort) then
        some m.returned
      else none
    | _ => none
  | .giveUp => if m.start = some .waiting then some m.giveUp else none
  | .stopped =>
    match m.start with
    | some (.stopping failed) => if m.controlDJob = none then some (m.stopped failed) else none
    | _ => none
  | .disconnect => some m.disconnect
  | .cancelEngineStart => some { m with start := none }
  | .setDnsMode custom => some { m with dnsModeCustom := custom, settled := false }
  | .saveCustomDNSAddress address =>
    if m.dnsAddress = some address then none else some (m.saveCustomDNSAddress address)
  | .stop i => if m.stops[i]? = some .called then some (m.stopControlD i) else none
  | .clear i =>
    if m.stops[i]? = some .joined then
      some { m with stops := m.stops.eraseIdx i, invalidConfig := false }
    else none
  | .setConnected connected => some { m with isVPNConnected := connected }

/-! ### The promise -/

/-- The configuration of a ctrld that listens, and was not told to stop. -/
def ProxyDNSManager.serving (m : ProxyDNSManager) : Option Config :=
  match m.controlDJob with
  | some (.running config true false) => some config
  | _ => none

/-- What is promised of the proxy. -/
structure Served (m : ProxyDNSManager) : Prop where
  running : m.settled = true → (m.isRunning = true ↔ m.isProxy = true ∧ m.dnsModeCustom = true)
  configured : m.settled = true → m.dnsModeCustom = true → ∀ details, m.dnsDetails = some details →
    details.type = .proxy → m.serving = some (config details m.getListenPort)
  session : m.needed = true → m.serving ≠ none

/-- The configuration that ctrld runs with or is about to read. -/
def ProxyDNSManager.current (m : ProxyDNSManager) : Option Config :=
  match m.controlDJob with
  | some .launched => some m.configFile
  | some (.running config _ false) => some config
  | some (.running _ _ true) | none => none

/-- A job that a start may leave alone. -/
def ProxyDNSManager.isAtRest (m : ProxyDNSManager) : Bool :=
  match m.controlDJob with
  | some .launched => false
  | some (.running _ listening stopping) => !m.shouldRunControlD || (listening && !stopping)
  | none => true

/-- A configuration has the address and the IP of the details, if they ask for a proxy. -/
def matchesDetails (config : Config) (details : DNSDetails) : Bool :=
  details.type != .proxy ||
    (config.bootstrapIp == details.ip.getD "" && config.endpoint == details.address.getD "")

/-- The steps under which a start finds ctrld as the last one left it or stopped, and nobody stops
it under a session. -/
def Undisturbed (m : ProxyDNSManager) : Action → Prop
  /- A ctrld that goes on running fits the details that are set. They are not set during a start,
  nor while its outcome stands. -/
  | .setDnsDetails details =>
    m.start = none ∧ m.settled = false ∧
      m.current.all (fun config ↦ matchesDetails config details) = true
  /- A start begins when no `stopControlD` is under way, and ctrld has stopped or listens. A proxy
  has an address. -/
  | .startControlDIfRequired =>
    m.stops = [] ∧ m.isAtRest = true ∧ (m.isProxy = true → m.dnsAddress.isSome = true)
  /- Nobody else listens on its port. -/
  | .ready takenByOther => takenByOther = false
  /- The settings change outside a start. -/
  | .setDnsMode _ => m.start = none
  /- The address changes while the session is up, or while there is none with a proxy. -/
  | .saveCustomDNSAddress _ => m.start = none ∧ (m.isVPNConnected = true ∨ m.needed = false)
  | .configure _ | .launch | .begin | .listen | .exit | .giveUp | .stopped | .disconnect
  | .cancelEngineStart | .stop _ | .clear _ | .setConnected _ => True

instance decidableUndisturbed (m : ProxyDNSManager) : (a : Action) → Decidable (Undisturbed m a)
  | .setDnsDetails _ => inferInstanceAs (Decidable (_ = _ ∧ _ = _ ∧ _ = _))
  | .startControlDIfRequired => inferInstanceAs (Decidable (_ = _ ∧ _ = _ ∧ (_ = _ → _ = _)))
  | .ready _ => inferInstanceAs (Decidable (_ = _))
  | .setDnsMode _ => inferInstanceAs (Decidable (_ = _))
  | .saveCustomDNSAddress _ => inferInstanceAs (Decidable (_ = _ ∧ (_ = _ ∨ _ = _)))
  | .configure _ | .launch | .begin | .listen | .exit | .giveUp | .stopped | .disconnect
  | .cancelEngineStart | .stop _ | .clear _ | .setConnected _ => inferInstanceAs (Decidable True)

/-! ### What an undisturbed run keeps -/

section Run

variable {m after : ProxyDNSManager}

/-- A configuration fits the port and the details that are set. -/
def ProxyDNSManager.Fits (m : ProxyDNSManager) (config : Config) : Prop :=
  config.port = m.activePort ∧
    ∀ details, m.dnsDetails = some details → matchesDetails config details = true

/-- The settings ask for a proxy. -/
def ProxyDNSManager.asksForProxy (m : ProxyDNSManager) : Bool := m.isProxy && m.dnsModeCustom

/-- What holds of the job and of the start. -/
structure Proper (m : ProxyDNSManager) : Prop where
  fits : ∀ config, m.current = some config → m.Fits config
  preparing : m.start = some .configuring ∨ m.start = some .joining → m.controlDJob = none
  joining : m.start = some .joining → m.Fits m.configFile
  required : m.start = some .configuring ∨ m.start = some .joining ∨ m.start = some .waiting →
    m.shouldRunControlD = true
  unrequired : m.start = some (.stopping false) → m.asksForProxy = false
  steady : m.start = some .waiting → m.ended = false → ∀ config listening,
    m.controlDJob ≠ some (.running config listening true)
  alone : m.start ≠ none → m.ended = false → m.stops = []

/-- The invariant of the undisturbed runs. -/
structure Inv (m : ProxyDNSManager) : Prop extends Proper m where
  resting : m.settled = true ∨ m.needed = true → m.start = none ∧ m.stops = []
  served : m.settled = true → m.asksForProxy = true → m.serving ≠ none
  unserved : m.settled = true → m.asksForProxy = false → m.controlDJob = none
  needed : m.needed = true → m.serving ≠ none

theorem asksForProxy_of_shouldRunControlD (hrequired : m.shouldRunControlD = true) :
    m.asksForProxy = true :=
  (Bool.and_eq_true _ _ |>.mp hrequired).1

theorem asksForProxy_eq_false (hrequired : m.shouldRunControlD = false)
    (haddress : m.isProxy = true → m.dnsAddress.isSome = true) : m.asksForProxy = false := by
  by_contra hasks
  rw [Bool.not_eq_false] at hasks
  have hsome := haddress (Bool.and_eq_true _ _ |>.mp hasks).1
  rw [ProxyDNSManager.shouldRunControlD, hsome, Bool.and_true] at hrequired
  exact absurd (hrequired.symm.trans hasks) nofun

/-- A ctrld that serves reads no other configuration. -/
theorem current_of_serving {config : Config} (hserving : m.serving = some config) :
    m.current = some config := by
  unfold ProxyDNSManager.serving at hserving
  split at hserving
  · rename_i hjob
    rw [ProxyDNSManager.current, hjob]
    exact hserving
  · cases hserving

/-- A job that serves is in `startCd`, listens and was not told to stop. -/
theorem job_of_serving (hserving : m.serving ≠ none) :
    ∃ config, m.controlDJob = some (.running config true false) := by
  unfold ProxyDNSManager.serving at hserving
  split at hserving
  · rename_i config hjob
    exact ⟨config, hjob⟩
  · exact absurd rfl hserving

theorem serving_of_job {config : Config}
    (hjob : m.controlDJob = some (.running config true false)) : m.serving ≠ none := by
  rw [ProxyDNSManager.serving, hjob]
  nofun

/-- No job is left that was told to stop, and none is about to read its configuration. -/
theorem current_stopCd (hrunning : m.isRunning = true) :
    ({ m with controlDJob := m.controlDJob.map Job.stopCd } : ProxyDNSManager).current = none := by
  unfold ProxyDNSManager.isRunning at hrunning
  split at hrunning
  · rename_i hjob
    rw [ProxyDNSManager.current, hjob]
    rfl
  · cases hrunning
  · cases hrunning

/-- No outcome stands where one would be absurd. -/
theorem unsettled_of_not (houtcome : ¬ (m.settled = true ∨ m.needed = true)) :
    m.settled = false ∧ m.needed = false := by
  rwa [not_or, Bool.not_eq_true, Bool.not_eq_true] at houtcome

/-- A start that has not returned comes with no outcome. -/
theorem Inv.unsettled (hinv : Inv m) {start : Start} (hstart : m.start = some start) :
    m.settled = false ∧ m.needed = false :=
  unsettled_of_not fun houtcome ↦ absurd (hstart.symm.trans (hinv.resting houtcome).1) nofun

/-- A start of a session that goes on is alone. -/
theorem Proper.alone_of_some (hproper : Proper m) {start : Start} (hstart : m.start = some start)
    (hended : m.ended = false) : m.stops = [] :=
  hproper.alone (Option.ne_none_iff_exists'.mpr ⟨start, hstart⟩) hended

/-- A `stopControlD` under way leaves no outcome, and no start but of an ended session. -/
theorem Inv.unsettled_of_stops (hinv : Inv m) (hstops : m.stops ≠ []) :
    m.settled = false ∧ m.needed = false ∧ (m.start ≠ none → m.ended = true) := by
  obtain ⟨hsettled, hneeded⟩ :=
    unsettled_of_not fun houtcome ↦ hstops (hinv.resting houtcome).2
  refine ⟨hsettled, hneeded, fun hstart ↦ ?_⟩
  by_contra hended
  exact hstops (hinv.alone hstart (Bool.not_eq_true _ |>.mp hended))

/-- No start is under way. -/
theorem Proper.of_idle (hfits : ∀ config, after.current = some config → after.Fits config)
    (hstart : after.start = none) : Proper after where
  fits := hfits
  preparing hsome := by rw [hstart] at hsome; rcases hsome with hsome | hsome <;> cases hsome
  joining hsome := absurd (hstart.symm.trans hsome) nofun
  required hsome := by rw [hstart] at hsome; rcases hsome with hsome | hsome | hsome <;> cases hsome
  unrequired hsome := absurd (hstart.symm.trans hsome) nofun
  steady hsome := absurd (hstart.symm.trans hsome) nofun
  alone hsome := absurd hstart hsome

/-- A start is about to launch the job. -/
theorem Proper.of_preparing {start : Start} (hstart : after.start = some start)
    (hpreparing : start = .configuring ∨ start = .joining) (hjob : after.controlDJob = none)
    (hfile : start = .joining → after.Fits after.configFile)
    (hrequired : after.shouldRunControlD = true) (hstops : after.ended = false → after.stops = []) :
    Proper after where
  fits config hcurrent := by rw [ProxyDNSManager.current, hjob] at hcurrent; cases hcurrent
  preparing _ := hjob
  joining hsome := hfile (Option.some.inj (hstart.symm.trans hsome))
  required _ := hrequired
  unrequired hsome := by
    rw [hstart, Option.some.injEq] at hsome
    rcases hpreparing with rfl | rfl <;> cases hsome
  steady hsome := by
    rw [hstart, Option.some.injEq] at hsome
    rcases hpreparing with rfl | rfl <;> cases hsome
  alone _ := hstops

/-- A start waits for ctrld. -/
theorem Proper.of_waiting (hstart : after.start = some .waiting)
    (hfits : ∀ config, after.current = some config → after.Fits config)
    (hrequired : after.shouldRunControlD = true)
    (hsteady : after.ended = false → ∀ config listening,
      after.controlDJob ≠ some (.running config listening true))
    (hstops : after.ended = false → after.stops = []) : Proper after where
  fits := hfits
  preparing hsome := by rw [hstart] at hsome; rcases hsome with hsome | hsome <;> cases hsome
  joining hsome := by rw [hstart] at hsome; cases hsome
  required _ := hrequired
  unrequired hsome := by rw [hstart] at hsome; cases hsome
  steady _ := hsteady
  alone _ := hstops

/-- A start stops ctrld. -/
theorem Proper.of_stopping {failed : Bool} (hstart : after.start = some (.stopping failed))
    (hcurrent : after.current = none) (hunrequired : failed = false → after.asksForProxy = false)
    (hstops : after.ended = false → after.stops = []) : Proper after where
  fits config hconfig := absurd (hcurrent.symm.trans hconfig) nofun
  preparing hsome := by rw [hstart] at hsome; rcases hsome with hsome | hsome <;> cases hsome
  joining hsome := by rw [hstart] at hsome; cases hsome
  required hsome := by rw [hstart] at hsome; rcases hsome with hsome | hsome | hsome <;> cases hsome
  unrequired hsome := by
    rw [hstart] at hsome
    cases hsome
    exact hunrequired rfl
  steady hsome := by rw [hstart] at hsome; cases hsome
  alone _ := hstops

/-- The outcome of no start stands, but a session may go on with its proxy. -/
theorem Inv.of_session (hproper : Proper after) (hsettled : after.settled = false)
    (hneeded : after.needed = true →
      after.start = none ∧ after.stops = [] ∧ after.serving ≠ none) : Inv after where
  toProper := hproper
  resting houtcome := by
    rcases houtcome with hset | hset
    · exact absurd (hsettled.symm.trans hset) nofun
    · exact ⟨(hneeded hset).1, (hneeded hset).2.1⟩
  served hset := absurd (hsettled.symm.trans hset) nofun
  unserved hset := absurd (hsettled.symm.trans hset) nofun
  needed hset := (hneeded hset).2.2

/-- No session has a proxy. -/
theorem Inv.of_unsettled (hproper : Proper after) (hsettled : after.settled = false)
    (hneeded : after.needed = false) : Inv after :=
  .of_session hproper hsettled fun hset ↦ absurd (hneeded.symm.trans hset) nofun

/-- `startControlDIfRequired` returns: with ctrld serving if it is required, and with no job if it
is not asked for. Behind a disconnect the return counts for nothing. -/
theorem Inv.returned (hfits : ∀ config, m.current = some config → m.Fits config)
    (hstops : m.ended = false → m.stops = [])
    (hserved : m.ended = false → m.asksForProxy = true → m.serving ≠ none)
    (hunserved : m.ended = false → m.asksForProxy = false → m.controlDJob = none) :
    Inv m.returned where
  toProper := .of_idle hfits rfl
  resting houtcome := by
    refine ⟨rfl, hstops ?_⟩
    rcases houtcome with hset | hset
    · exact Bool.not_eq_true' _ |>.mp hset
    · exact Bool.not_eq_true' _ |>.mp (Bool.and_eq_true _ _ |>.mp hset).1
  served hset := hserved (Bool.not_eq_true' _ |>.mp hset)
  unserved hset := hunserved (Bool.not_eq_true' _ |>.mp hset)
  needed hset := by
    obtain ⟨hended, hrequired⟩ := Bool.and_eq_true _ _ |>.mp hset
    exact hserved (Bool.not_eq_true' _ |>.mp hended) (asksForProxy_of_shouldRunControlD hrequired)

/-! #### The start -/

/-- A job at rest that is not in `startCd` is none. -/
theorem job_eq_none (hrest : m.isAtRest = true) (hidle : m.isRunning = false) :
    m.controlDJob = none := by
  rcases hjob : m.controlDJob with _ | (_ | ⟨config, listening, stopping⟩)
  · rfl
  · rw [ProxyDNSManager.isAtRest, hjob] at hrest
    cases hrest
  · rw [ProxyDNSManager.isRunning, hjob] at hidle
    cases hidle

/-- A job at rest that is required and in `startCd` serves. -/
theorem serving_of_isAtRest (hrest : m.isAtRest = true) (hrunning : m.isRunning = true)
    (hrequired : m.shouldRunControlD = true) : m.serving ≠ none := by
  rcases hjob : m.controlDJob with _ | (_ | ⟨config, listening, stopping⟩)
  · rw [ProxyDNSManager.isRunning, hjob] at hrunning
    cases hrunning
  · rw [ProxyDNSManager.isRunning, hjob] at hrunning
    cases hrunning
  · rw [ProxyDNSManager.isAtRest, hjob] at hrest
    dsimp only at hrest
    rw [hrequired, Bool.not_true, Bool.false_or, Bool.and_eq_true, Bool.not_eq_true'] at hrest
    obtain ⟨rfl, rfl⟩ := hrest
    exact serving_of_job hjob

/-- `startControlDIfRequired` finds ctrld as the last start left it, or stopped. -/
theorem Inv.startControlDIfRequired (hinv : Inv m) (hstops : m.stops = [])
    (hrest : m.isAtRest = true) (haddress : m.isProxy = true → m.dnsAddress.isSome = true) :
    Inv m.startControlDIfRequired := by
  unfold ProxyDNSManager.startControlDIfRequired
  dsimp only
  split_ifs with hstart hstop
  · obtain ⟨hrequired, hidle⟩ := Bool.and_eq_true _ _ |>.mp hstart
    refine .of_unsettled (.of_preparing rfl (Or.inl rfl) ?_ nofun hrequired fun _ ↦ hstops) rfl rfl
    exact job_eq_none hrest (Bool.not_eq_true' _ |>.mp hidle)
  · obtain ⟨hrequired, hrunning⟩ := Bool.and_eq_true _ _ |>.mp hstop
    refine .of_unsettled (.of_stopping rfl (current_stopCd hrunning) (fun _ ↦ ?_) fun _ ↦ hstops)
      rfl rfl
    exact asksForProxy_eq_false (Bool.not_eq_true' _ |>.mp hrequired) haddress
  · change ¬ (m.shouldRunControlD && !m.isRunning) = true at hstart
    change ¬ (!m.shouldRunControlD && m.isRunning) = true at hstop
    refine Inv.returned (m := { m with ended := false, settled := false, needed := false })
      hinv.fits (fun _ ↦ hstops) (fun _ hasks ↦ ?_) (fun _ hasks ↦ ?_)
    · have hrequired : m.shouldRunControlD = true := by
        refine Bool.and_eq_true _ _ |>.mpr ⟨hasks, haddress (Bool.and_eq_true _ _ |>.mp hasks).1⟩
      rw [hrequired, Bool.true_and, Bool.not_eq_true', Bool.not_eq_false] at hstart
      exact serving_of_isAtRest hrest hstart hrequired
    · have hrequired : m.shouldRunControlD = false := by
        by_contra hrequired
        rw [Bool.not_eq_false] at hrequired
        exact absurd (hasks.symm.trans (asksForProxy_of_shouldRunControlD hrequired)) nofun
      rw [hrequired, Bool.not_false, Bool.true_and, Bool.not_eq_true] at hstop
      exact job_eq_none hrest hstop

/-- `updateControlDConfig` for a proxy writes the details that are set, with its port. -/
theorem updateControlDConfig_eq (hproxy : m.isProxy = true) (port : Option ℕ) :
    ∃ details, m.dnsDetails = some details ∧ m.updateControlDConfig port = port.map fun port ↦
      { m with activePort := port, configFile := config details port, invalidConfig := false } := by
  obtain ⟨details, hdetails, htype⟩ := Option.any_eq_true _ _ |>.mp hproxy
  refine ⟨details, hdetails, ?_⟩
  rw [ProxyDNSManager.updateControlDConfig, hdetails]
  exact if_pos (beq_iff_eq.mp htype)

theorem matchesDetails_config (details : DNSDetails) (port : ℕ) :
    matchesDetails (config details port) details = true := by
  rw [matchesDetails, config, beq_self_eq_true, beq_self_eq_true, Bool.and_true, Bool.or_true]

/-- The start writes the file, or throws. -/
theorem Inv.configure (hinv : Inv m) (hstart : m.start = some .configuring) {port : Option ℕ}
    (hconfigure : (match m.updateControlDConfig port with
      | some m => some { m with start := some .joining }
      | none => some { m with start := none }) = some after) : Inv after := by
  obtain ⟨hsettled, hneeded⟩ := hinv.unsettled hstart
  have hrequired := hinv.required (Or.inl hstart)
  have hproxy : m.isProxy = true :=
    (Bool.and_eq_true _ _ |>.mp (asksForProxy_of_shouldRunControlD hrequired)).1
  obtain ⟨details, hdetails, hupdate⟩ := updateControlDConfig_eq hproxy port
  rw [hupdate] at hconfigure
  rcases port with _ | port
  · cases hconfigure
    exact .of_unsettled (.of_idle hinv.fits rfl) hsettled hneeded
  · cases hconfigure
    refine .of_unsettled (.of_preparing rfl (Or.inr rfl) (hinv.preparing (Or.inl hstart))
      (fun _ ↦ ?_) hrequired (hinv.alone_of_some hstart)) hsettled hneeded
    refine ⟨rfl, fun other hother ↦ ?_⟩
    obtain rfl := Option.some.inj (hdetails.symm.trans hother)
    exact matchesDetails_config details port

/-- The start launches the job. -/
theorem Inv.launch (hinv : Inv m) (hstart : m.start = some .joining) :
    Inv { m with start := some .waiting, controlDJob := some .launched } := by
  obtain ⟨hsettled, hneeded⟩ := hinv.unsettled hstart
  refine .of_unsettled (.of_waiting rfl ?_ (hinv.required (Or.inr (Or.inl hstart))) nofun
    (hinv.alone_of_some hstart)) hsettled hneeded
  rintro config ⟨⟩
  exact hinv.joining hstart

/-- The start finds its port taken by ctrld. -/
theorem Inv.ready (hinv : Inv m) (hstart : m.start = some .waiting) {config : Config}
    {stopping : Bool} (hjob : m.controlDJob = some (.running config true stopping)) :
    Inv m.returned := by
  have hrequired := hinv.required (Or.inr (Or.inr hstart))
  refine .returned hinv.fits (hinv.alone_of_some hstart) (fun hended _ ↦ ?_)
    (fun _ hasks ↦ ?_)
  · rcases stopping with _ | _
    · exact serving_of_job hjob
    · exact absurd hjob (hinv.steady hstart hended config true)
  · exact absurd (hasks.symm.trans (asksForProxy_of_shouldRunControlD hrequired)) nofun

/-- The start has polled for too long. -/
theorem Inv.giveUp (hinv : Inv m) (hstart : m.start = some .waiting) : Inv m.giveUp := by
  obtain ⟨hsettled, hneeded⟩ := hinv.unsettled hstart
  unfold ProxyDNSManager.giveUp
  split_ifs with hrunning
  · exact .of_unsettled
      (.of_stopping rfl (current_stopCd hrunning) nofun (hinv.alone_of_some hstart))
      hsettled hneeded
  · exact .of_unsettled (.of_idle hinv.fits rfl) hsettled hneeded

/-- The `stopControlD` of a start is over. -/
theorem Inv.stopped (hinv : Inv m) {failed : Bool} (hstart : m.start = some (.stopping failed))
    (hjob : m.controlDJob = none) : Inv (m.stopped failed) := by
  obtain ⟨hsettled, hneeded⟩ := hinv.unsettled hstart
  unfold ProxyDNSManager.stopped
  rcases failed with _ | _
  · refine Inv.returned (m := { m with invalidConfig := false }) hinv.fits
      (hinv.alone_of_some hstart) (fun _ hasks ↦ ?_) fun _ _ ↦ hjob
    exact absurd ((hinv.unrequired hstart).symm.trans hasks) nofun
  · exact .of_unsettled (.of_idle hinv.fits rfl) hsettled hneeded

/-! #### The job and those who stop it -/

/-- The job and the calls of `stopControlD` change. -/
theorem Proper.of_job (hproper : Proper m) {controlDJob : Option Job} {stops : List Stop}
    {invalidConfig ended settled needed : Bool}
    (hfits : ∀ config, ({ m with controlDJob } : ProxyDNSManager).current = some config →
      m.Fits config)
    (hpreparing : m.controlDJob = none → controlDJob = none)
    (hsteady : m.start = some .waiting → ended = false → ∀ config listening,
      controlDJob ≠ some (.running config listening true))
    (hstops : m.start ≠ none → ended = false → stops = []) :
    Proper { m with controlDJob, stops, invalidConfig, ended, settled, needed } where
  fits := hfits
  preparing hstart := hpreparing (hproper.preparing hstart)
  joining := hproper.joining
  required := hproper.required
  unrequired := hproper.unrequired
  steady := hsteady
  alone := hstops

/-- Where a job does not serve, the proxy of no session is settled. -/
theorem Inv.unsettled_of_job (hinv : Inv m) {job : Job} (hjob : m.controlDJob = some job)
    (hserving : m.serving = none) : m.settled = false ∧ m.needed = false := by
  refine unsettled_of_not fun houtcome ↦ ?_
  rcases houtcome with hsettled | hneeded
  · rcases hasks : m.asksForProxy with _ | _
    · exact absurd (hjob.symm.trans (hinv.unserved hsettled hasks)) nofun
    · exact hinv.served hsettled hasks hserving
  · exact hinv.needed hneeded hserving

/-- ctrld reads the file. -/
theorem Inv.begin (hinv : Inv m) (hjob : m.controlDJob = some .launched) :
    Inv { m with controlDJob := some (.running m.configFile false false) } := by
  obtain ⟨hsettled, hneeded⟩ :=
    hinv.unsettled_of_job hjob (by rw [ProxyDNSManager.serving, hjob])
  refine .of_unsettled (hinv.toProper.of_job (fun config hcurrent ↦ hinv.fits config ?_) ?_ ?_
    hinv.alone) hsettled hneeded
  · rw [ProxyDNSManager.current, hjob]
    exact hcurrent
  · rw [hjob]
    nofun
  · rintro - - config listening ⟨⟩

/-- ctrld binds its port. -/
theorem Inv.listen (hinv : Inv m) {config : Config} {stopping : Bool}
    (hjob : m.controlDJob = some (.running config false stopping)) :
    Inv { m with controlDJob := some (.running config true stopping) } := by
  obtain ⟨hsettled, hneeded⟩ :=
    hinv.unsettled_of_job hjob (by rw [ProxyDNSManager.serving, hjob])
  refine .of_unsettled (hinv.toProper.of_job (fun other hcurrent ↦ hinv.fits other ?_) ?_ ?_
    hinv.alone) hsettled hneeded
  · rw [ProxyDNSManager.current, hjob]
    rcases stopping with _ | _
    · exact hcurrent
    · cases hcurrent
  · rw [hjob]
    nofun
  · rintro hstart hended other listening ⟨⟩
    exact hinv.steady hstart hended config false hjob

/-- ctrld has stopped. -/
theorem Inv.exit (hinv : Inv m) {config : Config} {listening stopping : Bool}
    (hjob : m.controlDJob = some (.running config listening stopping))
    (hstopped : ¬ (listening = true ∧ stopping = false)) :
    Inv { m with controlDJob := none, stops := m.stops.map Stop.release } := by
  have hserving : m.serving = none := by
    rw [ProxyDNSManager.serving, hjob]
    rcases listening with _ | _
    · rfl
    · rcases stopping with _ | _
      · exact absurd ⟨rfl, rfl⟩ hstopped
      · rfl
  obtain ⟨hsettled, hneeded⟩ := hinv.unsettled_of_job hjob hserving
  refine .of_unsettled (hinv.toProper.of_job nofun (fun _ ↦ rfl) nofun fun hstart hended ↦ ?_)
    hsettled hneeded
  rw [hinv.alone hstart hended]
  rfl

/-- A `stopControlD` of a disconnect or of the settings screen: no session has a proxy by then. -/
theorem Inv.stopControlD (hinv : Inv m) {i : ℕ} (hcalled : m.stops[i]? = some .called) :
    Inv (m.stopControlD i) := by
  have hstops : m.stops ≠ [] := List.ne_nil_of_mem (List.mem_of_getElem? hcalled)
  obtain ⟨hsettled, hneeded, hended⟩ := hinv.unsettled_of_stops hstops
  have hnotEnded (hstart : m.start ≠ none) (hfalse : m.ended = false) : False :=
    absurd (hfalse.symm.trans (hended hstart)) nofun
  unfold ProxyDNSManager.stopControlD
  split_ifs with hrunning
  · have hnone := current_stopCd hrunning
    refine .of_unsettled (hinv.toProper.of_job (fun config hcurrent ↦ ?_) (fun hjob ↦ ?_)
      (fun hstart hfalse ↦ ?_) fun hstart hfalse ↦ ?_) hsettled hneeded
    · exact absurd (hnone.symm.trans hcurrent) nofun
    · rw [hjob]
      rfl
    · exact (hnotEnded (by rw [hstart]; nofun) hfalse).elim
    · exact (hnotEnded hstart hfalse).elim
  · refine .of_unsettled (hinv.toProper.of_job hinv.fits id hinv.steady fun hstart hfalse ↦ ?_)
      hsettled hneeded
    exact (hnotEnded hstart hfalse).elim

/-- A `stopControlD` is over. -/
theorem Inv.clear (hinv : Inv m) {i : ℕ} (hjoined : m.stops[i]? = some .joined) :
    Inv { m with stops := m.stops.eraseIdx i, invalidConfig := false } := by
  have hstops : m.stops ≠ [] := List.ne_nil_of_mem (List.mem_of_getElem? hjoined)
  obtain ⟨hsettled, hneeded, hended⟩ := hinv.unsettled_of_stops hstops
  refine .of_unsettled (hinv.toProper.of_job hinv.fits id hinv.steady fun hstart hfalse ↦ ?_)
    hsettled hneeded
  exact absurd (hfalse.symm.trans (hended hstart)) nofun

/-! #### The session and the settings -/

theorem Inv.disconnect (hinv : Inv m) : Inv m.disconnect := by
  unfold ProxyDNSManager.disconnect
  exact .of_unsettled (hinv.toProper.of_job hinv.fits id nofun nofun) rfl rfl

theorem Inv.cancelEngineStart (hinv : Inv m) : Inv { m with start := none } where
  toProper := .of_idle hinv.fits rfl
  resting houtcome := ⟨rfl, (hinv.resting houtcome).2⟩
  served := hinv.served
  unserved := hinv.unserved
  needed := hinv.needed

/-- A profile build sets details that a ctrld that goes on running fits. -/
theorem Inv.setDnsDetails (hinv : Inv m) {details : DNSDetails} (hstart : m.start = none)
    (hsettled : m.settled = false)
    (hcurrent : m.current.all (fun config ↦ matchesDetails config details) = true) :
    Inv { m with dnsDetails := some details } := by
  refine .of_session (.of_idle (fun config hconfig ↦ ?_) hstart) hsettled fun hneeded ↦
    ⟨hstart, (hinv.resting (Or.inr hneeded)).2, hinv.needed hneeded⟩
  refine ⟨(hinv.fits config hconfig).1, ?_⟩
  rintro other ⟨⟩
  rw [show m.current = some config from hconfig, Option.all_some] at hcurrent
  exact hcurrent

theorem Inv.setDnsMode (hinv : Inv m) (custom : Bool) (hstart : m.start = none) :
    Inv { m with dnsModeCustom := custom, settled := false } :=
  .of_session (.of_idle hinv.fits hstart) rfl fun hneeded ↦
    ⟨hstart, (hinv.resting (Or.inr hneeded)).2, hinv.needed hneeded⟩

/-- The address changes: ctrld is told to stop unless the session is up. -/
theorem Inv.saveCustomDNSAddress (hinv : Inv m) (address : String) (hstart : m.start = none)
    (hsession : m.isVPNConnected = true ∨ m.needed = false) :
    Inv (m.saveCustomDNSAddress address) := by
  refine .of_session (.of_idle hinv.fits hstart) rfl fun hneeded ↦
    ⟨hstart, ?_, hinv.needed hneeded⟩
  rcases hsession with hconnected | hnone
  · refine (if_pos hconnected).trans ?_
    exact (hinv.resting (Or.inr hneeded)).2
  · exact absurd (hnone.symm.trans hneeded) nofun

/-- One undisturbed step keeps the invariant. -/
theorem Inv.step (hinv : Inv m) {a : Action} (hundisturbed : Undisturbed m a)
    (hstep : step m a = some after) : Inv after := by
  cases a with
  | setDnsDetails details =>
    cases hstep
    obtain ⟨hstart, hsettled, hcurrent⟩ := hundisturbed
    exact hinv.setDnsDetails hstart hsettled hcurrent
  | startControlDIfRequired =>
    obtain ⟨-, ⟨⟩⟩ := Option.ite_none_right_eq_some.mp hstep
    obtain ⟨hstops, hrest, haddress⟩ := hundisturbed
    exact hinv.startControlDIfRequired hstops hrest haddress
  | configure port =>
    obtain ⟨hstart, hconfigure⟩ := Option.ite_none_right_eq_some.mp hstep
    exact hinv.configure hstart hconfigure
  | launch =>
    obtain ⟨⟨hstart, -⟩, ⟨⟩⟩ := Option.ite_none_right_eq_some.mp hstep
    exact hinv.launch hstart
  | begin =>
    obtain ⟨hjob, ⟨⟩⟩ := Option.ite_none_right_eq_some.mp hstep
    exact hinv.begin hjob
  | listen =>
    rw [DnsProxy.step] at hstep
    split at hstep
    · rename_i hjob
      cases hstep
      exact hinv.listen hjob
    · cases hstep
  | exit =>
    rw [DnsProxy.step] at hstep
    split at hstep
    · rename_i hjob
      obtain ⟨hstopped, ⟨⟩⟩ := Option.ite_none_left_eq_some.mp hstep
      exact hinv.exit hjob hstopped
    · cases hstep
  | ready takenByOther =>
    rw [DnsProxy.step] at hstep
    split at hstep
    · rename_i hjob
      obtain ⟨⟨hstart, htaken⟩, ⟨⟩⟩ := Option.ite_none_right_eq_some.mp hstep
      rcases htaken with htaken | ⟨rfl, -⟩
      · exact absurd (htaken.symm.trans hundisturbed) nofun
      · exact hinv.ready hstart hjob
    · cases hstep
  | giveUp =>
    obtain ⟨hstart, ⟨⟩⟩ := Option.ite_none_right_eq_some.mp hstep
    exact hinv.giveUp hstart
  | stopped =>
    rw [DnsProxy.step] at hstep
    split at hstep
    · rename_i hstart
      obtain ⟨hjob, ⟨⟩⟩ := Option.ite_none_right_eq_some.mp hstep
      exact hinv.stopped hstart hjob
    · cases hstep
  | disconnect =>
    cases hstep
    exact hinv.disconnect
  | cancelEngineStart =>
    cases hstep
    exact hinv.cancelEngineStart
  | setDnsMode custom =>
    cases hstep
    exact hinv.setDnsMode custom hundisturbed
  | saveCustomDNSAddress address =>
    obtain ⟨-, ⟨⟩⟩ := Option.ite_none_left_eq_some.mp hstep
    exact hinv.saveCustomDNSAddress address hundisturbed.1 hundisturbed.2
  | stop i =>
    obtain ⟨hcalled, ⟨⟩⟩ := Option.ite_none_right_eq_some.mp hstep
    exact hinv.stopControlD hcalled
  | clear i =>
    obtain ⟨hjoined, ⟨⟩⟩ := Option.ite_none_right_eq_some.mp hstep
    exact hinv.clear hjoined
  | setConnected connected =>
    cases hstep
    exact ⟨⟨hinv.fits, hinv.preparing, hinv.joining, hinv.required, hinv.unrequired, hinv.steady,
      hinv.alone⟩, hinv.resting, hinv.served, hinv.unserved, hinv.needed⟩

/-- A ctrld that serves has the configuration of the details. -/
theorem Inv.serving_eq (hinv : Inv m) {details : DNSDetails}
    (hdetails : m.dnsDetails = some details) (hproxy : details.type = .proxy)
    (hserving : m.serving ≠ none) : m.serving = some (config details m.getListenPort) := by
  obtain ⟨served, hserved⟩ := Option.ne_none_iff_exists'.mp hserving
  obtain ⟨hport, hmatches⟩ := hinv.fits served (current_of_serving hserved)
  have hfields := hmatches details hdetails
  rw [matchesDetails, hproxy, bne_self_eq_false, Bool.false_or, Bool.and_eq_true, beq_iff_eq,
    beq_iff_eq] at hfields
  rw [hserved, config, ProxyDNSManager.getListenPort, ← hport, ← hfields.1, ← hfields.2]

/-- In every undisturbed run the proxy serves the session with its settings. -/
theorem served_of_undisturbed {dnsModeCustom : Bool} {dnsAddress : Option String}
    {configFile : Config}
    (hreach : Reaches DnsProxy.step Undisturbed
      (ProxyDNSManager.initial dnsModeCustom dnsAddress configFile) m) : Served m := by
  have hinv : Inv m := by
    refine hreach.invariant Inv ?_ (.of_unsettled (.of_idle nofun rfl) rfl rfl)
    exact fun _ _ _ hx hundisturbed hstep ↦ hx.step hundisturbed hstep
  refine ⟨fun hsettled ↦ ?_, fun hsettled hcustom details hdetails hproxy ↦ ?_, hinv.needed⟩
  · rw [← Bool.and_eq_true]
    refine ⟨fun hrunning ↦ ?_, fun hasks ↦ ?_⟩
    · by_contra hasks
      have hjob := hinv.unserved hsettled (Bool.not_eq_true _ |>.mp hasks)
      rw [ProxyDNSManager.isRunning, hjob] at hrunning
      cases hrunning
    · obtain ⟨served, hjob⟩ := job_of_serving (hinv.served hsettled hasks)
      rw [ProxyDNSManager.isRunning, hjob]
  · refine hinv.serving_eq hdetails hproxy (hinv.served hsettled ?_)
    refine Bool.and_eq_true _ _ |>.mpr ⟨?_, hcustom⟩
    rw [ProxyDNSManager.isProxy, hdetails]
    exact beq_iff_eq.mpr hproxy

end Run

/-! ### A custom address -/

/-- The details of a DoH resolver. -/
def sampleDetails (ip : String) : DNSDetails where
  address := some "https://dns.example/query"
  ip := some ip
  type := .proxy

/-- Those of a DoT resolver. -/
def sampleOther : DNSDetails where
  address := some "tls.example"
  ip := some "192.0.2.7"
  type := .proxy

/-- What is left of an earlier process in the file. -/
def sampleFile : Config where
  bootstrapIp := ""
  endpoint := ""
  port := 5355

/-- A connect builds the profile and starts ctrld. -/
def sampleStart (details : DNSDetails) (port : ℕ) : List Action :=
  [.setDnsDetails details, .startControlDIfRequired, .configure (some port), .launch, .begin,
    .listen, .ready false]

/-- The address is changed while the session is up: the disconnect stops ctrld, and the next session
has the new one. -/
theorem served_of_undisturbed_reconnect :
    ∃ m, Served m ∧ m.settled = true ∧ m.serving = some (config sampleOther 20001) := by
  obtain ⟨m, hreach, hcheck⟩ := exists_reaches_of_run step Undisturbed
    (ProxyDNSManager.initial true (some "https://dns.example/query") sampleFile)
    (sampleStart (sampleDetails "192.0.2.1") 20000 ++ [.setConnected true,
      .saveCustomDNSAddress "tls.example", .disconnect, .cancelEngineStart, .setConnected false,
      .stop 0, .exit, .clear 0] ++ sampleStart sampleOther 20001)
    (fun m ↦ m.settled = true ∧ m.serving = some (config sampleOther 20001)) (by decide)
  exact ⟨m, served_of_undisturbed hreach, of_decide_eq_true hcheck⟩

/-- The address is changed after ctrld was started and before the state is `Connected`. The settings
screen stops ctrld, and the session comes up without its proxy. -/
theorem not_served_early :
    ¬ ∀ (dnsModeCustom : Bool) (dnsAddress : Option String) (configFile : Config)
        (m : ProxyDNSManager),
      Reaches step Always (ProxyDNSManager.initial dnsModeCustom dnsAddress configFile) m →
        Served m := by
  intro hpromise
  obtain ⟨m, hreach, hcheck⟩ := exists_reaches_of_run step Always
    (ProxyDNSManager.initial true (some "https://dns.example/query") sampleFile)
    (sampleStart (sampleDetails "192.0.2.1") 20000 ++
      [.saveCustomDNSAddress "tls.example", .stop 0, .exit, .clear 0, .setConnected true])
    (fun m ↦ m.needed = true ∧ m.serving = none) (by decide)
  obtain ⟨hneeded, hserving⟩ := of_decide_eq_true hcheck
  exact (hpromise _ _ _ m hreach).session hneeded hserving

/-- The disconnect leaves ctrld running, and the host of the endpoint resolves to another address at
the next connect. The start finds ctrld running and returns. -/
theorem not_served_stale :
    ¬ ∀ (dnsModeCustom : Bool) (dnsAddress : Option String) (configFile : Config)
        (m : ProxyDNSManager),
      Reaches step Always (ProxyDNSManager.initial dnsModeCustom dnsAddress configFile) m →
        Served m := by
  intro hpromise
  obtain ⟨m, hreach, hcheck⟩ := exists_reaches_of_run step Always
    (ProxyDNSManager.initial true (some "https://dns.example/query") sampleFile)
    (sampleStart (sampleDetails "192.0.2.1") 20000 ++
      [.disconnect, .setDnsDetails (sampleDetails "192.0.2.9"), .startControlDIfRequired])
    (fun m ↦ m.settled = true ∧ m.dnsModeCustom = true ∧
      m.dnsDetails = some (sampleDetails "192.0.2.9") ∧
      m.serving ≠ some (config (sampleDetails "192.0.2.9") m.getListenPort)) (by decide)
  obtain ⟨hsettled, hcustom, hdetails, hserving⟩ := of_decide_eq_true hcheck
  exact hserving ((hpromise _ _ _ m hreach).configured hsettled hcustom _ hdetails rfl)

end WindscribeVpn.Backend.DnsProxy
