import WindscribeVpn.Foundations.Runs
import Mathlib.Data.Nat.Notation
import Mathlib.Data.List.Basic

/-!
# `WgConfigRepository`

The WireGuard parameters of this device are cached, and three one-shot flags decide whether
`getWgParams` may hand out the cached ones: `skipCacheOnFirstInit`, which is up after the start of
the process, the registered key, which `unregisterKey` forgets, and `wgForceInit` of
`VPNProfileCreator`, which the key-limit dialog raises. A call that may not use the cache registers
a key with `wgInit` and stores what it is given.

A call suspends twice, for a delay and for the response, and meanwhile the other parties move on; so
it is three steps here, and any number of calls may be under way. `Promise` says that no call hands
out parameters that are older than a decision to register again, unless a `wgInit` that was made
after the decision has succeeded, and that a `wgInit` that fails changes nothing that is stored.

Two of the flags are lowered when a call starts and not when it succeeds. After a first `wgInit`
that fails the second call therefore hands out the cached parameters (`not_promise_failedInit`).
`promise_of_settled` shows the promise for the runs in which no such call fails over parameters that
could be handed out, and in which no call finds the cache open while such a call is under way.
-/

set_option autoImplicit false
set_option relaxedAutoImplicit false

namespace WindscribeVpn.Repository.WgConfigRepository

open Foundations.Runs

/-! ### Parameters -/

/-- `WgLocalParams`. -/
structure WgLocalParams where
  privateKey : String
  allowedIPs : String
  allowedIPs6 : String
  preSharedKey : String
  hashedCIDR : Option (List String)
  hashedCIDRV6 : Option (List String)
  deriving DecidableEq, Repr

/-- `config` of a `WgInitResponse`. -/
structure WgInitConfig where
  allowedIPs : String
  allowedIPsV6 : String
  preSharedKey : String
  hashedCIDR : Option (List String)
  hashedCIDRV6 : Option (List String)
  deriving DecidableEq, Repr

/-- What `wgInit` answers. -/
inductive InitResult
  | success (config : WgInitConfig)
  | error (errorCode : ℕ)
  /-- The call is cancelled, or the request throws. -/
  | thrown
  deriving DecidableEq, Repr

/-- `ERROR_WG_UNABLE_TO_GENERATE_PSK`. -/
def errorWgUnableToGeneratePsk : ℕ := 1310

/-- The arguments of `getWgParams`, less the forced init. -/
structure Request where
  hostname : String
  serverPublicKey : String
  supportsV6 : Bool
  deriving DecidableEq, Repr

/-- `WgConnectConfig`. -/
structure WgConnectConfig where
  address : String
  dns : String
  deriving DecidableEq, Repr

/-- `WgRemoteParams`. -/
structure WgRemoteParams where
  allowedIPs : String
  preSharedKey : String
  privateKey : String
  serverPublicKey : String
  address : String
  dns : String
  deriving DecidableEq, Repr

/-- What the derivation of the remote parameters rests on. -/
structure Device where
  /-- The public key of a private one. -/
  publicKeyOf : String → String
  /-- `WireguardUtil.generateWireguardIP`; `none` when it throws. -/
  generateWireguardIP : String → String → Option String
  /-- `WireguardUtil.generateWireguardIPv6`; `none` when it throws. -/
  generateWireguardIPv6 : String → String → Option String
  /-- `ipv6Mode == "auto"`. -/
  ipv6Auto : Bool

/-- `DEFAULT_DNS_IPV4`. -/
def defaultDnsIpv4 : String := "10.255.255.1"

/-- `generateLanIpAddress`; `none` when it throws or returns an error. -/
def generateLanIpAddress (device : Device) (publicKey : String)
    (hashedCIDR hashedCIDRv6 : Option (List String)) (supportsV6 : Bool) :
    Option WgConnectConfig :=
  match hashedCIDR with
  | some (cidr :: _) => do
    let ipv4Address ← device.generateWireguardIP publicKey cidr
    if device.ipv6Auto && supportsV6 then
      match hashedCIDRv6 with
      | some (cidrV6 :: _) =>
        let ipv6Address ← device.generateWireguardIPv6 publicKey cidrV6
        some { address := ipv4Address ++ ", " ++ ipv6Address ++ "/128", dns := defaultDnsIpv4 }
      | _ => none
    else some { address := ipv4Address, dns := defaultDnsIpv4 }
  | _ => none

/-- `createRemoteParams`. -/
def createRemoteParams (localParams : WgLocalParams) (serverPublicKey : String)
    (connectConfig : WgConnectConfig) : WgRemoteParams where
  allowedIPs :=
    if connectConfig.address.contains ',' then
      localParams.allowedIPs ++ ", " ++ localParams.allowedIPs6
    else localParams.allowedIPs
  preSharedKey := localParams.preSharedKey
  privateKey := localParams.privateKey
  serverPublicKey := serverPublicKey
  address := connectConfig.address
  dns := connectConfig.dns

/-- The part of `getWgParams` after the local parameters are there. -/
def remoteParams (device : Device) (request : Request) (localParams : WgLocalParams) :
    Option WgRemoteParams :=
  (generateLanIpAddress device (device.publicKeyOf localParams.privateKey) localParams.hashedCIDR
    localParams.hashedCIDRV6 request.supportsV6).map
      (createRemoteParams localParams request.serverPublicKey)

/-! ### State -/

/-- Parameters in the store, with the time at which the `wgInit` that brought them succeeded. -/
structure Stored where
  params : WgLocalParams
  obtained : ℕ
  deriving DecidableEq, Repr

/-- How far a call has come. -/
inductive Phase
  /-- In `delay(INIT_DELAY_MS)`. -/
  | delaying
  /-- The `wgInit` made at a time is not answered yet. -/
  | sent (made : ℕ) (retried : Bool)
  deriving DecidableEq, Repr

/-- A call of `getWgParams` that did not find the cache open. -/
structure Call where
  request : Request
  privateKey : String
  forceInit : Bool
  /-- `skipCacheOnFirstInit` when the call lowered it. -/
  skippedCache : Bool
  phase : Phase
  deriving DecidableEq, Repr

/-- A call that lowered a flag. -/
def Call.took (call : Call) : Bool := call.forceInit || call.skippedCache

/-- The stores, the flags and the calls under way; and, for the promise, the time, the times of the
decisions to register again, and the times at which the successful `wgInit`s were made. -/
structure State where
  wgLocalParams : Option Stored
  wgRegisteredKey : Option String
  skipCacheOnFirstInit : Bool
  wgForceInit : Bool
  calls : List Call
  clock : ℕ
  decisions : List ℕ
  inits : List ℕ
  deriving DecidableEq, Repr

/-- The first state of a process, over what an earlier one left in the stores. -/
def State.initial (params : Option WgLocalParams) (registeredKey : Option String) : State where
  wgLocalParams := params.map fun params ↦ { params, obtained := 0 }
  wgRegisteredKey := registeredKey
  skipCacheOnFirstInit := true
  wgForceInit := false
  calls := []
  clock := 2
  decisions := [1]
  inits := []

/-- What a party does next. -/
inductive Action
  /-- The process ends and a new one starts. -/
  | processStart
  | unregisterKey
  | deleteKeys
  /-- The key-limit dialog is confirmed. -/
  | requestForceInit
  /-- A connect asks for parameters; a key pair is made of the given one if a new one is needed. -/
  | getWgParams (request : Request) (newKey : String)
  /-- The delay of a call is over. -/
  | sendInit (i : ℕ)
  /-- The `wgInit` of a call is answered. -/
  | respond (i : ℕ) (result : InitResult)
  deriving DecidableEq, Repr

/-! ### Steps -/

/-- The cached parameters are complete and their key is registered. -/
def usable (s : State) : Bool :=
  (s.wgLocalParams.any fun stored ↦
    stored.params.hashedCIDR.isSome && stored.params.hashedCIDRV6.isSome) &&
    s.wgRegisteredKey.isSome

/-- `generateKeys` hands out the cached parameters. -/
def cacheOpen (s : State) : Bool := !s.wgForceInit && usable s && !s.skipCacheOnFirstInit

/-- The key that a call registers: the cached one, unless the init is forced. -/
def keyFor (s : State) (newKey : String) : String :=
  match s.wgLocalParams with
  | some stored => if s.wgForceInit then newKey else stored.params.privateKey
  | none => newKey

/-- Time passes with every step. -/
def State.tick (s : State) : State := { s with clock := s.clock + 1 }

/-- A decision that the cached parameters need a fresh registration. -/
def State.decided (s : State) : State := { s with decisions := s.clock :: s.decisions }

/-- A call that does not find the cache open lowers both flags before it starts to wait. -/
def State.start (s : State) (request : Request) (newKey : String) : State :=
  { s with
    wgForceInit := false
    skipCacheOnFirstInit := false
    calls := s.calls ++
      [{ request, privateKey := keyFor s newKey, forceInit := s.wgForceInit
         skippedCache := s.skipCacheOnFirstInit, phase := .delaying }] }

/-- The local parameters of a registered key. -/
def localParamsOf (call : Call) (config : WgInitConfig) : WgLocalParams where
  privateKey := call.privateKey
  allowedIPs := config.allowedIPs
  allowedIPs6 := config.allowedIPsV6
  preSharedKey := config.preSharedKey
  hashedCIDR := config.hashedCIDR
  hashedCIDRV6 := config.hashedCIDRV6

/-- A call ends. -/
def State.finish (s : State) (i : ℕ) : State := { s with calls := s.calls.eraseIdx i }

/-- The parameters of a successful `wgInit` are stored and their key is registered. -/
def State.store (s : State) (call : Call) (config : WgInitConfig) (made : ℕ) : State :=
  { s with
    wgLocalParams := some { params := localParamsOf call config, obtained := s.clock }
    wgRegisteredKey := some call.privateKey
    inits := made :: s.inits }

/-- A call goes on in another phase. -/
def State.proceed (s : State) (i : ℕ) (call : Call) (phase : Phase) : State :=
  { s with calls := s.calls.set i { call with phase } }

/-- `wgInit` is made once more after a first failure to generate the pre-shared key. -/
def retries (retried : Bool) (errorCode : ℕ) : Bool :=
  errorCode == errorWgUnableToGeneratePsk && !retried

/-- The answer to the `wgInit` of a call. -/
def respond (s : State) (i : ℕ) (call : Call) (made : ℕ) (retried : Bool) : InitResult → State
  | .success config => (s.store call config made).finish i
  | .error errorCode =>
    if retries retried errorCode then s.proceed i call (.sent s.clock true) else s.finish i
  | .thrown => s.finish i

/-- One step. -/
def step (s : State) : Action → Option State
  | .processStart =>
    some { s with skipCacheOnFirstInit := true, wgForceInit := false, calls := [] }.decided.tick
  | .unregisterKey =>
    some { s with wgRegisteredKey := none, skipCacheOnFirstInit := true }.decided.tick
  | .deleteKeys => some { s with wgLocalParams := none }.tick
  | .requestForceInit => some { s with wgForceInit := true }.decided.tick
  | .getWgParams request newKey =>
    if cacheOpen s then some s.tick else some (s.start request newKey).tick
  | .sendInit i =>
    match s.calls[i]? with
    | some call =>
      if call.phase = .delaying then some (s.proceed i call (.sent s.clock false)).tick else none
    | none => none
  | .respond i result =>
    match s.calls[i]? with
    | some call =>
      match call.phase with
      | .sent made retried => some (respond s i call made retried result).tick
      | .delaying => none
    | none => none

/-- The parameters that a step hands out, with the time at which they were obtained. -/
def returns (device : Device) (s : State) : Action → Option (WgRemoteParams × ℕ)
  | .getWgParams request _ =>
    if cacheOpen s then
      s.wgLocalParams.bind fun stored ↦
        (remoteParams device request stored.params).map fun params ↦ (params, stored.obtained)
    else none
  | .respond i (.success config) =>
    s.calls[i]?.bind fun call ↦
      (remoteParams device call.request (localParamsOf call config)).map
        fun params ↦ (params, s.clock)
  | _ => none

/-! ### The promise -/

/-- What a step owes. Parameters that are older than a decision are not handed out before a `wgInit`
that was made after the decision has succeeded; and a `wgInit` that does not succeed leaves the
stores alone. -/
structure Promise (device : Device) (s : State) (a : Action) (t : State) : Prop where
  fresh : ∀ params obtained, returns device s a = some (params, obtained) →
    ∀ decision ∈ s.decisions, obtained < decision → ∃ made ∈ s.inits, decision < made
  unchanged : ∀ i result, a = .respond i result → (∀ config, result ≠ .success config) →
    t.wgLocalParams = s.wgLocalParams ∧ t.wgRegisteredKey = s.wgRegisteredKey

/-- A flag is up, or a call that lowered one is under way. -/
def pending (s : State) : Bool :=
  s.skipCacheOnFirstInit || s.wgForceInit || s.calls.any Call.took

/-- The answer ends a call without parameters. -/
def Call.failsOn (call : Call) : InitResult → Bool
  | .success _ => false
  | .error errorCode =>
    match call.phase with
    | .sent _ retried => !retries retried errorCode
    | .delaying => true
  | .thrown => true

/-- The condition on a step. A call that finds the cache open does so while no call that lowered a
flag is under way; and a call that lowered a flag does not fail over usable parameters, unless
another flag or call makes up for it. -/
def settled (s : State) : Action → Bool
  | .getWgParams _ _ => !cacheOpen s || s.calls.all fun call ↦ !call.took
  | .respond i result =>
    (s.calls[i]?.all fun call ↦ !(call.took && call.failsOn result && usable s)) ||
      pending (s.finish i)
  | _ => true

/-- A step that meets the condition. -/
def Settled (s : State) (a : Action) : Prop := settled s a = true

instance decidableSettled (s : State) (a : Action) : Decidable (Settled s a) :=
  inferInstanceAs (Decidable (_ = true))

/-! ### What holds along settled runs -/

/-- The stored parameters are not older than any decision. -/
def Current (s : State) : Prop :=
  ∀ stored ∈ s.wgLocalParams, ∀ decision ∈ s.decisions, decision ≤ stored.obtained

/-- Usable parameters are current, or a flag or a call says that they are not. -/
structure Watched (s : State) : Prop where
  past : ∀ decision ∈ s.decisions, decision < s.clock
  watched : usable s → Current s ∨ pending s

variable {s t : State}

theorem watched_initial (params : Option WgLocalParams) (registeredKey : Option String) :
    Watched (State.initial params registeredKey) :=
  ⟨by simp [State.initial], fun _ ↦ Or.inr rfl⟩

/-- Time passes over a watched state. -/
theorem watched_tick (hwatched : Watched s) : Watched s.tick :=
  ⟨fun decision hdecision ↦ Nat.lt_succ_of_lt (hwatched.past decision hdecision),
    hwatched.watched⟩

/-- A decision keeps a state watched if it leaves the parameters unusable or a flag up. -/
theorem watched_decided (hpast : ∀ decision ∈ s.decisions, decision < s.clock)
    (hdecided : usable s → pending s) : Watched s.decided.tick := by
  refine ⟨?_, fun husable ↦ Or.inr (hdecided husable)⟩
  intro decision hdecision
  rcases List.mem_cons.mp hdecision with rfl | hearlier
  · exact Nat.lt_succ_self _
  · exact Nat.lt_succ_of_lt (hpast decision hearlier)

/-- A flag that a starting call lowers is remembered by the call. -/
theorem pending_start (request : Request) (newKey : String) (hpending : pending s) :
    pending (s.start request newKey) := by
  simp only [pending, State.start, List.any_append, List.any_cons, List.any_nil, Call.took,
    Bool.or_eq_true, Bool.false_or, Bool.or_false] at hpending ⊢
  rcases hpending with (hskip | hforce) | hcall
  · exact Or.inr (Or.inr hskip)
  · exact Or.inr (Or.inl hforce)
  · exact Or.inl hcall

/-- A call that goes on still remembers which flags it lowered. -/
theorem pending_proceed {i : ℕ} {call : Call} (hcall : s.calls[i]? = some call) (phase : Phase) :
    pending (s.proceed i call phase) = pending s := by
  have htook : (s.calls.set i { call with phase }).map Call.took = s.calls.map Call.took := by
    refine List.ext_getElem? fun j ↦ ?_
    simp only [List.getElem?_map, List.getElem?_set]
    split_ifs with hij hlength
    · subst hij
      rw [hcall]
      rfl
    · subst hij
      simp [List.getElem?_eq_none (Nat.le_of_not_lt hlength)]
    · rfl
  have hany : ∀ calls : List Call, calls.any Call.took = (calls.map Call.took).any id := by
    simp [List.any_map]
  simp only [pending, State.proceed, hany, htook]

/-- A call that lowered no flag is not missed when it ends. -/
theorem pending_finish {i : ℕ} {call : Call} (hcall : s.calls[i]? = some call)
    (htook : call.took = false) (hpending : pending s) : pending (s.finish i) := by
  simp only [pending, State.finish, Bool.or_eq_true, List.any_eq_true] at hpending ⊢
  rcases hpending with hflag | ⟨other, hother, hlowered⟩
  · exact Or.inl hflag
  · refine Or.inr ⟨other, ?_, hlowered⟩
    obtain ⟨j, hj⟩ := List.mem_iff_getElem?.mp hother
    refine List.mem_eraseIdx_iff_getElem?.mpr ⟨j, ?_, hj⟩
    rintro rfl
    rw [hcall, Option.some.injEq] at hj
    subst hj
    simp [htook] at hlowered

/-- What a step can do to a call that is answered. -/
theorem watched_respond {i : ℕ} {call : Call} {made : ℕ} {retried : Bool} {result : InitResult}
    (hwatched : Watched s) (hcall : s.calls[i]? = some call)
    (hphase : call.phase = .sent made retried) (hsettled : Settled s (.respond i result)) :
    Watched (respond s i call made retried result).tick := by
  have hfinish : call.failsOn result = true → Watched (s.finish i) := by
    intro hfails
    refine ⟨hwatched.past, fun husable ↦ ?_⟩
    rcases hwatched.watched husable with hcurrent | hpending
    · exact Or.inl hcurrent
    · refine Or.inr ?_
      cases htook : call.took with
      | false => exact pending_finish hcall htook hpending
      | true =>
        have husable' : usable s = true := husable
        simpa [Settled, settled, hcall, htook, hfails, husable'] using hsettled
  cases result with
  | success config =>
    refine watched_tick ⟨hwatched.past, fun _ ↦ Or.inl ?_⟩
    intro stored hstored decision hdecision
    obtain rfl : _ = stored := Option.some.inj hstored
    exact Nat.le_of_lt (hwatched.past decision hdecision)
  | error errorCode =>
    cases hretries : retries retried errorCode with
    | true =>
      simp only [respond, hretries, if_true]
      refine watched_tick ⟨hwatched.past, fun husable ↦ ?_⟩
      rw [pending_proceed hcall]
      exact hwatched.watched husable
    | false =>
      simp only [respond, hretries, Bool.false_eq_true, if_false]
      exact watched_tick (hfinish (by simp [Call.failsOn, hphase, hretries]))
  | thrown => exact watched_tick (hfinish rfl)

/-- A settled step keeps a state watched. -/
theorem watched_step (a : Action) (hwatched : Watched s) (hsettled : Settled s a)
    (hstep : step s a = some t) : Watched t := by
  cases a with
  | processStart =>
    obtain rfl := Option.some.inj hstep
    exact watched_decided hwatched.past fun _ ↦ rfl
  | unregisterKey =>
    obtain rfl := Option.some.inj hstep
    exact watched_decided hwatched.past fun _ ↦ rfl
  | deleteKeys =>
    obtain rfl := Option.some.inj hstep
    exact watched_tick ⟨hwatched.past, fun husable ↦ by simp [usable] at husable⟩
  | requestForceInit =>
    obtain rfl := Option.some.inj hstep
    exact watched_decided hwatched.past fun _ ↦ by simp [pending]
  | getWgParams request newKey =>
    simp only [step] at hstep
    split_ifs at hstep with hopen
    · obtain rfl := Option.some.inj hstep
      exact watched_tick hwatched
    · obtain rfl := Option.some.inj hstep
      refine watched_tick ⟨hwatched.past, fun husable ↦ ?_⟩
      exact (hwatched.watched husable).imp id (pending_start request newKey)
  | sendInit i =>
    simp only [step] at hstep
    split at hstep
    case h_1 call hcall =>
      split_ifs at hstep with hphase
      obtain rfl := Option.some.inj hstep
      refine watched_tick ⟨hwatched.past, fun husable ↦ ?_⟩
      rw [pending_proceed hcall]
      exact hwatched.watched husable
    case h_2 => cases hstep
  | respond i result =>
    simp only [step] at hstep
    split at hstep
    case h_1 call hcall =>
      split at hstep
      case h_1 made retried hphase =>
        obtain rfl := Option.some.inj hstep
        exact watched_respond hwatched hcall hphase hsettled
      case h_2 => cases hstep
    case h_2 => cases hstep

/-! ### The promise along settled runs -/

/-- When the cache is open and no call makes up for a lowered flag, the parameters are current. -/
theorem current_of_cacheOpen (hwatched : Watched s) (hopen : cacheOpen s)
    (hcalls : ∀ call ∈ s.calls, call.took = false) : Current s := by
  simp only [cacheOpen, Bool.and_eq_true, Bool.not_eq_true'] at hopen
  obtain ⟨⟨hforce, husable⟩, hskip⟩ := hopen
  rcases hwatched.watched husable with hcurrent | hpending
  · exact hcurrent
  · simp only [pending, hskip, hforce, Bool.false_or, List.any_eq_true] at hpending
    obtain ⟨call, hcall, htook⟩ := hpending
    simp [hcalls call hcall] at htook

/-- What a settled step from a watched state hands out is not older than any decision. -/
theorem not_lt_of_returns {device : Device} {a : Action} {params : WgRemoteParams} {obtained : ℕ}
    (hwatched : Watched s) (hsettled : Settled s a)
    (hreturns : returns device s a = some (params, obtained)) {decision : ℕ}
    (hdecision : decision ∈ s.decisions) : ¬ obtained < decision := by
  cases a with
  | getWgParams request newKey =>
    simp only [returns] at hreturns
    split_ifs at hreturns with hopen
    simp only [Option.bind_eq_some_iff, Option.map_eq_some_iff, Prod.mk.injEq] at hreturns
    obtain ⟨stored, hstored, _, -, -, rfl⟩ := hreturns
    have hcalls : ∀ call ∈ s.calls, call.took = false := by
      simpa [Settled, settled, hopen] using hsettled
    exact Nat.not_lt.mpr (current_of_cacheOpen hwatched hopen hcalls stored hstored _ hdecision)
  | respond i result =>
    cases result with
    | success config =>
      simp only [returns, Option.bind_eq_some_iff, Option.map_eq_some_iff, Prod.mk.injEq]
        at hreturns
      obtain ⟨call, -, _, -, -, rfl⟩ := hreturns
      exact Nat.not_lt.mpr (Nat.le_of_lt (hwatched.past decision hdecision))
    | error errorCode => cases hreturns
    | thrown => cases hreturns
  | processStart => cases hreturns
  | unregisterKey => cases hreturns
  | deleteKeys => cases hreturns
  | requestForceInit => cases hreturns
  | sendInit i => cases hreturns

/-- A `wgInit` that does not succeed leaves the stores alone. -/
theorem unchanged_of_respond {i : ℕ} {result : InitResult}
    (hfailed : ∀ config, result ≠ .success config) (hstep : step s (.respond i result) = some t) :
    t.wgLocalParams = s.wgLocalParams ∧ t.wgRegisteredKey = s.wgRegisteredKey := by
  simp only [step] at hstep
  split at hstep
  case h_1 call hcall =>
    split at hstep
    case h_1 made retried hphase =>
      obtain rfl := Option.some.inj hstep
      cases result with
      | success config => exact absurd rfl (hfailed config)
      | error errorCode =>
        simp only [respond]
        split <;> exact ⟨rfl, rfl⟩
      | thrown => exact ⟨rfl, rfl⟩
    case h_2 => cases hstep
  case h_2 => cases hstep

/-- Every step of a settled run keeps the promise. -/
theorem promise_of_settled (device : Device) (params : Option WgLocalParams)
    (registeredKey : Option String) (a : Action)
    (hreach : Reaches step Settled (State.initial params registeredKey) s)
    (hsettled : Settled s a) (hstep : step s a = some t) : Promise device s a t := by
  have hwatched : Watched s := hreach.invariant Watched
    (fun b _ _ hinv hmeets hnext ↦ watched_step b hinv hmeets hnext)
    (watched_initial params registeredKey)
  refine ⟨?_, ?_⟩
  · intro params obtained hreturns decision hdecision hlt
    exact absurd hlt (not_lt_of_returns hwatched hsettled hreturns hdecision)
  · rintro i result rfl hfailed
    exact unchanged_of_respond hfailed hstep

/-! ### Two runs -/

/-- Complete parameters for the runs below. -/
def sampleParams : WgLocalParams where
  privateKey := "private"
  allowedIPs := "0.0.0.0/0"
  allowedIPs6 := "::/0"
  preSharedKey := "psk"
  hashedCIDR := some ["100.64.0.0/10"]
  hashedCIDRV6 := some ["fd00::/8"]

/-- What `wgInit` gives in the runs below. -/
def sampleConfig : WgInitConfig where
  allowedIPs := "0.0.0.0/0"
  allowedIPsV6 := "::/0"
  preSharedKey := "fresh"
  hashedCIDR := some ["100.64.0.0/10"]
  hashedCIDRV6 := some ["fd00::/8"]

/-- A server for the runs below. -/
def sampleRequest : Request where
  hostname := "us-014.windscribe.dev"
  serverPublicKey := "server"
  supportsV6 := false

/-- A device whose keys all hash to one address. -/
def sampleDevice : Device where
  publicKeyOf := fun _ ↦ "public"
  generateWireguardIP := fun _ _ ↦ some "100.64.0.2"
  generateWireguardIPv6 := fun _ _ ↦ none
  ipv6Auto := false

/-- The first `wgInit` of a process fails while no parameters are stored, the second succeeds, and
the third call is given what the second has stored. -/
theorem promise_of_settled_secondInit :
    ∃ s t, Reaches step Settled (State.initial none none) s ∧
      step s (.getWgParams sampleRequest "other") = some t ∧
      (returns sampleDevice s (.getWgParams sampleRequest "other")).isSome ∧
      Promise sampleDevice s (.getWgParams sampleRequest "other") t := by
  obtain ⟨s, hreach, hcheck⟩ := exists_reaches_of_run step Settled (State.initial none none)
    [.getWgParams sampleRequest "key", .sendInit 0, .respond 0 (.error 1313),
      .getWgParams sampleRequest "key", .sendInit 0, .respond 0 (.error 1310),
      .respond 0 (.success sampleConfig)]
    (fun s ↦ settled s (.getWgParams sampleRequest "other") &&
      (step s (.getWgParams sampleRequest "other")).isSome &&
      (returns sampleDevice s (.getWgParams sampleRequest "other")).isSome)
    (by decide)
  simp only [Bool.and_eq_true] at hcheck
  obtain ⟨⟨hsettled, hstep⟩, hreturns⟩ := hcheck
  obtain ⟨t, ht⟩ := Option.isSome_iff_exists.mp hstep
  exact ⟨s, t, hreach, ht, hreturns, promise_of_settled _ _ _ _ hreach hsettled ht⟩

/-- The first `wgInit` of a process fails over parameters of the process before it, and the next
call hands them out. -/
theorem not_promise_failedInit :
    ¬ ∀ (device : Device) (params : Option WgLocalParams) (registeredKey : Option String)
      (s t : State) (a : Action),
      Reaches step Always (State.initial params registeredKey) s → step s a = some t →
        Promise device s a t := by
  intro hpromise
  obtain ⟨s, hreach, hcheck⟩ := exists_reaches_of_run step Always
    (State.initial (some sampleParams) (some "private"))
    [.getWgParams sampleRequest "key", .sendInit 0, .respond 0 (.error 1313)]
    (fun s ↦ (step s (.getWgParams sampleRequest "key")).isSome &&
      ((returns sampleDevice s (.getWgParams sampleRequest "key")).any fun r ↦ r.2 == 0) &&
      (s.decisions == [1]) && (s.inits == []))
    (by decide)
  simp only [Bool.and_eq_true, beq_iff_eq] at hcheck
  obtain ⟨⟨⟨hstep, hreturns⟩, hdecisions⟩, hinits⟩ := hcheck
  obtain ⟨t, ht⟩ := Option.isSome_iff_exists.mp hstep
  obtain ⟨⟨params, obtained⟩, hreturned, hobtained⟩ := (Option.any_eq_true _ _).mp hreturns
  obtain rfl : obtained = 0 := beq_iff_eq.mp hobtained
  obtain ⟨made, hmade, -⟩ :=
    (hpromise sampleDevice _ _ s t _ hreach ht).fresh params 0 hreturned 1
      (by simp [hdecisions]) Nat.zero_lt_one
  simp [hinits] at hmade

end WindscribeVpn.Repository.WgConfigRepository
