import WindscribeVpn.Foundations.Runs
import Mathlib.Data.List.Basic
import Mathlib.Data.Nat.Notation
import Mathlib.Logic.Function.Basic

/-!
# `PurchaseManager`

`completePurchase` verifies a receipt with the backend, refreshes the account and records the token
as verified, each call in a coroutine of its own. A set of tokens in flight, guarded by a mutex,
keeps two calls from verifying one token at the same time, and the recorded tokens keep later calls
from verifying it again. `refreshAccount` hands the session to `reload`, which is fire and forget;
the rest of the refresh runs in a further coroutine, which reports its progress into the flow of the
call.

A step is what one coroutine does between two points at which others may run. A section under the
mutex is one step, except for the record of a token, which reads the set and writes it back in two.

`Kept` is what the pipeline promises. It fails in three ways: the recorded tokens are looked at
before the mutex is taken, a session that cannot be fetched leaves a verified token unrecorded, and
the success is emitted while the refresh still runs (`not_kept_slowRefresh`). `kept_of_orderly`
shows the promise for the runs without these, over tokens that survive being stored as one text.
`CallStep` says once what a step does to the call that it is of, and the invariant is derived from
it.
-/

set_option autoImplicit false
set_option relaxedAutoImplicit false

namespace WindscribeVpn.Billing.PurchaseManager

open Foundations.Runs

/-! ### Calls -/

/-- `ReceiptParams`. -/
structure ReceiptParams where
  purchaseToken : String
  gpPackageName : String := ""
  gpProductId : String := ""
  type : String := ""
  amazonUserId : String := ""
  deriving DecidableEq, Repr

/-- `UserDataState`. -/
inductive UserDataState
  | loading (status : String)
  | success
  | error (error : String)
  deriving DecidableEq, Repr

/-- `Success` and `Error` end a flow. -/
def UserDataState.terminal : UserDataState → Bool
  | .loading _ => false
  | .success | .error _ => true

/-- How far the coroutine of a call has come. -/
inductive Phase
  | launched
  /-- The token was not found among the recorded ones. -/
  | unlisted
  | verifying
  | confirming
  /-- In `refreshAccount`, until the session is there. -/
  | fetching
  /-- `refreshAccount` has returned. -/
  | refreshed
  /-- The mutex is held and the recorded tokens were read. -/
  | recording (seen : List String)
  | recorded
  | cleared
  /-- In `finally`; an exception is still to be reported after it. -/
  | leaving (exception : Option String)
  | ended
  deriving DecidableEq, Repr

/-- How far the coroutine has come that `reload` launched for a call. -/
inductive Refresh
  | idle
  | storing (sipCount : ℕ)
  | staticIps
  | connectionData
  | serverList
  | done
  /-- An update has thrown. -/
  | failed
  deriving DecidableEq, Repr

/-- The refresh was launched and has neither finished nor thrown. -/
def Refresh.running : Refresh → Bool
  | .storing _ | .staticIps | .connectionData | .serverList => true
  | .idle | .done | .failed => false

/-- A call of `completePurchase`. -/
structure Call where
  receipt : ReceiptParams
  promoPcpId : Option String
  phase : Phase := .launched
  /-- What was emitted into the flow, from the first to the last. -/
  states : List UserDataState := []
  refresh : Refresh := .idle
  /-- The token was found among the recorded ones. -/
  listed : Bool := false
  deriving DecidableEq, Repr

/-- The token of a call. -/
def Call.token (call : Call) : String := call.receipt.purchaseToken

/-- `states.emit`. -/
def Call.emit (call : Call) (state : UserDataState) : Call :=
  { call with states := call.states ++ [state] }

/-! ### State -/

/-- The preferences, the set of tokens in flight, who holds the mutex, the calls, and the receipts
that the backend has accepted. -/
structure State where
  verifiedPurchaseTokens : List String
  amazonPurchasedItem : Option String
  purchasedItem : Option String
  inFlightTokens : List String
  mutex : Option ℕ
  calls : ℕ → Option Call
  accepted : List String

/-- The first state of a process. -/
def State.initial (verifiedPurchaseTokens : List String)
    (amazonPurchasedItem purchasedItem : Option String) : State where
  verifiedPurchaseTokens
  amazonPurchasedItem
  purchasedItem
  inFlightTokens := []
  mutex := none
  calls := fun _ ↦ none
  accepted := []

/-- What is done next; the number is that of the call. -/
inductive Action
  | completePurchase (i : ℕ) (receipt : ReceiptParams) (promoPcpId : Option String)
  | checkVerified (i : ℕ)
  | checkInFlight (i : ℕ)
  /-- The backend answers; an error is its message. -/
  | verifyPurchaseReceipt (i : ℕ) (error : Option String)
  /-- The promo confirmation is answered, or fails. -/
  | postPromoPaymentConfirmation (i : ℕ)
  /-- The session is answered, by its number of static IPs, or fails with a message. -/
  | getSession (i : ℕ) (result : Except String ℕ)
  | lockRecord (i : ℕ)
  | writeRecord (i : ℕ)
  | clearPending (i : ℕ)
  | succeed (i : ℕ)
  | release (i : ℕ)
  /-- The coroutine of the refresh goes on; an update may throw. -/
  | refresh (i : ℕ) (returns : Bool)

/-! ### Steps -/

/-- What reading the recorded tokens gives for a token that was written: they are stored as one
text, with commas between them. -/
def pieces (token : String) : List String :=
  ((token.toList.splitOn ',').map String.ofList).filter (· ≠ "")

/-- `PURCHASE_VERIFICATION_IN_PROGRESS`. -/
def purchaseVerificationInProgress : String := "Verification already in progress"

/-- `AMAZON_PURCHASE_TYPE`. -/
def amazonPurchaseType : String := "amazon"

/-- Writes a call back. -/
def State.put (s : State) (i : ℕ) (call : Call) : State :=
  { s with calls := Function.update s.calls i (some call) }

/-- The start of `refreshAccount`. -/
def Call.startRefresh (call : Call) : Call :=
  { call.emit (.loading "Getting session") with phase := .fetching }

/-- The call after its receipt was accepted: the promo is confirmed if there is one. -/
def Call.afterVerify (call : Call) : Call :=
  if call.promoPcpId.getD "" = "" then call.startRefresh else { call with phase := .confirming }

/-- The coroutine of the refresh up to the next point at which it suspends; `none` when it does not
run. An exception of the server list is caught, one of the others ends the coroutine. -/
def Call.advanceRefresh (call : Call) (returns : Bool) : Option Call :=
  match call.refresh with
  | .storing sipCount =>
    if 0 < sipCount then
      some { call.emit (.loading "Getting static IPs") with refresh := .staticIps }
    else some { call.emit (.loading "Getting connection data") with refresh := .connectionData }
  | .staticIps =>
    if returns then
      some { call.emit (.loading "Getting connection data") with refresh := .connectionData }
    else some { call with refresh := .failed }
  | .connectionData =>
    if returns then some { call.emit (.loading "Getting server list") with refresh := .serverList }
    else some { call with refresh := .failed }
  | .serverList => some { call with refresh := .done }
  | .idle | .done | .failed => none

/-- The step of a call that is in the state. -/
def stepCall (s : State) (i : ℕ) (call : Call) : Action → Option State
  | .completePurchase _ _ _ => none
  | .checkVerified _ =>
    if call.phase ≠ .launched then none
    else if call.token ∈ s.verifiedPurchaseTokens then
      some (s.put i { call.emit .success with phase := .ended, listed := true })
    else some (s.put i { call with phase := .unlisted })
  | .checkInFlight _ =>
    if call.phase ≠ .unlisted ∨ s.mutex ≠ none then none
    else if call.token ∈ s.inFlightTokens then
      some (s.put i { call.emit (.error purchaseVerificationInProgress) with phase := .ended })
    else
      some ({ s with inFlightTokens := call.token :: s.inFlightTokens }.put i
        { call.emit (.loading "Verifying purchase") with phase := .verifying })
  | .verifyPurchaseReceipt _ error =>
    if call.phase ≠ .verifying then none
    else
      match error with
      | some message => some (s.put i { call.emit (.error message) with phase := .leaving none })
      | none => some ({ s with accepted := call.token :: s.accepted }.put i call.afterVerify)
  | .postPromoPaymentConfirmation _ =>
    if call.phase ≠ .confirming then none else some (s.put i call.startRefresh)
  | .getSession _ result =>
    if call.phase ≠ .fetching then none
    else
      match result with
      | .ok sipCount =>
        some (s.put i { call with phase := .refreshed, refresh := .storing sipCount })
      | .error message => some (s.put i { call with phase := .leaving (some message) })
  | .lockRecord _ =>
    if call.phase ≠ .refreshed ∨ s.mutex ≠ none then none
    else
      some ({ s with mutex := some i }.put i
        { call with phase := .recording s.verifiedPurchaseTokens })
  | .writeRecord _ =>
    match call.phase with
    | .recording seen =>
      some ({ s with verifiedPurchaseTokens := seen ++ pieces call.token, mutex := none }.put i
        { call with phase := .recorded })
    | _ => none
  | .clearPending _ =>
    if call.phase ≠ .recorded ∨ s.mutex ≠ none then none
    else
      let t := s.put i { call with phase := .cleared }
      if call.receipt.type = amazonPurchaseType then some { t with amazonPurchasedItem := none }
      else some { t with purchasedItem := none }
  | .succeed _ =>
    if call.phase ≠ .cleared then none
    else some (s.put i { call.emit .success with phase := .leaving none })
  | .release _ =>
    match call.phase with
    | .leaving exception =>
      if s.mutex ≠ none then none
      else
        let reported :=
          match exception with
          | some message => call.emit (.error message)
          | none => call
        some ({ s with inFlightTokens := s.inFlightTokens.erase call.token }.put i
          { reported with phase := .ended })
    | _ => none
  | .refresh _ returns => (call.advanceRefresh returns).map fun call ↦ s.put i call

/-- The call that an action is of. -/
def Action.index : Action → ℕ
  | .completePurchase i _ _ | .checkVerified i | .checkInFlight i | .verifyPurchaseReceipt i _
  | .postPromoPaymentConfirmation i | .getSession i _ | .lockRecord i | .writeRecord i
  | .clearPending i | .succeed i | .release i | .refresh i _ => i

/-- One step. -/
def step (s : State) (a : Action) : Option State :=
  match s.calls a.index with
  | some call => stepCall s a.index call a
  | none =>
    match a with
    | .completePurchase i receipt promoPcpId => some (s.put i { receipt, promoPcpId })
    | _ => none

/-! ### The promise -/

/-- What the pipeline promises of every state. -/
structure Kept (s : State) : Prop where
  /-- No receipt is accepted twice. -/
  once : s.accepted.Nodup
  /-- Nothing is in flight when all calls have ended. -/
  drained : (∀ i call, s.calls i = some call → call.phase = .ended) → s.inFlightTokens = []
  /-- Nothing is emitted after a terminal state. -/
  last : ∀ i call, s.calls i = some call → ∀ before state after,
    call.states = before ++ state :: after → state.terminal → after = []
  /-- A call that has ended has emitted a terminal state. -/
  terminal : ∀ i call, s.calls i = some call → call.phase = .ended →
    ∃ state ∈ call.states, state.terminal
  /-- A success is emitted after the refresh of the call, and never while a refresh for the token
  runs. -/
  refreshed : ∀ i call, s.calls i = some call → .success ∈ call.states →
    (call.listed ∨ call.refresh = .done) ∧
      ∀ j other, s.calls j = some other → other.token = call.token → ¬ other.refresh.running

/-- No recorded token is lost by a step. -/
def KeepsRecord (s t : State) : Prop :=
  ∀ token ∈ s.verifiedPurchaseTokens, token ∈ t.verifiedPurchaseTokens

/-- The condition on a step. -/
def Orderly (s : State) (a : Action) : Prop :=
  match a with
  | .completePurchase _ receipt _ => pieces receipt.purchaseToken = [receipt.purchaseToken]
  | .checkInFlight i => ∀ call ∈ s.calls i, call.token ∉ s.verifiedPurchaseTokens
  | .getSession _ result => result.isOk
  | .lockRecord i => ∀ call ∈ s.calls i, call.refresh = .done
  | _ => True

instance decidableOrderly (s : State) (a : Action) : Decidable (Orderly s a) :=
  match a with
  | .completePurchase _ receipt _ =>
    inferInstanceAs (Decidable (pieces receipt.purchaseToken = [receipt.purchaseToken]))
  | .checkInFlight i =>
    inferInstanceAs (Decidable (∀ call ∈ s.calls i, call.token ∉ s.verifiedPurchaseTokens))
  | .getSession _ result => inferInstanceAs (Decidable (result.isOk = true))
  | .lockRecord i => inferInstanceAs (Decidable (∀ call ∈ s.calls i, call.refresh = .done))
  | .checkVerified _ | .verifyPurchaseReceipt _ _ | .postPromoPaymentConfirmation _
  | .writeRecord _ | .clearPending _ | .succeed _ | .release _ | .refresh _ _ =>
    inferInstanceAs (Decidable True)

/-! ### What holds along orderly runs -/

/-- The token of the call is in flight. -/
def Phase.inFlight : Phase → Bool
  | .launched | .unlisted | .ended => false
  | .verifying | .confirming | .fetching | .refreshed | .recording _ | .recorded | .cleared
  | .leaving _ => true

/-- The receipt of the call is accepted and its token not recorded yet. -/
def Phase.accepted : Phase → Bool
  | .confirming | .fetching | .refreshed | .recording _ => true
  | .launched | .unlisted | .verifying | .recorded | .cleared | .leaving _ | .ended => false

/-- The call is on its way to the record of its token. -/
def Phase.unrecorded (phase : Phase) : Bool := phase = .verifying || phase.accepted

/-- No terminal state was emitted. -/
def Loads (states : List UserDataState) : Prop := ∀ state ∈ states, state.terminal = false

/-- A terminal state was emitted, and it is the last one. -/
def Closes (states : List UserDataState) : Prop :=
  ∃ before state, states = before ++ [state] ∧ Loads before ∧ state.terminal = true

/-- What was emitted and how far the refresh is, by the phase of a call. -/
def Call.Sound (call : Call) (verified : List String) : Prop :=
  match call.phase with
  | .launched | .unlisted | .verifying | .confirming | .fetching | .leaving (some _) =>
    Loads call.states ∧ call.refresh = .idle
  | .refreshed => Loads call.states
  | .recording _ => Loads call.states ∧ call.refresh = .done
  | .recorded | .cleared =>
    Loads call.states ∧ call.refresh = .done ∧ call.token ∈ verified
  | .leaving none | .ended =>
    Closes call.states ∧ call.refresh.running = false ∧
      (.success ∈ call.states →
        (call.listed ∨ call.refresh = .done) ∧ call.token ∈ verified)

/-- The invariant of orderly runs. -/
structure Ordered (s : State) : Prop where
  sound : ∀ i call, s.calls i = some call → call.Sound s.verifiedPurchaseTokens
  whole : ∀ i call, s.calls i = some call → pieces call.token = [call.token]
  unrecorded : ∀ i call, s.calls i = some call → call.phase.unrecorded →
    call.token ∉ s.verifiedPurchaseTokens
  unique : ∀ i j call other, s.calls i = some call → s.calls j = some other →
    call.phase.inFlight → other.phase.inFlight → call.token = other.token → i = j
  inFlight : ∀ token, token ∈ s.inFlightTokens ↔
    ∃ i call, s.calls i = some call ∧ call.phase.inFlight ∧ call.token = token
  distinct : s.inFlightTokens.Nodup
  once : s.accepted.Nodup
  origin : ∀ token ∈ s.accepted, token ∈ s.verifiedPurchaseTokens ∨
    ∃ i call, s.calls i = some call ∧ call.phase.accepted ∧ call.token = token
  mutex : ∀ i call, s.calls i = some call → ∀ seen, call.phase = .recording seen →
    s.mutex = some i ∧ seen = s.verifiedPurchaseTokens

section States

variable {states : List UserDataState}

theorem loads_append_loading (hloads : Loads states) (status : String) :
    Loads (states ++ [.loading status]) := by
  intro state hstate
  rcases List.mem_append.mp hstate with hbefore | hlast
  · exact hloads state hbefore
  · rw [List.mem_singleton.mp hlast]
    rfl

theorem closes_append (hloads : Loads states) {state : UserDataState} (hterminal : state.terminal) :
    Closes (states ++ [state]) :=
  ⟨states, state, rfl, hloads, hterminal⟩

/-- A success among the states so far is excluded while only progress was emitted. -/
theorem not_success_of_loads (hloads : Loads states) : .success ∉ states := by
  intro hsuccess
  cases hloads _ hsuccess

/-- After a terminal state nothing was emitted. -/
theorem after_eq_nil_of_loads (hloads : Loads states) {before after : List UserDataState}
    {state : UserDataState} (hstates : states = before ++ state :: after)
    (hterminal : state.terminal) : after = [] := by
  have hnot := hloads state (hstates ▸ List.mem_append_right _ List.mem_cons_self)
  rw [hterminal] at hnot
  cases hnot

theorem after_eq_nil_of_closes (hcloses : Closes states) {before after : List UserDataState}
    {state : UserDataState} (hstates : states = before ++ state :: after)
    (hterminal : state.terminal) : after = [] := by
  obtain ⟨progress, last, rfl, hprogress, -⟩ := hcloses
  rcases List.eq_nil_or_concat after with rfl | ⟨init, final, rfl⟩
  · rfl
  · rw [List.concat_eq_append, ← List.cons_append, ← List.append_assoc] at hstates
    obtain ⟨hinit, -⟩ := List.append_inj' hstates rfl
    have hnot := hprogress state (hinit ▸ List.mem_append_right _ List.mem_cons_self)
    rw [hterminal] at hnot
    cases hnot

end States

variable {s t : State} {i : ℕ} {call call' : Call}

/-- The promise follows from the invariant. -/
theorem kept_of_ordered (hordered : Ordered s) : Kept s where
  once := hordered.once
  drained := by
    intro hended
    rw [List.eq_nil_iff_forall_not_mem]
    intro token htoken
    obtain ⟨i, call, hcall, hflight, -⟩ := (hordered.inFlight token).mp htoken
    rw [hended i call hcall] at hflight
    cases hflight
  last := by
    intro i call hcall before state after hstates hterminal
    have hsound := hordered.sound i call hcall
    unfold Call.Sound at hsound
    split at hsound
    all_goals first
      | exact after_eq_nil_of_loads hsound.1 hstates hterminal
      | exact after_eq_nil_of_loads hsound hstates hterminal
      | exact after_eq_nil_of_closes hsound.1 hstates hterminal
  terminal := by
    intro i call hcall hended
    have hsound := hordered.sound i call hcall
    simp only [Call.Sound, hended] at hsound
    obtain ⟨⟨before, state, hstates, -, hterminal⟩, -⟩ := hsound
    exact ⟨state, hstates ▸ List.mem_append_right _ List.mem_cons_self, hterminal⟩
  refreshed := by
    intro i call hcall hsuccess
    have hsound := hordered.sound i call hcall
    have hclosed : (call.listed ∨ call.refresh = .done) ∧
        call.token ∈ s.verifiedPurchaseTokens := by
      unfold Call.Sound at hsound
      split at hsound
      all_goals first
        | exact absurd hsuccess (not_success_of_loads hsound.1)
        | exact absurd hsuccess (not_success_of_loads hsound)
        | exact hsound.2.2 hsuccess
    refine ⟨hclosed.1, ?_⟩
    intro j other hother htoken hrunning
    have hunrecorded := hordered.unrecorded j other hother
    have hquiet := hordered.sound j other hother
    unfold Call.Sound at hquiet
    split at hquiet
    case h_7 hphase =>
      rw [hphase, htoken] at hunrecorded
      exact hunrecorded rfl hclosed.2
    all_goals simp_all [Refresh.running]

/-! ### Steps of one call -/

/-- What a step does to the call that it is of, branch by branch. -/
inductive CallStep (s : State) (i : ℕ) (call : Call) : Action → State → Prop
  | listed {j : ℕ} (hphase : call.phase = .launched)
      (hlisted : call.token ∈ s.verifiedPurchaseTokens) :
      CallStep s i call (.checkVerified j)
        (s.put i { call.emit .success with phase := .ended, listed := true })
  | unlisted {j : ℕ} (hphase : call.phase = .launched)
      (hlisted : call.token ∉ s.verifiedPurchaseTokens) :
      CallStep s i call (.checkVerified j) (s.put i { call with phase := .unlisted })
  | inFlight {j : ℕ} (hphase : call.phase = .unlisted) (hflight : call.token ∈ s.inFlightTokens)
      (hfree : s.mutex = none) :
      CallStep s i call (.checkInFlight j)
        (s.put i { call.emit (.error purchaseVerificationInProgress) with phase := .ended })
  | entered {j : ℕ} (hphase : call.phase = .unlisted) (hflight : call.token ∉ s.inFlightTokens)
      (hfree : s.mutex = none) :
      CallStep s i call (.checkInFlight j)
        ({ s with inFlightTokens := call.token :: s.inFlightTokens }.put i
          { call.emit (.loading "Verifying purchase") with phase := .verifying })
  | refused {j : ℕ} {message : String} (hphase : call.phase = .verifying) :
      CallStep s i call (.verifyPurchaseReceipt j (some message))
        (s.put i { call.emit (.error message) with phase := .leaving none })
  | accepted {j : ℕ} (hphase : call.phase = .verifying) (hpromo : call.promoPcpId.getD "" = "") :
      CallStep s i call (.verifyPurchaseReceipt j none)
        ({ s with accepted := call.token :: s.accepted }.put i call.startRefresh)
  | acceptedPromo {j : ℕ} (hphase : call.phase = .verifying)
      (hpromo : call.promoPcpId.getD "" ≠ "") :
      CallStep s i call (.verifyPurchaseReceipt j none)
        ({ s with accepted := call.token :: s.accepted }.put i { call with phase := .confirming })
  | confirmed {j : ℕ} (hphase : call.phase = .confirming) :
      CallStep s i call (.postPromoPaymentConfirmation j) (s.put i call.startRefresh)
  | fetched {j sipCount : ℕ} (hphase : call.phase = .fetching) :
      CallStep s i call (.getSession j (.ok sipCount))
        (s.put i { call with phase := .refreshed, refresh := .storing sipCount })
  | unfetched {j : ℕ} {message : String} (hphase : call.phase = .fetching) :
      CallStep s i call (.getSession j (.error message))
        (s.put i { call with phase := .leaving (some message) })
  | locked {j : ℕ} (hphase : call.phase = .refreshed) (hfree : s.mutex = none) :
      CallStep s i call (.lockRecord j)
        ({ s with mutex := some i }.put i
          { call with phase := .recording s.verifiedPurchaseTokens })
  | recorded {j : ℕ} {seen : List String} (hphase : call.phase = .recording seen) :
      CallStep s i call (.writeRecord j)
        ({ s with verifiedPurchaseTokens := seen ++ pieces call.token, mutex := none }.put i
          { call with phase := .recorded })
  | clearedAmazon {j : ℕ} (hphase : call.phase = .recorded) (hfree : s.mutex = none)
      (htype : call.receipt.type = amazonPurchaseType) :
      CallStep s i call (.clearPending j)
        { s.put i { call with phase := .cleared } with amazonPurchasedItem := none }
  | cleared {j : ℕ} (hphase : call.phase = .recorded) (hfree : s.mutex = none)
      (htype : call.receipt.type ≠ amazonPurchaseType) :
      CallStep s i call (.clearPending j)
        { s.put i { call with phase := .cleared } with purchasedItem := none }
  | succeeded {j : ℕ} (hphase : call.phase = .cleared) :
      CallStep s i call (.succeed j) (s.put i { call.emit .success with phase := .leaving none })
  | released {j : ℕ} (hphase : call.phase = .leaving none) (hfree : s.mutex = none) :
      CallStep s i call (.release j)
        ({ s with inFlightTokens := s.inFlightTokens.erase call.token }.put i
          { call with phase := .ended })
  | failed {j : ℕ} {message : String} (hphase : call.phase = .leaving (some message))
      (hfree : s.mutex = none) :
      CallStep s i call (.release j)
        ({ s with inFlightTokens := s.inFlightTokens.erase call.token }.put i
          { call.emit (.error message) with phase := .ended })
  | refreshed {j : ℕ} {returns : Bool} {call' : Call}
      (hadvance : call.advanceRefresh returns = some call') :
      CallStep s i call (.refresh j returns) (s.put i call')

/-- A call makes no other steps. -/
theorem callStep_of_stepCall (a : Action) (hstep : stepCall s i call a = some t) :
    CallStep s i call a t := by
  cases a with
  | completePurchase j receipt promoPcpId => cases hstep
  | checkVerified j =>
    simp only [stepCall] at hstep
    split_ifs at hstep with hphase hlisted
    · obtain rfl := Option.some.inj hstep
      exact .listed (not_not.mp hphase) hlisted
    · obtain rfl := Option.some.inj hstep
      exact .unlisted (not_not.mp hphase) hlisted
  | checkInFlight j =>
    simp only [stepCall] at hstep
    split_ifs at hstep with hguard hflight
    · obtain ⟨hphase, hfree⟩ := not_or.mp hguard
      obtain rfl := Option.some.inj hstep
      exact .inFlight (not_not.mp hphase) hflight (not_not.mp hfree)
    · obtain ⟨hphase, hfree⟩ := not_or.mp hguard
      obtain rfl := Option.some.inj hstep
      exact .entered (not_not.mp hphase) hflight (not_not.mp hfree)
  | verifyPurchaseReceipt j error =>
    simp only [stepCall] at hstep
    split_ifs at hstep with hphase
    cases error with
    | some message =>
      obtain rfl := Option.some.inj hstep
      exact .refused (not_not.mp hphase)
    | none =>
      obtain rfl := Option.some.inj hstep
      by_cases hpromo : call.promoPcpId.getD "" = ""
      · rw [Call.afterVerify, if_pos hpromo]
        exact .accepted (not_not.mp hphase) hpromo
      · rw [Call.afterVerify, if_neg hpromo]
        exact .acceptedPromo (not_not.mp hphase) hpromo
  | postPromoPaymentConfirmation j =>
    simp only [stepCall] at hstep
    split_ifs at hstep with hphase
    obtain rfl := Option.some.inj hstep
    exact .confirmed (not_not.mp hphase)
  | getSession j result =>
    simp only [stepCall] at hstep
    split_ifs at hstep with hphase
    cases result with
    | error message =>
      obtain rfl := Option.some.inj hstep
      exact .unfetched (not_not.mp hphase)
    | ok sipCount =>
      obtain rfl := Option.some.inj hstep
      exact .fetched (not_not.mp hphase)
  | lockRecord j =>
    simp only [stepCall] at hstep
    split_ifs at hstep with hguard
    obtain ⟨hphase, hfree⟩ := not_or.mp hguard
    obtain rfl := Option.some.inj hstep
    exact .locked (not_not.mp hphase) (not_not.mp hfree)
  | writeRecord j =>
    simp only [stepCall] at hstep
    split at hstep
    case h_1 seen hphase =>
      obtain rfl := Option.some.inj hstep
      exact .recorded hphase
    case h_2 => cases hstep
  | clearPending j =>
    simp only [stepCall] at hstep
    split_ifs at hstep with hguard htype
    · obtain ⟨hphase, hfree⟩ := not_or.mp hguard
      obtain rfl := Option.some.inj hstep
      exact .clearedAmazon (not_not.mp hphase) (not_not.mp hfree) htype
    · obtain ⟨hphase, hfree⟩ := not_or.mp hguard
      obtain rfl := Option.some.inj hstep
      exact .cleared (not_not.mp hphase) (not_not.mp hfree) htype
  | succeed j =>
    simp only [stepCall] at hstep
    split_ifs at hstep with hphase
    obtain rfl := Option.some.inj hstep
    exact .succeeded (not_not.mp hphase)
  | release j =>
    simp only [stepCall] at hstep
    split at hstep
    case h_1 exception hphase =>
      split_ifs at hstep with hheld
      obtain rfl := Option.some.inj hstep
      cases exception with
      | none => exact .released hphase (not_not.mp hheld)
      | some message => exact .failed hphase (not_not.mp hheld)
    case h_2 => cases hstep
  | refresh j returns =>
    simp only [stepCall, Option.map_eq_some_iff] at hstep
    obtain ⟨call', hadvance, rfl⟩ := hstep
    exact .refreshed hadvance

/-- A step of one call that neither accepts a receipt nor changes which tokens are recorded or in
flight. -/
structure Local (s t : State) (i : ℕ) (call call' : Call) : Prop where
  calls : t.calls = Function.update s.calls i (some call')
  verified : t.verifiedPurchaseTokens = s.verifiedPurchaseTokens
  inFlightTokens : t.inFlightTokens = s.inFlightTokens
  accepted : t.accepted = s.accepted
  mutex : t.mutex = s.mutex ∨ s.mutex = none
  token : call'.token = call.token
  sound : call'.Sound s.verifiedPurchaseTokens
  inFlight : call'.phase.inFlight = call.phase.inFlight
  unrecorded : call'.phase.unrecorded → call.phase.unrecorded
  stays : call.phase.accepted → call'.phase.accepted
  recording : ∀ seen, call'.phase = .recording seen →
    t.mutex = some i ∧ seen = s.verifiedPurchaseTokens

/-- The calls after one of them was written back. -/
theorem calls_update {calls : ℕ → Option Call} (j : ℕ) (other : Call)
    (hother : Function.update calls i (some call') j = some other) :
    (j = i ∧ other = call') ∨ (j ≠ i ∧ calls j = some other) := by
  by_cases hji : j = i
  · subst hji
    rw [Function.update_self, Option.some.injEq] at hother
    exact Or.inl ⟨rfl, hother.symm⟩
  · rw [Function.update_of_ne hji] at hother
    exact Or.inr ⟨hji, hother⟩

/-- A call with a property is still there after the write, if the call that is written back has kept
the property. -/
theorem exists_update {calls : ℕ → Option Call} {P : Call → Prop}
    (hkept : ∀ before, calls i = some before → P before → P call')
    (hsome : ∃ j other, calls j = some other ∧ P other) :
    ∃ j other, Function.update calls i (some call') j = some other ∧ P other := by
  obtain ⟨j, other, hother, hproperty⟩ := hsome
  by_cases hji : j = i
  · subst hji
    exact ⟨j, call', Function.update_self .., hkept other hother hproperty⟩
  · exact ⟨j, other, (Function.update_of_ne hji ..).trans hother, hproperty⟩

/-- An accepted token stays accounted for when a call changes that is not accepted. -/
theorem origin_of_unaccepted (hordered : Ordered s) (hcall : s.calls i = some call)
    (hphase : call.phase.accepted = false) {token : String} (htoken : token ∈ s.accepted) :
    token ∈ s.verifiedPurchaseTokens ∨ ∃ j other,
      Function.update s.calls i (some call') j = some other ∧ other.phase.accepted ∧
        other.token = token := by
  refine (hordered.origin token htoken).imp id ?_
  refine exists_update fun before hbefore ⟨haccept, _⟩ ↦ ?_
  obtain rfl : call = before := Option.some.inj (hcall.symm.trans hbefore)
  exact absurd (hphase.symm.trans haccept) nofun

theorem ordered_local (hordered : Ordered s) (hcall : s.calls i = some call)
    (hlocal : Local s t i call call') : Ordered t where
  sound := by
    intro j other hother
    rw [hlocal.calls] at hother
    rw [hlocal.verified]
    rcases calls_update j other hother with ⟨-, rfl⟩ | ⟨-, hbefore⟩
    · exact hlocal.sound
    · exact hordered.sound j other hbefore
  whole := by
    intro j other hother
    rw [hlocal.calls] at hother
    rcases calls_update j other hother with ⟨-, rfl⟩ | ⟨-, hbefore⟩
    · rw [hlocal.token]
      exact hordered.whole i call hcall
    · exact hordered.whole j other hbefore
  unrecorded := by
    intro j other hother hphase
    rw [hlocal.calls] at hother
    rw [hlocal.verified]
    rcases calls_update j other hother with ⟨-, rfl⟩ | ⟨-, hbefore⟩
    · rw [hlocal.token]
      exact hordered.unrecorded i call hcall (hlocal.unrecorded hphase)
    · exact hordered.unrecorded j other hbefore hphase
  unique := by
    intro j k first second hfirst hsecond hflight hflight' htoken
    rw [hlocal.calls] at hfirst hsecond
    rcases calls_update j first hfirst with ⟨rfl, rfl⟩ | ⟨-, hj⟩ <;>
      rcases calls_update k second hsecond with ⟨rfl, rfl⟩ | ⟨-, hk⟩
    · rfl
    · rw [hlocal.inFlight] at hflight
      rw [hlocal.token] at htoken
      exact hordered.unique _ _ _ _ hcall hk hflight hflight' htoken
    · rw [hlocal.inFlight] at hflight'
      rw [hlocal.token] at htoken
      exact hordered.unique _ _ _ _ hj hcall hflight hflight' htoken
    · exact hordered.unique _ _ _ _ hj hk hflight hflight' htoken
  inFlight := by
    intro token
    rw [hlocal.inFlightTokens, hordered.inFlight token, hlocal.calls]
    constructor
    · refine exists_update fun before hbefore ⟨hflight, htoken⟩ ↦ ?_
      obtain rfl : call = before := Option.some.inj (hcall.symm.trans hbefore)
      exact ⟨hlocal.inFlight ▸ hflight, hlocal.token.trans htoken⟩
    · rintro ⟨j, other, hother, hflight, htoken⟩
      rcases calls_update j other hother with ⟨rfl, rfl⟩ | ⟨-, hbefore⟩
      · exact ⟨j, call, hcall, hlocal.inFlight ▸ hflight, hlocal.token ▸ htoken⟩
      · exact ⟨j, other, hbefore, hflight, htoken⟩
  distinct := by
    rw [hlocal.inFlightTokens]
    exact hordered.distinct
  once := by
    rw [hlocal.accepted]
    exact hordered.once
  origin := by
    intro token haccepted
    rw [hlocal.accepted] at haccepted
    rw [hlocal.verified, hlocal.calls]
    refine (hordered.origin token haccepted).imp id ?_
    refine exists_update fun before hbefore ⟨hphase, htoken⟩ ↦ ?_
    obtain rfl : call = before := Option.some.inj (hcall.symm.trans hbefore)
    exact ⟨hlocal.stays hphase, hlocal.token.trans htoken⟩
  mutex := by
    intro j other hother seen hphase
    rw [hlocal.calls] at hother
    rw [hlocal.verified]
    rcases calls_update j other hother with ⟨rfl, rfl⟩ | ⟨-, hbefore⟩
    · exact hlocal.recording seen hphase
    · obtain ⟨hholder, hseen⟩ := hordered.mutex j other hbefore seen hphase
      rcases hlocal.mutex with hsame | hfree
      · exact ⟨hsame.trans hholder, hseen⟩
      · rw [hholder] at hfree
        cases hfree

/-- What holds of the call that was written back, and of the others, holds of all calls. -/
theorem forall_put {P : ℕ → Call → Prop} (hnew : P i call')
    (hold : ∀ j other, j ≠ i → s.calls j = some other → P j other) :
    ∀ j other, (s.put i call').calls j = some other → P j other := by
  intro j other hother
  rcases calls_update j other hother with ⟨rfl, rfl⟩ | ⟨hji, hbefore⟩
  · exact hnew
  · exact hold j other hji hbefore

/-- Another call is still there after one was written back. -/
theorem put_of_ne {j : ℕ} {other : Call} (hother : s.calls j = some other) (hji : j ≠ i) :
    (s.put i call').calls j = some other :=
  (Function.update_of_ne hji ..).trans hother

theorem put_self : (s.put i call').calls i = some call' := Function.update_self ..

/-- A call that is on its way to the record is in flight. -/
theorem inFlight_of_unrecorded {phase : Phase} (hphase : phase.unrecorded) : phase.inFlight := by
  cases phase <;> first | rfl | cases hphase

theorem inFlight_of_accepted {phase : Phase} (hphase : phase.accepted) : phase.inFlight := by
  cases phase <;> first | rfl | cases hphase

/-- A new call is launched. -/
theorem ordered_launch (hordered : Ordered s) (hcall : s.calls i = none) (receipt : ReceiptParams)
    (promoPcpId : Option String) (hwhole : pieces receipt.purchaseToken = [receipt.purchaseToken]) :
    Ordered (s.put i { receipt, promoPcpId }) where
  sound := forall_put ⟨nofun, rfl⟩ fun j other _ ↦ hordered.sound j other
  whole := forall_put hwhole fun j other _ ↦ hordered.whole j other
  unrecorded := forall_put nofun fun j other _ ↦ hordered.unrecorded j other
  unique := by
    intro j k first second hfirst hsecond hflight hflight' htoken
    rcases calls_update j first hfirst with ⟨-, rfl⟩ | ⟨-, hj⟩
    · cases hflight
    · rcases calls_update k second hsecond with ⟨-, rfl⟩ | ⟨-, hk⟩
      · cases hflight'
      · exact hordered.unique _ _ _ _ hj hk hflight hflight' htoken
  inFlight := by
    intro token
    rw [show (s.put i _).inFlightTokens = s.inFlightTokens from rfl, hordered.inFlight token]
    constructor
    · refine exists_update fun before hbefore ↦ ?_
      rw [hcall] at hbefore
      cases hbefore
    · rintro ⟨j, other, hother, hflight⟩
      rcases calls_update j other hother with ⟨-, rfl⟩ | ⟨-, hbefore⟩
      · cases hflight.1
      · exact ⟨j, other, hbefore, hflight⟩
  distinct := hordered.distinct
  once := hordered.once
  origin := by
    intro token haccepted
    refine (hordered.origin token haccepted).imp id ?_
    refine exists_update fun before hbefore ↦ ?_
    rw [hcall] at hbefore
    cases hbefore
  mutex := forall_put nofun fun j other _ ↦ hordered.mutex j other

/-- A call enters the set of tokens in flight. -/
theorem ordered_enter (hordered : Ordered s) (hcall : s.calls i = some call)
    (hphase : call.phase = .unlisted) (hflight : call.token ∉ s.inFlightTokens)
    (hverified : call.token ∉ s.verifiedPurchaseTokens) :
    Ordered ({ s with inFlightTokens := call.token :: s.inFlightTokens }.put i
      { call.emit (.loading "Verifying purchase") with phase := .verifying }) where
  sound := by
    refine forall_put ?_ fun j other _ ↦ hordered.sound j other
    have hsound := hordered.sound i call hcall
    simp only [Call.Sound, hphase] at hsound
    exact ⟨loads_append_loading hsound.1 _, hsound.2⟩
  whole := forall_put (hordered.whole i call hcall) fun j other _ ↦ hordered.whole j other
  unrecorded := forall_put (fun _ ↦ hverified) fun j other _ ↦ hordered.unrecorded j other
  unique := by
    have hother : ∀ j other, s.calls j = some other → other.phase.inFlight →
        other.token ≠ call.token := by
      intro j other hbefore hinFlight htoken
      exact hflight ((hordered.inFlight _).mpr ⟨j, other, hbefore, hinFlight, htoken⟩)
    intro j k first second hfirst hsecond hfirst' hsecond' htoken
    rcases calls_update j first hfirst with ⟨rfl, rfl⟩ | ⟨-, hj⟩ <;>
      rcases calls_update k second hsecond with ⟨rfl, rfl⟩ | ⟨-, hk⟩
    · rfl
    · exact absurd htoken.symm (hother k second hk hsecond')
    · exact absurd htoken (hother j first hj hfirst')
    · exact hordered.unique _ _ _ _ hj hk hfirst' hsecond' htoken
  inFlight := by
    intro token
    constructor
    · intro htoken
      rcases List.mem_cons.mp htoken with rfl | hbefore
      · exact ⟨i, _, put_self, rfl, rfl⟩
      · refine exists_update (fun before hbefore ⟨hinFlight, _⟩ ↦ ?_)
          ((hordered.inFlight token).mp hbefore)
        obtain rfl : call = before := Option.some.inj (hcall.symm.trans hbefore)
        rw [hphase] at hinFlight
        cases hinFlight
    · rintro ⟨j, other, hother, hinFlight, hsame⟩
      rcases calls_update j other hother with ⟨-, rfl⟩ | ⟨-, hbefore⟩
      · exact hsame ▸ List.mem_cons_self
      · exact List.mem_cons_of_mem _
          ((hordered.inFlight token).mpr ⟨j, other, hbefore, hinFlight, hsame⟩)
  distinct := List.nodup_cons.mpr ⟨hflight, hordered.distinct⟩
  once := hordered.once
  origin := fun _ ↦ origin_of_unaccepted hordered hcall (by rw [hphase]; rfl)
  mutex := forall_put nofun fun j other _ ↦ hordered.mutex j other

/-- The backend accepts a receipt. -/
theorem ordered_accept (hordered : Ordered s) (hcall : s.calls i = some call)
    (hphase : call.phase = .verifying) (hnext : call'.phase = .confirming ∨ call'.phase = .fetching)
    (htoken : call'.token = call.token) (hloads : Loads call'.states)
    (hidle : call'.refresh = .idle) :
    Ordered ({ s with accepted := call.token :: s.accepted }.put i call') := by
  have haccepted : call'.phase.accepted = true := by
    rcases hnext with hnext | hnext <;> rw [hnext] <;> rfl
  have hfresh : call.token ∉ s.accepted := by
    intro hbefore
    rcases hordered.origin _ hbefore with hrecorded | ⟨j, other, hother, haccept, hsame⟩
    · exact hordered.unrecorded i call hcall (by rw [hphase]; rfl) hrecorded
    · obtain rfl := hordered.unique j i other call hother hcall (inFlight_of_accepted haccept)
        (by rw [hphase]; rfl) hsame
      obtain rfl : call = other := Option.some.inj (hcall.symm.trans hother)
      rw [hphase] at haccept
      cases haccept
  have hlocal : Local s (s.put i call') i call call' :=
    { calls := rfl
      verified := rfl
      inFlightTokens := rfl
      accepted := rfl
      mutex := Or.inl rfl
      token := htoken
      sound := by
        rcases hnext with hnext | hnext <;> simp only [Call.Sound, hnext] <;> exact ⟨hloads, hidle⟩
      inFlight := by rw [hphase, inFlight_of_accepted haccepted]; rfl
      unrecorded := fun _ ↦ by rw [hphase]; rfl
      stays := fun _ ↦ haccepted
      recording := by
        intro seen hseen
        rcases hnext with hnext | hnext <;> rw [hnext] at hseen <;> cases hseen }
  have hput := ordered_local hordered hcall hlocal
  exact
    { sound := hput.sound
      whole := hput.whole
      unrecorded := hput.unrecorded
      unique := hput.unique
      inFlight := hput.inFlight
      distinct := hput.distinct
      once := List.nodup_cons.mpr ⟨hfresh, hordered.once⟩
      origin := by
        intro token hmem
        rcases List.mem_cons.mp hmem with rfl | hbefore
        · exact Or.inr ⟨i, call', put_self, haccepted, htoken⟩
        · exact hput.origin token hbefore
      mutex := hput.mutex }

/-- More recorded tokens leave a call sound. -/
theorem sound_mono {verified verified' : List String} (hsub : verified ⊆ verified')
    (hsound : call.Sound verified) : call.Sound verified' := by
  cases hphase : call.phase with
  | recorded | cleared =>
    simp only [Call.Sound, hphase] at hsound ⊢
    exact ⟨hsound.1, hsound.2.1, hsub hsound.2.2⟩
  | leaving exception =>
    cases exception with
    | none =>
      simp only [Call.Sound, hphase] at hsound ⊢
      exact ⟨hsound.1, hsound.2.1, fun hsuccess ↦
        ⟨(hsound.2.2 hsuccess).1, hsub (hsound.2.2 hsuccess).2⟩⟩
    | some message => simpa only [Call.Sound, hphase] using hsound
  | ended =>
    simp only [Call.Sound, hphase] at hsound ⊢
    exact ⟨hsound.1, hsound.2.1, fun hsuccess ↦
      ⟨(hsound.2.2 hsuccess).1, hsub (hsound.2.2 hsuccess).2⟩⟩
  | launched | unlisted | verifying | confirming | fetching | refreshed | recording seen =>
    simpa only [Call.Sound, hphase] using hsound

/-- A token is recorded. -/
theorem ordered_record {seen : List String} (hordered : Ordered s) (hcall : s.calls i = some call)
    (hphase : call.phase = .recording seen) :
    Ordered ({ s with
      verifiedPurchaseTokens := seen ++ pieces call.token, mutex := none }.put i
        { call with phase := .recorded }) := by
  obtain ⟨hholder, rfl⟩ := hordered.mutex i call hcall seen hphase
  rw [hordered.whole i call hcall]
  have hflight : call.phase.inFlight := by rw [hphase]; rfl
  have hothers : ∀ j other, j ≠ i → s.calls j = some other → other.phase.inFlight →
      other.token ≠ call.token := by
    intro j other hji hother hinFlight htoken
    exact hji (hordered.unique _ _ _ _ hother hcall hinFlight hflight htoken)
  exact
    { sound := by
        refine forall_put ?_ fun j other _ hother ↦
          sound_mono (List.subset_append_left _ _) (hordered.sound j other hother)
        have hsound := hordered.sound i call hcall
        simp only [Call.Sound, hphase] at hsound
        exact ⟨hsound.1, hsound.2, List.mem_append_right _ List.mem_cons_self⟩
      whole := forall_put (hordered.whole i call hcall) fun j other _ ↦ hordered.whole j other
      unrecorded := by
        refine forall_put nofun fun j other hji hother hunrecorded hmem ↦ ?_
        rcases List.mem_append.mp hmem with hbefore | hnew
        · exact hordered.unrecorded j other hother hunrecorded hbefore
        · exact hothers j other hji hother (inFlight_of_unrecorded hunrecorded)
            (List.mem_singleton.mp hnew)
      unique := by
        intro j k first second hfirst hsecond hfirst' hsecond' htoken
        rcases calls_update j first hfirst with ⟨rfl, rfl⟩ | ⟨hji, hj⟩ <;>
          rcases calls_update k second hsecond with ⟨rfl, rfl⟩ | ⟨hki, hk⟩
        · rfl
        · exact absurd htoken.symm (hothers k second hki hk hsecond')
        · exact absurd htoken (hothers j first hji hj hfirst')
        · exact hordered.unique _ _ _ _ hj hk hfirst' hsecond' htoken
      inFlight := by
        intro token
        refine (hordered.inFlight token).trans ⟨?_, ?_⟩
        · refine exists_update fun before hbefore ⟨_, hsame⟩ ↦ ?_
          obtain rfl : call = before := Option.some.inj (hcall.symm.trans hbefore)
          exact ⟨rfl, hsame⟩
        · rintro ⟨j, other, hother, hinFlight, hsame⟩
          rcases calls_update j other hother with ⟨rfl, rfl⟩ | ⟨-, hbefore⟩
          · exact ⟨j, call, hcall, hflight, hsame⟩
          · exact ⟨j, other, hbefore, hinFlight, hsame⟩
      distinct := hordered.distinct
      once := hordered.once
      origin := by
        intro token haccepted
        rcases hordered.origin token haccepted with hrecorded | ⟨j, other, hother, haccept, hsame⟩
        · exact Or.inl (List.mem_append_left _ hrecorded)
        · by_cases hji : j = i
          · subst hji
            obtain rfl : call = other := Option.some.inj (hcall.symm.trans hother)
            exact Or.inl (hsame ▸ List.mem_append_right _ List.mem_cons_self)
          · exact Or.inr ⟨j, other, put_of_ne hother hji, haccept, hsame⟩
      mutex := by
        refine forall_put nofun fun j other hji hother seen hseen ↦ ?_
        have hsame := (hordered.mutex j other hother seen hseen).1
        rw [hholder, Option.some.injEq] at hsame
        exact absurd hsame.symm hji }

/-- A call leaves the set of tokens in flight. -/
theorem ordered_release {exception : Option String} (hordered : Ordered s)
    (hcall : s.calls i = some call) (hphase : call.phase = .leaving exception)
    (htoken : call'.token = call.token) (hended : call'.phase = .ended)
    (hsound : call'.Sound s.verifiedPurchaseTokens) :
    Ordered ({ s with inFlightTokens := s.inFlightTokens.erase call.token }.put i call') where
  sound := forall_put hsound fun j other _ ↦ hordered.sound j other
  whole := forall_put (htoken ▸ hordered.whole i call hcall) fun j other _ ↦
    hordered.whole j other
  unrecorded := by
    refine forall_put (fun hunrecorded ↦ ?_) fun j other _ ↦ hordered.unrecorded j other
    rw [hended] at hunrecorded
    cases hunrecorded
  unique := by
    intro j k first second hfirst hsecond hfirst' hsecond' hsame
    rcases calls_update j first hfirst with ⟨-, rfl⟩ | ⟨-, hj⟩
    · rw [hended] at hfirst'
      cases hfirst'
    · rcases calls_update k second hsecond with ⟨-, rfl⟩ | ⟨-, hk⟩
      · rw [hended] at hsecond'
        cases hsecond'
      · exact hordered.unique _ _ _ _ hj hk hfirst' hsecond' hsame
  inFlight := by
    intro token
    have hflight : call.phase.inFlight := by rw [hphase]; rfl
    rw [show token ∈ (State.put _ i call').inFlightTokens ↔ _ from
      hordered.distinct.mem_erase_iff, hordered.inFlight token]
    constructor
    · rintro ⟨hne, hheld⟩
      refine exists_update (fun before hbefore ⟨_, hsame⟩ ↦ ?_) hheld
      obtain rfl : call = before := Option.some.inj (hcall.symm.trans hbefore)
      exact absurd hsame.symm hne
    · rintro ⟨j, other, hother, hinFlight, hsame⟩
      rcases calls_update j other hother with ⟨-, rfl⟩ | ⟨hji, hbefore⟩
      · rw [hended] at hinFlight
        cases hinFlight
      · refine ⟨?_, j, other, hbefore, hinFlight, hsame⟩
        rintro rfl
        exact hji (hordered.unique _ _ _ _ hbefore hcall hinFlight hflight hsame)
  distinct := hordered.distinct.erase _
  once := hordered.once
  origin := fun _ ↦ origin_of_unaccepted hordered hcall (by rw [hphase]; rfl)
  mutex := by
    refine forall_put (fun seen hseen ↦ ?_) fun j other _ ↦ hordered.mutex j other
    rw [hended] at hseen
    cases hseen

/-- A call goes on without touching what the calls share. -/
theorem ordered_put {phase phase' : Phase} (hordered : Ordered s) (hcall : s.calls i = some call)
    (hphase : call.phase = phase) (hphase' : call'.phase = phase')
    (htoken : call'.token = call.token) (hflight : phase'.inFlight = phase.inFlight)
    (hunrecorded : phase'.unrecorded → phase.unrecorded)
    (hstays : phase.accepted → phase'.accepted) (hrecording : ∀ seen, phase' ≠ .recording seen)
    (hsound : call'.Sound s.verifiedPurchaseTokens) : Ordered (s.put i call') := by
  subst hphase hphase'
  exact ordered_local hordered hcall
    { calls := rfl
      verified := rfl
      inFlightTokens := rfl
      accepted := rfl
      mutex := Or.inl rfl
      token := htoken
      sound := hsound
      inFlight := hflight
      unrecorded := hunrecorded
      stays := hstays
      recording := fun seen hseen ↦ absurd hseen (hrecording seen) }

/-- What a call has emitted while only progress was reported, with a terminal state at the end. -/
theorem sound_ended_of_error {verified : List String} {message : String}
    (hloads : Loads call.states) (hidle : call.refresh = .idle) {phase : Phase}
    (hphase : phase = .ended ∨ phase = .leaving none) :
    Call.Sound { call.emit (.error message) with phase } verified := by
  have hnot : .success ∉ call.states ++ [.error message] := by
    intro hmem
    rcases List.mem_append.mp hmem with hbefore | hlast
    · exact not_success_of_loads hloads hbefore
    · cases List.mem_singleton.mp hlast
  have hrunning : call.refresh.running = false := by rw [hidle]; rfl
  rcases hphase with rfl | rfl <;>
    exact ⟨closes_append hloads rfl, hrunning, fun hmem ↦ absurd hmem hnot⟩

/-- The refresh goes on while the call waits to record its token. -/
theorem ordered_refresh {returns : Bool} (hordered : Ordered s) (hcall : s.calls i = some call)
    (hadvance : call.advanceRefresh returns = some call') : Ordered (s.put i call') := by
  have hsound := hordered.sound i call hcall
  have hrunning : call.refresh.running = true := by
    cases hrefresh : call.refresh <;> simp_all [Call.advanceRefresh, Refresh.running]
  have hphase : call.phase = .refreshed := by
    unfold Call.Sound at hsound
    split at hsound
    all_goals simp_all [Refresh.running]
  simp only [Call.Sound, hphase] at hsound
  have hstates : call'.phase = .refreshed ∧ call'.token = call.token ∧ Loads call'.states := by
    cases hrefresh : call.refresh with
    | storing sipCount =>
      simp only [Call.advanceRefresh, hrefresh] at hadvance
      split_ifs at hadvance <;> obtain rfl := Option.some.inj hadvance <;>
        exact ⟨hphase, rfl, loads_append_loading hsound _⟩
    | staticIps =>
      cases returns <;> simp only [Call.advanceRefresh, hrefresh] at hadvance <;>
        obtain rfl := Option.some.inj hadvance
      · exact ⟨hphase, rfl, hsound⟩
      · exact ⟨hphase, rfl, loads_append_loading hsound _⟩
    | connectionData =>
      cases returns <;> simp only [Call.advanceRefresh, hrefresh] at hadvance <;>
        obtain rfl := Option.some.inj hadvance
      · exact ⟨hphase, rfl, hsound⟩
      · exact ⟨hphase, rfl, loads_append_loading hsound _⟩
    | serverList =>
      simp only [Call.advanceRefresh, hrefresh] at hadvance
      obtain rfl := Option.some.inj hadvance
      exact ⟨hphase, rfl, hsound⟩
    | idle | done | failed => simp [hrefresh, Refresh.running] at hrunning
  obtain ⟨hphase', htoken, hloads⟩ := hstates
  refine ordered_put hordered hcall hphase hphase' htoken rfl id id nofun ?_
  simpa only [Call.Sound, hphase'] using hloads

/-- An orderly step of a call keeps the invariant. -/
theorem ordered_stepCall (a : Action) (hordered : Ordered s) (horderly : Orderly s a)
    (hcall : s.calls a.index = some call) (hstep : stepCall s a.index call a = some t) :
    Ordered t := by
  have hsound := hordered.sound _ call hcall
  cases callStep_of_stepCall a hstep with
  | listed hphase hlisted =>
    simp only [Call.Sound, hphase] at hsound
    have hrunning : call.refresh.running = false := by rw [hsound.2]; rfl
    exact ordered_put hordered hcall hphase rfl rfl rfl nofun nofun nofun
      ⟨closes_append hsound.1 rfl, hrunning, fun _ ↦ ⟨Or.inl rfl, hlisted⟩⟩
  | unlisted hphase =>
    simp only [Call.Sound, hphase] at hsound
    exact ordered_put hordered hcall hphase rfl rfl rfl nofun nofun nofun hsound
  | inFlight hphase =>
    simp only [Call.Sound, hphase] at hsound
    exact ordered_put hordered hcall hphase rfl rfl rfl nofun nofun nofun
      (sound_ended_of_error hsound.1 hsound.2 (Or.inl rfl))
  | entered hphase hflight =>
    exact ordered_enter hordered hcall hphase hflight (horderly call hcall)
  | refused hphase =>
    simp only [Call.Sound, hphase] at hsound
    exact ordered_put hordered hcall hphase rfl rfl rfl nofun nofun nofun
      (sound_ended_of_error hsound.1 hsound.2 (Or.inr rfl))
  | accepted hphase =>
    simp only [Call.Sound, hphase] at hsound
    exact ordered_accept hordered hcall hphase (Or.inr rfl) rfl
      (loads_append_loading hsound.1 _) hsound.2
  | acceptedPromo hphase =>
    simp only [Call.Sound, hphase] at hsound
    exact ordered_accept hordered hcall hphase (Or.inl rfl) rfl hsound.1 hsound.2
  | confirmed hphase =>
    simp only [Call.Sound, hphase] at hsound
    exact ordered_put hordered hcall hphase rfl rfl rfl (fun _ ↦ rfl) (fun _ ↦ rfl) nofun
      ⟨loads_append_loading hsound.1 _, hsound.2⟩
  | fetched hphase =>
    simp only [Call.Sound, hphase] at hsound
    exact ordered_put hordered hcall hphase rfl rfl rfl (fun _ ↦ rfl) (fun _ ↦ rfl) nofun hsound.1
  | unfetched hphase => cases horderly
  | locked hphase hfree =>
    simp only [Call.Sound, hphase] at hsound
    exact ordered_local hordered hcall
      { calls := rfl
        verified := rfl
        inFlightTokens := rfl
        accepted := rfl
        mutex := Or.inr hfree
        token := rfl
        sound := ⟨hsound, horderly call hcall⟩
        inFlight := by rw [hphase]; rfl
        unrecorded := fun _ ↦ by rw [hphase]; rfl
        stays := fun _ ↦ rfl
        recording := by
          rintro seen hseen
          cases hseen
          exact ⟨rfl, rfl⟩ }
  | recorded hphase => exact ordered_record hordered hcall hphase
  | clearedAmazon hphase | cleared hphase =>
    simp only [Call.Sound, hphase] at hsound
    exact ordered_local hordered hcall
      { calls := rfl
        verified := rfl
        inFlightTokens := rfl
        accepted := rfl
        mutex := Or.inl rfl
        token := rfl
        sound := hsound
        inFlight := by rw [hphase]; rfl
        unrecorded := nofun
        stays := by rw [hphase]; exact nofun
        recording := nofun }
  | succeeded hphase =>
    simp only [Call.Sound, hphase] at hsound
    obtain ⟨hloads, hdone, hrecorded⟩ := hsound
    have hrunning : call.refresh.running = false := by rw [hdone]; rfl
    exact ordered_put hordered hcall hphase rfl rfl rfl nofun nofun nofun
      ⟨closes_append hloads rfl, hrunning, fun _ ↦ ⟨Or.inr hdone, hrecorded⟩⟩
  | released hphase =>
    simp only [Call.Sound, hphase] at hsound
    exact ordered_release hordered hcall hphase rfl rfl hsound
  | failed hphase =>
    simp only [Call.Sound, hphase] at hsound
    exact ordered_release hordered hcall hphase rfl rfl
      (sound_ended_of_error hsound.1 hsound.2 (Or.inl rfl))
  | refreshed hadvance => exact ordered_refresh hordered hcall hadvance

/-- An orderly step keeps the invariant. -/
theorem ordered_step (a : Action) (hordered : Ordered s) (horderly : Orderly s a)
    (hstep : step s a = some t) : Ordered t := by
  cases hcall : s.calls a.index with
  | some call =>
    simp only [step, hcall] at hstep
    exact ordered_stepCall a hordered horderly hcall hstep
  | none =>
    simp only [step, hcall] at hstep
    split at hstep
    case h_1 i receipt promoPcpId =>
      obtain rfl := Option.some.inj hstep
      exact ordered_launch hordered hcall receipt promoPcpId horderly
    case h_2 => cases hstep

/-! ### The promise along orderly runs -/

theorem ordered_initial (verifiedPurchaseTokens : List String)
    (amazonPurchasedItem purchasedItem : Option String) :
    Ordered (State.initial verifiedPurchaseTokens amazonPurchasedItem purchasedItem) := by
  have hnone : ∀ i call, (State.initial verifiedPurchaseTokens amazonPurchasedItem
      purchasedItem).calls i ≠ some call := by
    intro i call hcall
    simp [State.initial] at hcall
  exact
    { sound := fun i call hcall ↦ absurd hcall (hnone i call)
      whole := fun i call hcall ↦ absurd hcall (hnone i call)
      unrecorded := fun i call hcall ↦ absurd hcall (hnone i call)
      unique := fun i _ call _ hcall ↦ absurd hcall (hnone i call)
      inFlight := by simp [State.initial]
      distinct := List.nodup_nil
      once := List.nodup_nil
      origin := by simp [State.initial]
      mutex := fun i call hcall ↦ absurd hcall (hnone i call) }

/-- Only the record of a token writes the recorded tokens, and it writes back what it has read. -/
theorem keepsRecord_step (a : Action) (hordered : Ordered s) (hstep : step s a = some t) :
    KeepsRecord s t := by
  intro token htoken
  cases hcall : s.calls a.index with
  | none =>
    simp only [step, hcall] at hstep
    split at hstep
    case h_1 => exact Option.some.inj hstep ▸ htoken
    case h_2 => cases hstep
  | some call =>
    simp only [step, hcall] at hstep
    cases callStep_of_stepCall a hstep with
    | recorded hphase =>
      obtain ⟨-, rfl⟩ := hordered.mutex _ call hcall _ hphase
      exact List.mem_append_left _ htoken
    | listed | unlisted | inFlight | entered | refused | accepted | acceptedPromo | confirmed
    | fetched | unfetched | locked | clearedAmazon | cleared | succeeded | released | failed
    | refreshed => exact htoken

/-- Along orderly runs the pipeline keeps its promise, and no recorded token is ever lost. -/
theorem kept_of_orderly (verifiedPurchaseTokens : List String)
    (amazonPurchasedItem purchasedItem : Option String)
    (hreach : Reaches step Orderly
      (State.initial verifiedPurchaseTokens amazonPurchasedItem purchasedItem) s) :
    Kept s ∧ ∀ a t, step s a = some t → KeepsRecord s t := by
  have hordered : Ordered s := hreach.invariant Ordered
    (fun a _ _ hinv hmeets hnext ↦ ordered_step a hinv hmeets hnext)
    (ordered_initial verifiedPurchaseTokens amazonPurchasedItem purchasedItem)
  exact ⟨kept_of_ordered hordered, fun a t hstep ↦ keepsRecord_step a hordered hstep⟩

/-- A receipt for the runs below. -/
def sampleReceipt : ReceiptParams where
  purchaseToken := "token"
  gpPackageName := "com.windscribe.vpn"
  gpProductId := "pro"

/-- Two calls for one token, of which the second finds it in flight, and a third that finds it
recorded. -/
theorem kept_of_orderly_threeCalls :
    ∃ s, Reaches step Orderly (State.initial [] none (some "token")) s ∧
      (s.calls 2).any (fun call ↦ call.states == [.success]) = true ∧
      Kept s ∧ ∀ a t, step s a = some t → KeepsRecord s t := by
  obtain ⟨s, hreach, hcheck⟩ := exists_reaches_of_run step Orderly
    (State.initial [] none (some "token"))
    [.completePurchase 0 sampleReceipt none, .checkVerified 0, .checkInFlight 0,
      .completePurchase 1 sampleReceipt none, .checkVerified 1, .checkInFlight 1,
      .verifyPurchaseReceipt 0 none, .getSession 0 (.ok 0), .refresh 0 true, .refresh 0 true,
      .refresh 0 true, .lockRecord 0, .writeRecord 0, .clearPending 0, .succeed 0, .release 0,
      .completePurchase 2 sampleReceipt none, .checkVerified 2]
    (fun s ↦ (s.calls 2).any fun call ↦ call.states == [.success])
    (by decide)
  exact ⟨s, hreach, hcheck, kept_of_orderly _ _ _ hreach⟩

/-- A call that succeeds while its refresh is at the server list: the refresh reports into the flow
after the success. -/
theorem not_kept_slowRefresh :
    ¬ ∀ (verifiedPurchaseTokens : List String) (amazonPurchasedItem purchasedItem : Option String)
      (s : State),
      Reaches step Always
        (State.initial verifiedPurchaseTokens amazonPurchasedItem purchasedItem) s →
        Kept s := by
  intro hkept
  obtain ⟨s, hreach, hcheck⟩ := exists_reaches_of_run step Always
    (State.initial [] none (some "token"))
    [.completePurchase 0 sampleReceipt none, .checkVerified 0, .checkInFlight 0,
      .verifyPurchaseReceipt 0 none, .getSession 0 (.ok 0), .lockRecord 0, .writeRecord 0,
      .clearPending 0, .succeed 0, .release 0, .refresh 0 true]
    (fun s ↦ (s.calls 0).any fun call ↦ call.states ==
      [.loading "Verifying purchase", .loading "Getting session", .success,
        .loading "Getting connection data"])
    (by decide)
  obtain ⟨call, hcall, hstates⟩ := (Option.any_eq_true _ _).mp hcheck
  have hlast := (hkept _ _ _ s hreach).last 0 call hcall
    [.loading "Verifying purchase", .loading "Getting session"] .success
    [.loading "Getting connection data"] (beq_iff_eq.mp hstates) rfl
  cases hlast

end WindscribeVpn.Billing.PurchaseManager
