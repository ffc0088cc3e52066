import WindscribeVpn.Billing.PurchaseFlows
import Mathlib.Data.Int.Notation

/-!
# `GooglePendingReceiptValidator`

The worker that brings pending purchases to the backend. `doWork` connects to the billing service,
asks it for the purchases, and gives each of them to `verifyPurchase`, which acknowledges the
purchase, submits its receipt to `PurchaseManager.completePurchase` and collects the flow up to its
first terminal state. `all` stops at the first purchase that is not verified, and an exception of an
acknowledgement ends `doWork`, so one bad purchase keeps the rest of the list from being submitted.

The worker runs beside the coroutines of `PurchaseManager`, whose steps are steps of the system, and
beside other callers of `completePurchase`. The flow replays its last state to a collector, so a
collection that begins after something has followed the terminal state waits in vain.

`servesAll_iff` says exactly when every purchase of the list is submitted and the result is right,
and that the worker never gets stuck on its way.
-/

set_option autoImplicit false
set_option relaxedAutoImplicit false

namespace WindscribeVpn.Workers.GooglePendingReceiptValidator

open Foundations.Runs
open Billing.PurchaseManager (ReceiptParams UserDataState Call Loads Regular)

/-! ### The worker -/

/-- `Purchase`. It is of at least one product. -/
structure Purchase where
  purchaseToken : String
  products : List String
  ne_nil : products ≠ []
  deriving DecidableEq, Repr

/-- `BillingResult`. -/
structure BillingResult where
  responseCode : ℤ
  deriving DecidableEq, Repr

/-- `BillingResponseCode.OK`. -/
def ok : ℤ := 0

/-- `BillingResponseCode.ITEM_NOT_OWNED`. -/
def itemNotOwned : ℤ := 8

/-- `Result` of a worker. -/
inductive Result
  | success
  | failure
  deriving DecidableEq, Repr

/-- Where `doWork` is; `rest` are the purchases after the one it is at. -/
inductive Worker
  /-- In `initBillingClient`. -/
  | connecting
  /-- In `getProductHistory`. -/
  | querying
  /-- In `tryToAcknowledgeProduct`. -/
  | acknowledging (purchase : Purchase) (rest : List Purchase)
  | submitting (purchase : Purchase) (rest : List Purchase)
  /-- The receipt was submitted in call `i`, whose flow is not yet collected. -/
  | submitted (i : ℕ) (rest : List Purchase)
  /-- In `first`, which sees the states from number `next` on. -/
  | collecting (i next : ℕ) (rest : List Purchase)
  | returned (result : Result)
  deriving DecidableEq, Repr

/-- The worker and the purchase manager, with the list the billing service has answered, the answers
to the acknowledgements, and each purchase that was submitted with the number of its call. -/
structure State where
  manager : Billing.PurchaseManager.State
  worker : Worker := .connecting
  purchases : Option (List Purchase) := none
  acknowledgements : List BillingResult := []
  submissions : List (Purchase × ℕ) := []

/-- A worker that is started in a fresh process. -/
def State.initial (verifiedPurchaseTokens : List String)
    (amazonPurchasedItem purchasedItem : Option String) : State where
  manager := .initial verifiedPurchaseTokens amazonPurchasedItem purchasedItem

/-- What happens next. -/
inductive Action
  | onBillingSetupFinished (billingResult : BillingResult)
  | onBillingServiceDisconnected
  | onQueryPurchasesResponse (billingResult : BillingResult) (purchasesList : List Purchase)
  | onAcknowledgePurchaseResponse (billingResult : BillingResult)
  /-- The worker calls `completePurchase`; the call gets the number `i`. -/
  | completePurchase (i : ℕ)
  /-- The worker begins to collect the flow. -/
  | collect
  /-- `first` has found a terminal state. -/
  | first
  /-- A step of a coroutine of the purchase manager, or a call by somebody else. -/
  | manager (a : Billing.PurchaseManager.Action)

/-- Whether `tryToAcknowledgeProduct` returns. -/
def BillingResult.acknowledges (billingResult : BillingResult) : Bool :=
  ok = billingResult.responseCode || itemNotOwned = billingResult.responseCode

/-- The receipt of a purchase. -/
def Purchase.receipt (purchase : Purchase) : ReceiptParams where
  purchaseToken := purchase.purchaseToken
  gpPackageName := "com.windscribe.vpn"
  gpProductId := purchase.products.head purchase.ne_nil

/-- `purchases.all { verifyPurchase(it) }` from a purchase on, and what `doWork` makes of it. -/
def all : List Purchase → Worker
  | [] => .returned .success
  | purchase :: rest => .acknowledging purchase rest

/-- `getProductHistory`: `none` when it throws. -/
def getProductHistory (billingResult : BillingResult) (purchasesList : List Purchase) :
    Option (List Purchase) :=
  if ok = billingResult.responseCode then
    if purchasesList = [] then none else some purchasesList
  else none

/-- `doWork` after the query. -/
def queried (billingResult : BillingResult) (purchasesList : List Purchase) : Worker :=
  (getProductHistory billingResult purchasesList).elim (.returned .failure) all

/-- `verifyPurchase` after the acknowledgement. -/
def acknowledged (billingResult : BillingResult) (purchase : Purchase) (rest : List Purchase) :
    Worker :=
  if billingResult.acknowledges then .submitting purchase rest else .returned .failure

/-- One step. -/
def step (s : State) (a : Action) : Option State :=
  match a, s.worker with
  | .onBillingSetupFinished billingResult, .connecting =>
    if ok = billingResult.responseCode then some { s with worker := .querying }
    else some { s with worker := .returned .failure }
  | .onBillingServiceDisconnected, .connecting => some { s with worker := .returned .failure }
  | .onQueryPurchasesResponse billingResult purchasesList, .querying =>
    some
      { s with
        purchases := if ok = billingResult.responseCode then some purchasesList else none
        worker := queried billingResult purchasesList }
  | .onAcknowledgePurchaseResponse billingResult, .acknowledging purchase rest =>
    some
      { s with
        acknowledgements := s.acknowledgements ++ [billingResult]
        worker := acknowledged billingResult purchase rest }
  | .completePurchase i, .submitting purchase rest =>
    (Billing.PurchaseManager.step s.manager (.completePurchase i purchase.receipt none)).map
      fun manager ↦
        { s with
          manager
          worker := .submitted i rest
          submissions := s.submissions ++ [(purchase, i)] }
  | .collect, .submitted i rest =>
    (s.manager.calls i).map fun call ↦
      { s with worker := .collecting i (call.states.length - 1) rest }
  | .first, .collecting i next rest =>
    (s.manager.calls i).bind fun call ↦
      ((call.states.drop next).find? (·.terminal)).map fun
        | .success => { s with worker := all rest }
        | .error _ | .loading _ => { s with worker := .returned .failure }
  | .manager a, _ =>
    (Billing.PurchaseManager.step s.manager a).map fun manager ↦ { s with manager }
  | _, _ => none

/-! ### The promise -/

/-- A submission has ended verified. -/
def State.Verified (s : State) (submission : Purchase × ℕ) : Prop :=
  s.manager.outcome submission.2 = some .success

/-- Nothing of the worker will happen any more: it has returned, or it waits for a terminal state
that was emitted before it began to collect. -/
def Over (s : State) : Prop :=
  match s.worker with
  | .returned _ => True
  | .collecting i next _ =>
    ∃ call, s.manager.calls i = some call ∧ call.phase = .ended ∧ Loads (call.states.drop next)
  | .connecting | .querying | .acknowledging _ _ | .submitting _ _ | .submitted _ _ => False

/-- What is promised of the worker when it is over: every purchase was submitted, and it has
reported success exactly when each of them has ended verified. -/
def ServesAll (s : State) : Prop :=
  ∀ purchases, s.purchases = some purchases →
    s.submissions.map Prod.fst = purchases ∧
      ∃ result, s.worker = .returned result ∧
        (result = .success ↔ ∀ submission ∈ s.submissions, s.Verified submission)

/-- The condition: the list is not empty, no acknowledgement fails, no call but that of the last
purchase ends in an error, and no collection begins after something has followed the terminal
state. -/
structure Unhindered (s : State) (purchases : List Purchase) : Prop where
  nonempty : purchases ≠ []
  acknowledged : ∀ billingResult ∈ s.acknowledgements, billingResult.acknowledges
  verified : ∀ k purchase i message, s.submissions[k]? = some (purchase, i) →
    k + 1 < purchases.length → s.manager.outcome i ≠ some (.error message)
  timely : ∀ i next rest call, s.worker = .collecting i next rest →
    s.manager.calls i = some call → Loads (call.states.take next)

/-! ### What holds along every run -/

variable {s t : State} {purchase : Purchase} {rest : List Purchase} {i next : ℕ}

/-- The purchases before `rest` were submitted, and acknowledged before. -/
structure Going (s : State) (rest : List Purchase) : Prop where
  purchases : s.purchases = some (s.submissions.map Prod.fst ++ rest)
  acknowledged : ∀ billingResult ∈ s.acknowledgements, billingResult.acknowledges

/-- All purchases before `rest` have ended verified. -/
structure Served (s : State) (rest : List Purchase) : Prop extends Going s rest where
  verified : ∀ submission ∈ s.submissions, s.Verified submission

/-- The call of the last submission is `i`, and all submissions before it have ended verified. -/
structure Waiting (s : State) (i : ℕ) (rest : List Purchase) : Prop extends Going s rest where
  launched : (s.manager.calls i).isSome
  last : ∃ before purchase, s.submissions = before ++ [(purchase, i)] ∧
    ∀ submission ∈ before, s.Verified submission

/-- How the worker comes to report failure. -/
inductive Failed (s : State) : Prop
  | unknown (hpurchases : s.purchases = none)
  | empty (hpurchases : s.purchases = some [])
  | refused (purchase : Purchase) (rest : List Purchase)
      (hpurchases : s.purchases = some (s.submissions.map Prod.fst ++ purchase :: rest))
      (billingResult : BillingResult) (hmem : billingResult ∈ s.acknowledgements)
      (hrefused : billingResult.acknowledges = false)
  | unverified (i : ℕ) (rest : List Purchase) (hwaiting : Waiting s i rest) (message : String)
      (herror : s.manager.outcome i = some (.error message))

/-- What holds by where the worker is. -/
def Worker.Progress (s : State) : Worker → Prop
  | .connecting | .querying =>
    s.purchases = none ∧ s.acknowledgements = [] ∧ s.submissions = []
  | .acknowledging purchase rest | .submitting purchase rest => Served s (purchase :: rest)
  | .submitted i rest | .collecting i _ rest => Waiting s i rest
  | .returned .success => Served s [] ∧ s.submissions ≠ []
  | .returned .failure => Failed s

/-- The invariant of every run. -/
structure Inv (s : State) : Prop where
  manager : Regular s.manager
  progress : s.worker.Progress s

/-! ### Steps of the purchase manager -/

section Manager

variable {m : Billing.PurchaseManager.State} {a : Billing.PurchaseManager.Action}

theorem Served.withManager (hserved : Served s rest)
    (hstep : Billing.PurchaseManager.step s.manager a = some m) :
    Served { s with manager := m } rest where
  purchases := hserved.purchases
  acknowledged := hserved.acknowledged
  verified := fun submission hmem ↦
    Billing.PurchaseManager.outcome_of_step hstep (hserved.verified submission hmem)

theorem Waiting.withManager (hwaiting : Waiting s i rest)
    (hstep : Billing.PurchaseManager.step s.manager a = some m) :
    Waiting { s with manager := m } i rest where
  purchases := hwaiting.purchases
  acknowledged := hwaiting.acknowledged
  launched := Billing.PurchaseManager.isSome_of_step hstep hwaiting.launched
  last := by
    obtain ⟨before, purchase, hlast, hverified⟩ := hwaiting.last
    exact ⟨before, purchase, hlast, fun submission hmem ↦
      Billing.PurchaseManager.outcome_of_step hstep (hverified submission hmem)⟩

theorem Failed.withManager (hfailed : Failed s)
    (hstep : Billing.PurchaseManager.step s.manager a = some m) :
    Failed { s with manager := m } := by
  cases hfailed with
  | unknown hpurchases => exact .unknown hpurchases
  | empty hpurchases => exact .empty hpurchases
  | refused purchase rest hpurchases billingResult hmem hrefused =>
    exact .refused purchase rest hpurchases billingResult hmem hrefused
  | unverified i rest hwaiting message herror =>
    exact .unverified i rest (hwaiting.withManager hstep) message
      (Billing.PurchaseManager.outcome_of_step hstep herror)

theorem progress_withManager {worker : Worker} (hprogress : worker.Progress s)
    (hstep : Billing.PurchaseManager.step s.manager a = some m) :
    worker.Progress { s with manager := m } := by
  cases worker with
  | connecting | querying => exact hprogress
  | acknowledging purchase rest | submitting purchase rest =>
    exact Served.withManager hprogress hstep
  | submitted i rest | collecting i next rest => exact Waiting.withManager hprogress hstep
  | returned result =>
    cases result with
    | success => exact ⟨Served.withManager hprogress.1 hstep, hprogress.2⟩
    | failure => exact Failed.withManager hprogress hstep

end Manager

/-! ### Steps of the worker -/

/-- Where the worker is does not matter to what was gone through. -/
theorem Served.withWorker (hserved : Served s rest) (worker : Worker) :
    Served { s with worker } rest where
  purchases := hserved.purchases
  acknowledged := hserved.acknowledged
  verified := hserved.verified

theorem Waiting.withWorker (hwaiting : Waiting s i rest) (worker : Worker) :
    Waiting { s with worker } i rest where
  purchases := hwaiting.purchases
  acknowledged := hwaiting.acknowledged
  launched := hwaiting.launched
  last := hwaiting.last

/-- `all` goes on with the purchases that are left. -/
theorem progress_all (hserved : Served s rest) (hsome : rest = [] → s.submissions ≠ []) :
    (all rest).Progress { s with worker := all rest } := by
  cases rest with
  | nil => exact ⟨hserved.withWorker _, hsome rfl⟩
  | cons purchase rest => exact hserved.withWorker _

/-- The answer of the billing service to the query. -/
theorem progress_query (billingResult : BillingResult) (purchasesList : List Purchase)
    (hacknowledgements : s.acknowledgements = []) (hsubmissions : s.submissions = []) :
    (queried billingResult purchasesList).Progress
      { s with
        purchases := if ok = billingResult.responseCode then some purchasesList else none
        worker := queried billingResult purchasesList } := by
  unfold queried
  by_cases hok : ok = billingResult.responseCode
  · rw [getProductHistory, if_pos hok, if_pos hok]
    by_cases hempty : purchasesList = []
    · rw [if_pos hempty]
      exact Failed.empty (congrArg some hempty)
    · rw [if_neg hempty]
      refine progress_all (s := { s with purchases := some purchasesList }) ?_
        fun hnil ↦ absurd hnil hempty
      refine ⟨⟨?_, ?_⟩, ?_⟩
      · simp [hsubmissions]
      · simp [hacknowledgements]
      · simp [hsubmissions]
  · rw [getProductHistory, if_neg hok, if_neg hok]
    exact Failed.unknown rfl

/-- The answer to an acknowledgement. -/
theorem progress_acknowledge (billingResult : BillingResult)
    (hserved : Served s (purchase :: rest)) :
    (acknowledged billingResult purchase rest).Progress
      { s with
        acknowledgements := s.acknowledgements ++ [billingResult]
        worker := acknowledged billingResult purchase rest } := by
  unfold acknowledged
  cases hacknowledges : billingResult.acknowledges with
  | true =>
    refine Served.withWorker (s := { s with
      acknowledgements := s.acknowledgements ++ [billingResult] }) ⟨⟨hserved.purchases, ?_⟩,
        hserved.verified⟩ _
    intro other hother
    rcases List.mem_append.mp hother with hbefore | hlast
    · exact hserved.acknowledged other hbefore
    · rw [List.mem_singleton.mp hlast]
      exact hacknowledges
  | false =>
    exact Failed.refused purchase rest hserved.purchases billingResult
      (List.mem_append_right _ (List.mem_singleton_self _)) hacknowledges

/-- A purchase is submitted. -/
theorem progress_submit {m : Billing.PurchaseManager.State} (hserved : Served s (purchase :: rest))
    (hstep : Billing.PurchaseManager.step s.manager
      (.completePurchase i purchase.receipt none) = some m) :
    Waiting
      { s with
        manager := m
        worker := .submitted i rest
        submissions := s.submissions ++ [(purchase, i)] } i rest where
  purchases := by
    rw [List.map_append, List.append_assoc]
    exact hserved.purchases
  acknowledged := hserved.acknowledged
  launched := by
    have hlaunched : m.calls i = some { receipt := purchase.receipt, promoPcpId := none } := by
      cases hcall : s.manager.calls i with
      | none =>
        simp only [Billing.PurchaseManager.step, Billing.PurchaseManager.Action.index,
          hcall] at hstep
        obtain rfl := Option.some.inj hstep
        exact Billing.PurchaseManager.put_self
      | some call =>
        simp only [Billing.PurchaseManager.step, Billing.PurchaseManager.Action.index, hcall,
          Billing.PurchaseManager.stepCall] at hstep
        cases hstep
    rw [hlaunched]
    rfl
  last := ⟨s.submissions, purchase, rfl, fun submission hmem ↦
    Billing.PurchaseManager.outcome_of_step hstep (hserved.verified submission hmem)⟩

/-- The call of a worker that waits has ended verified. -/
theorem Waiting.served (hwaiting : Waiting s i rest)
    (hsuccess : s.manager.outcome i = some .success) : Served s rest where
  purchases := hwaiting.purchases
  acknowledged := hwaiting.acknowledged
  verified := by
    obtain ⟨before, purchase, hlast, hverified⟩ := hwaiting.last
    intro submission hmem
    rw [hlast] at hmem
    rcases List.mem_append.mp hmem with hbefore | hnew
    · exact hverified submission hbefore
    · rw [List.mem_singleton.mp hnew]
      exact hsuccess

theorem Waiting.submissions_ne_nil (hwaiting : Waiting s i rest) : s.submissions ≠ [] := by
  obtain ⟨before, purchase, hlast, -⟩ := hwaiting.last
  rw [hlast]
  exact List.concat_ne_nil _ _

theorem inv_step (a : Action) (hinv : Inv s) (hstep : step s a = some t) : Inv t := by
  obtain ⟨hregular, hprogress⟩ := hinv
  unfold step at hstep
  split at hstep
  case h_1 billingResult hworker =>
    rw [hworker] at hprogress
    split_ifs at hstep <;> obtain rfl := Option.some.inj hstep
    · exact ⟨hregular, hprogress⟩
    · exact ⟨hregular, Failed.unknown hprogress.1⟩
  case h_2 hworker =>
    rw [hworker] at hprogress
    obtain rfl := Option.some.inj hstep
    exact ⟨hregular, Failed.unknown hprogress.1⟩
  case h_3 billingResult purchasesList hworker =>
    rw [hworker] at hprogress
    obtain rfl := Option.some.inj hstep
    exact ⟨hregular, progress_query billingResult purchasesList hprogress.2.1 hprogress.2.2⟩
  case h_4 billingResult purchase rest hworker =>
    rw [hworker] at hprogress
    obtain rfl := Option.some.inj hstep
    exact ⟨hregular, progress_acknowledge billingResult hprogress⟩
  case h_5 i purchase rest hworker =>
    rw [hworker] at hprogress
    obtain ⟨m, hm, rfl⟩ := Option.map_eq_some_iff.mp hstep
    exact ⟨Billing.PurchaseManager.regular_step hregular hm, progress_submit hprogress hm⟩
  case h_6 i rest hworker =>
    rw [hworker] at hprogress
    obtain ⟨call, hcall, rfl⟩ := Option.map_eq_some_iff.mp hstep
    exact ⟨hregular, Waiting.withWorker hprogress _⟩
  case h_7 i next rest hworker =>
    rw [hworker] at hprogress
    obtain ⟨call, hcall, hfirst⟩ := Option.bind_eq_some_iff.mp hstep
    obtain ⟨state, hfound, rfl⟩ := Option.map_eq_some_iff.mp hfirst
    have houtcome : s.manager.outcome i = some state := by
      rw [Billing.PurchaseManager.State.outcome, hcall]
      exact (hregular.single i call hcall).outcome_eq hfound
    cases state with
    | success =>
      exact ⟨hregular, progress_all (Waiting.served hprogress houtcome)
        fun _ ↦ Waiting.submissions_ne_nil hprogress⟩
    | error message =>
      exact ⟨hregular, Failed.unverified i rest (Waiting.withWorker hprogress _) message houtcome⟩
    | loading status => cases List.find?_some hfound
  case h_8 a =>
    obtain ⟨m, hm, rfl⟩ := Option.map_eq_some_iff.mp hstep
    exact ⟨Billing.PurchaseManager.regular_step hregular hm, progress_withManager hprogress hm⟩
  case h_9 => cases hstep

theorem inv_initial (verifiedPurchaseTokens : List String)
    (amazonPurchasedItem purchasedItem : Option String) :
    Inv (State.initial verifiedPurchaseTokens amazonPurchasedItem purchasedItem) where
  manager := Billing.PurchaseManager.regular_initial _ _ _
  progress := ⟨rfl, rfl, rfl⟩

/-! ### The promise, and that the worker comes to it -/

/-- The list is what was submitted, and the rest. -/
theorem Going.split (hgoing : Going s rest) {purchases : List Purchase}
    (hpurchases : s.purchases = some purchases) :
    purchases = s.submissions.map Prod.fst ++ rest ∧
      purchases.length = s.submissions.length + rest.length := by
  have hlist := Option.some.inj (hpurchases.symm.trans hgoing.purchases)
  exact ⟨hlist, by rw [hlist, List.length_append, List.length_map]⟩

/-- A worker that has reported success has kept the promise, and met the condition. -/
theorem Served.servesAll (hserved : Served s []) (hsome : s.submissions ≠ [])
    (hworker : s.worker = .returned .success) :
    ServesAll s ∧ ∀ purchases, s.purchases = some purchases → Unhindered s purchases := by
  constructor
  · intro purchases hpurchases
    obtain ⟨hlist, -⟩ := hserved.split hpurchases
    rw [List.append_nil] at hlist
    exact ⟨hlist.symm, .success, hworker, iff_of_true rfl hserved.verified⟩
  · intro purchases hpurchases
    obtain ⟨hlist, hlength⟩ := hserved.split hpurchases
    constructor
    · rw [hlist, List.append_nil, Ne, List.map_eq_nil_iff]
      exact hsome
    · exact hserved.acknowledged
    · intro k purchase i message hk _ herror
      have hverified := hserved.verified _ (List.mem_of_getElem? hk)
      rw [State.Verified, herror] at hverified
      cases hverified
    · intro i next rest call hcollecting
      rw [hworker] at hcollecting
      cases hcollecting

/-- A worker whose call has ended in an error has kept the promise exactly when that call was of the
last purchase. -/
theorem Waiting.serves_iff (hwaiting : Waiting s i rest) {message : String}
    (herror : s.manager.outcome i = some (.error message))
    (hworker : s.worker = .returned .failure) :
    (ServesAll s ↔ rest = []) ∧
      ((∀ purchases, s.purchases = some purchases → Unhindered s purchases) ↔ rest = []) := by
  obtain ⟨before, purchase, hlast, hverified⟩ := hwaiting.last
  have hunverified : ¬ ∀ submission ∈ s.submissions, s.Verified submission := by
    intro hall
    have hnew := hall (purchase, i) (hlast ▸ List.mem_append_right _ List.mem_cons_self)
    rw [State.Verified, herror] at hnew
    cases hnew
  have hwhole := hwaiting.split hwaiting.purchases
  constructor
  · constructor
    · intro hserves
      have hlist := (hserves _ hwaiting.purchases).1
      exact List.self_eq_append_right.mp hlist
    · rintro rfl purchases hpurchases
      obtain ⟨hlist, -⟩ := hwaiting.split hpurchases
      rw [List.append_nil] at hlist
      exact ⟨hlist.symm, .failure, hworker, iff_of_false nofun hunverified⟩
  · constructor
    · intro hmeets
      by_contra hrest
      refine (hmeets _ hwaiting.purchases).verified before.length purchase i message ?_ ?_ herror
      · rw [hlast, List.getElem?_append_right (Nat.le_refl _), Nat.sub_self]
        rfl
      · have hpos : 0 < rest.length := List.length_pos_of_ne_nil hrest
        have hlength : s.submissions.length = before.length + 1 := by rw [hlast]; simp
        rw [hwhole.2]
        omega
    · rintro rfl purchases hpurchases
      obtain ⟨hlist, hlength⟩ := hwaiting.split hpurchases
      have hcount : s.submissions.length = before.length + 1 := by rw [hlast]; simp
      constructor
      · rw [hlist, List.append_nil, Ne, List.map_eq_nil_iff]
        exact hwaiting.submissions_ne_nil
      · exact hwaiting.acknowledged
      · intro k other j text hk hshort htext
        rw [hlength, hcount, List.length_nil] at hshort
        rw [hlast, List.getElem?_append_left (by omega)] at hk
        have hbefore := hverified _ (List.mem_of_getElem? hk)
        rw [State.Verified, htext] at hbefore
        cases hbefore
      · intro j next rest call hcollecting
        rw [hworker] at hcollecting
        cases hcollecting

/-- When the worker is over, the promise is kept exactly under the condition. -/
theorem servesAll_iff_of_over (hinv : Inv s) (hover : Over s) :
    ServesAll s ↔ ∀ purchases, s.purchases = some purchases → Unhindered s purchases := by
  obtain ⟨hregular, hprogress⟩ := hinv
  unfold Over at hover
  cases hworker : s.worker with
  | connecting | querying | acknowledging purchase rest | submitting purchase rest
  | submitted i rest =>
    simp only [hworker] at hover
  | collecting i next rest =>
    simp only [hworker] at hover
    rw [hworker] at hprogress
    obtain ⟨call, hcall, hended, hdrop⟩ := hover
    have hpurchases := (show Waiting s i rest from hprogress).purchases
    refine iff_of_false ?_ ?_
    · intro hserves
      obtain ⟨-, result, hreturned, -⟩ := hserves _ hpurchases
      rw [hworker] at hreturned
      cases hreturned
    · intro hmeets
      exact (hregular.single i call hcall).not_loads hended hdrop
        ((hmeets _ hpurchases).timely i next rest call hworker hcall)
  | returned result =>
    rw [hworker] at hprogress
    cases result with
    | success =>
      obtain ⟨hserves, hmeets⟩ := hprogress.1.servesAll hprogress.2 hworker
      exact iff_of_true hserves hmeets
    | failure =>
      cases (show Failed s from hprogress) with
      | unknown hpurchases =>
        refine iff_of_true ?_ ?_ <;>
        · intro purchases hsome
          rw [hpurchases] at hsome
          cases hsome
      | empty hpurchases =>
        refine iff_of_false ?_ fun hmeets ↦ (hmeets [] hpurchases).nonempty rfl
        intro hserves
        obtain ⟨hnil, result, hreturned, hreport⟩ := hserves [] hpurchases
        rw [List.map_eq_nil_iff] at hnil
        obtain rfl := Worker.returned.inj (hworker.symm.trans hreturned)
        cases hreport.mpr (by simp [hnil])
      | refused purchase rest hpurchases billingResult hmem hrefused =>
        refine iff_of_false ?_ ?_
        · intro hserves
          cases List.self_eq_append_right.mp (hserves _ hpurchases).1
        · intro hmeets
          have haccepted := (hmeets _ hpurchases).acknowledged billingResult hmem
          rw [hrefused] at haccepted
          cases haccepted
      | unverified i rest hwaiting message herror =>
        obtain ⟨hserves, hmeets⟩ := hwaiting.serves_iff herror hworker
        exact hserves.trans hmeets.symm

/-- What the purchase manager can do alone it can do beside the worker. -/
theorem reaches_withManager {m : Billing.PurchaseManager.State}
    (hreach : Reaches Billing.PurchaseManager.step Always s.manager m) :
    Reaches step Always s { s with manager := m } := by
  refine Reaches.simulate (fun manager ↦ { s with manager }) hreach ?_
  intro a before after _ hstep
  refine Or.inr ⟨.manager a, trivial, ?_⟩
  simp only [step, hstep]
  rfl

/-- A step to a state from which the worker can be over. -/
theorem exists_over_of_step (a : Action) (hstep : step s a = some t)
    (hover : ∃ u, Reaches step Always t u ∧ Over u) :
    ∃ u, Reaches step Always s u ∧ Over u := by
  obtain ⟨u, hreach, hover⟩ := hover
  exact ⟨u, .head ⟨a, trivial, hstep⟩ hreach, hover⟩

theorem exists_over_of_returned (result : Result) (hworker : s.worker = .returned result) :
    ∃ u, Reaches step Always s u ∧ Over u := by
  refine ⟨s, .refl, ?_⟩
  rw [Over, hworker]
  trivial

/-- A step at which the worker fails. -/
theorem exists_over_of_fails (a : Action)
    (hfails : ∃ t, step s a = some t ∧ t.worker = .returned .failure) :
    ∃ u, Reaches step Always s u ∧ Over u := by
  obtain ⟨t, hstep, hworker⟩ := hfails
  exact exists_over_of_step a hstep (exists_over_of_returned .failure hworker)

/-- An acknowledgement that is refused ends the worker. -/
theorem exists_over_of_acknowledging (hworker : s.worker = .acknowledging purchase rest) :
    ∃ u, Reaches step Always s u ∧ Over u := by
  refine exists_over_of_fails (.onAcknowledgePurchaseResponse ⟨6⟩) ?_
  simp only [step, hworker]
  exact ⟨_, rfl, rfl⟩

/-- The call that is collected ends, and brings its outcome or has brought it before. -/
theorem exists_over_of_collecting (hinv : Inv s) (hworker : s.worker = .collecting i next rest) :
    ∃ u, Reaches step Always s u ∧ Over u := by
  have hprogress := hinv.progress
  rw [hworker] at hprogress
  obtain ⟨call, hcall⟩ :=
    Option.isSome_iff_exists.mp (show Waiting s i rest from hprogress).launched
  obtain ⟨m, ended, hreach, hended, hphase⟩ :=
    Billing.PurchaseManager.exists_reaches_ended hinv.manager hcall
  have hfirst := reaches_withManager hreach
  cases hfound : (ended.states.drop next).find? (·.terminal) with
  | none =>
    refine ⟨_, hfirst, ?_⟩
    simp only [Over, hworker]
    refine ⟨ended, hended, hphase, fun state hstate ↦ ?_⟩
    exact Bool.eq_false_iff.mpr (List.find?_eq_none.mp hfound state hstate)
  | some state =>
    have hlast : ∃ worker,
        step { s with manager := m } .first = some { s with manager := m, worker } ∧
          (worker = all rest ∨ worker = .returned .failure) := by
      simp only [step, hworker, hended, Option.bind_some, hfound, Option.map_some]
      cases state with
      | success => exact ⟨_, rfl, Or.inl rfl⟩
      | error message => exact ⟨_, rfl, Or.inr rfl⟩
      | loading status => exact ⟨_, rfl, Or.inr rfl⟩
    obtain ⟨worker, hstep, hnext⟩ := hlast
    have hover : ∃ u, Reaches step Always { s with manager := m, worker } u ∧ Over u := by
      rcases hnext with rfl | rfl
      · cases rest with
        | nil => exact exists_over_of_returned .success rfl
        | cons purchase rest => exact exists_over_of_acknowledging rfl
      · exact exists_over_of_returned .failure rfl
    obtain ⟨u, hrest, hover⟩ := exists_over_of_step .first hstep hover
    exact ⟨u, hfirst.trans hrest, hover⟩

/-- The worker can always come to be over. -/
theorem exists_reaches_over (hinv : Inv s) : ∃ u, Reaches step Always s u ∧ Over u := by
  have hsubmitted : ∀ {s : State} {i : ℕ} {rest : List Purchase}, Inv s →
      s.worker = .submitted i rest → ∃ u, Reaches step Always s u ∧ Over u := by
    intro s i rest hinv hworker
    have hprogress := hinv.progress
    rw [hworker] at hprogress
    obtain ⟨call, hcall⟩ :=
      Option.isSome_iff_exists.mp (show Waiting s i rest from hprogress).launched
    have hstep : step s .collect =
        some { s with worker := .collecting i (call.states.length - 1) rest } := by
      simp only [step, hworker, hcall]
      rfl
    exact exists_over_of_step .collect hstep
      (exists_over_of_collecting (inv_step .collect hinv hstep) rfl)
  cases hworker : s.worker with
  | connecting =>
    refine exists_over_of_fails .onBillingServiceDisconnected ?_
    simp only [step, hworker]
    exact ⟨_, rfl, rfl⟩
  | querying =>
    refine exists_over_of_fails (.onQueryPurchasesResponse ⟨6⟩ []) ?_
    simp only [step, hworker]
    exact ⟨_, rfl, rfl⟩
  | acknowledging purchase rest => exact exists_over_of_acknowledging hworker
  | submitting purchase rest =>
    obtain ⟨n, hbounded⟩ := hinv.manager.bounded
    have hnone := hbounded n (Nat.le_refl n)
    obtain ⟨t, hstep, hnext⟩ : ∃ t, step s (.completePurchase n) = some t ∧
        t.worker = .submitted n rest := by
      simp only [step, hworker, Billing.PurchaseManager.step,
        Billing.PurchaseManager.Action.index, hnone]
      exact ⟨_, rfl, rfl⟩
    exact exists_over_of_step (.completePurchase n) hstep
      (hsubmitted (inv_step _ hinv hstep) hnext)
  | submitted i rest => exact hsubmitted hinv hworker
  | collecting i next rest => exact exists_over_of_collecting hinv hworker
  | returned result => exact exists_over_of_returned result hworker

/-- In every run the worker keeps its promise exactly under the condition once it is over, and it
can always come to be over. -/
theorem servesAll_iff (verifiedPurchaseTokens : List String)
    (amazonPurchasedItem purchasedItem : Option String)
    (hreach : Reaches step Always
      (State.initial verifiedPurchaseTokens amazonPurchasedItem purchasedItem) s) :
    (Over s →
      (ServesAll s ↔ ∀ purchases, s.purchases = some purchases → Unhindered s purchases)) ∧
      ∃ t, Reaches step Always s t ∧ Over t := by
  have hinv : Inv s := hreach.invariant Inv
    (fun a _ _ hinv _ hstep ↦ inv_step a hinv hstep)
    (inv_initial verifiedPurchaseTokens amazonPurchasedItem purchasedItem)
  exact ⟨servesAll_iff_of_over hinv, exists_reaches_over hinv⟩

/-- Two purchases for the runs below. -/
def samplePurchase : Purchase := ⟨"first", ["pro"], List.cons_ne_nil _ _⟩

def otherPurchase : Purchase := ⟨"second", ["pro"], List.cons_ne_nil _ _⟩

/-- The first purchase was verified before, and the second one is verified by the backend. -/
theorem servesAll_iff_two :
    ∃ s, Reaches step Always (State.initial ["first"] none none) s ∧ Over s ∧ ServesAll s := by
  obtain ⟨s, hreach, hcheck⟩ := exists_reaches_of_run step Always
    (State.initial ["first"] none none)
    [.onBillingSetupFinished ⟨0⟩, .onQueryPurchasesResponse ⟨0⟩ [samplePurchase, otherPurchase],
      .onAcknowledgePurchaseResponse ⟨0⟩, .completePurchase 0, .collect,
      .manager (.checkVerified 0), .first,
      .onAcknowledgePurchaseResponse ⟨8⟩, .completePurchase 1, .manager (.checkVerified 1),
      .manager (.checkInFlight 1), .collect, .manager (.verifyPurchaseReceipt 1 none),
      .manager (.getSession 1 (.ok 0)), .manager (.lockRecord 1), .manager (.writeRecord 1),
      .manager (.clearPending 1), .manager (.succeed 1), .first]
    (fun s ↦ decide (s.worker = .returned .success) && decide (s.acknowledgements = [⟨0⟩, ⟨8⟩]) &&
      decide (s.purchases = some [samplePurchase, otherPurchase]) &&
      decide (s.submissions = [(samplePurchase, 0), (otherPurchase, 1)]) &&
      decide (s.manager.outcome 0 = some .success))
    (by decide)
  simp only [Bool.and_eq_true, decide_eq_true_eq] at hcheck
  obtain ⟨⟨⟨⟨hworker, hacknowledgements⟩, hpurchases⟩, hsubmissions⟩, houtcome⟩ := hcheck
  have hover : Over s := by
    rw [Over, hworker]
    trivial
  refine ⟨s, hreach, hover, ((servesAll_iff _ _ _ hreach).1 hover).mpr ?_⟩
  intro purchases hsome
  obtain rfl := Option.some.inj (hpurchases.symm.trans hsome)
  constructor
  · exact List.cons_ne_nil _ _
  · rw [hacknowledgements]
    decide
  · intro k purchase i message hk hshort herror
    obtain rfl : k = 0 := by simp at hshort; omega
    rw [hsubmissions] at hk
    cases hk
    rw [houtcome] at herror
    cases herror
  · intro i next rest call hcollecting
    rw [hworker] at hcollecting
    cases hcollecting

/-- A purchase that the backend refuses keeps the second one from being submitted. -/
theorem not_servesAll_refused :
    ¬ ∀ (verifiedPurchaseTokens : List String) (amazonPurchasedItem purchasedItem : Option String)
      (s : State),
      Reaches step Always
        (State.initial verifiedPurchaseTokens amazonPurchasedItem purchasedItem) s →
        Over s → ServesAll s := by
  intro hserves
  obtain ⟨s, hreach, hcheck⟩ := exists_reaches_of_run step Always (State.initial [] none none)
    [.onBillingSetupFinished ⟨0⟩, .onQueryPurchasesResponse ⟨0⟩ [samplePurchase, otherPurchase],
      .onAcknowledgePurchaseResponse ⟨0⟩, .completePurchase 0, .collect,
      .manager (.checkVerified 0), .manager (.checkInFlight 0),
      .manager (.verifyPurchaseReceipt 0 (some "Unknown purchase")), .first]
    (fun s ↦ decide (s.worker = .returned .failure) &&
      decide (s.purchases = some [samplePurchase, otherPurchase]) &&
      decide (s.submissions = [(samplePurchase, 0)]))
    (by decide)
  simp only [Bool.and_eq_true, decide_eq_true_eq] at hcheck
  obtain ⟨⟨hworker, hpurchases⟩, hsubmissions⟩ := hcheck
  have hover : Over s := by
    rw [Over, hworker]
    trivial
  have hall := (hserves _ _ _ s hreach hover _ hpurchases).1
  rw [hsubmissions] at hall
  cases hall

end WindscribeVpn.Workers.GooglePendingReceiptValidator
