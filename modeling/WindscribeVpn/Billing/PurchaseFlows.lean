import WindscribeVpn.Billing.PurchaseManager
import Mathlib.Data.List.Count

/-!
# The flows of `PurchaseManager`

What a collector of `completePurchase` may rely on in every run, orderly or not. A call emits at
most one terminal state (`emits_once`), what it has emitted stays, and the first terminal state is
its outcome (`outcome_of_step`). A call can always come to its end: the mutex is held only to record
a token, and the call that holds it can release it (`exists_reaches_ended`).
-/

set_option autoImplicit false
set_option relaxedAutoImplicit false

namespace WindscribeVpn.Billing.PurchaseManager

open Foundations.Runs

/-- Whether a call that is so far has emitted its terminal state. -/
def Phase.closed : Phase → Bool
  | .leaving none | .ended => true
  | .launched | .unlisted | .verifying | .confirming | .fetching | .refreshed | .recording _
  | .recorded | .cleared | .leaving (some _) => false

/-- Whether a call that is so far holds the mutex to record its token. -/
def Phase.records : Phase → Bool
  | .recording _ => true
  | .launched | .unlisted | .verifying | .confirming | .fetching | .refreshed | .recorded
  | .cleared | .leaving _ | .ended => false

/-- The terminal state that a call has emitted first. -/
def Call.outcome (call : Call) : Option UserDataState := call.states.find? (·.terminal)

/-- The outcome of a call by its number. -/
def State.outcome (s : State) (i : ℕ) : Option UserDataState := (s.calls i).bind Call.outcome

/-- What a step of a call emits: progress, or the terminal state. -/
inductive Emits (call call' : Call) : Prop
  | progress (new : List UserDataState) (hloads : Loads new)
      (hstates : call'.states = call.states ++ new)
      (hclosed : call'.phase.closed = call.phase.closed)
  | terminal (state : UserDataState) (hterminal : state.terminal = true)
      (hstates : call'.states = call.states ++ [state]) (hopen : call.phase.closed = false)
      (hclosed : call'.phase.closed = true)

variable {s t : State} {i : ℕ} {call call' : Call}

theorem loads_nil : Loads [] := nofun

theorem loads_loading (status : String) : Loads [.loading status] := by
  intro state hstate
  rw [List.mem_singleton.mp hstate]
  rfl

/-- A step that emits nothing and leaves the terminal state where it was. -/
theorem emits_of_same (hstates : call'.states = call.states)
    (hclosed : call'.phase.closed = call.phase.closed) : Emits call call' :=
  .progress [] loads_nil (by rw [hstates, List.append_nil]) hclosed

/-- The refresh only reports progress. -/
theorem emits_advanceRefresh {returns : Bool}
    (hadvance : call.advanceRefresh returns = some call') :
    call'.receipt = call.receipt ∧ call'.phase = call.phase ∧ Emits call call' := by
  have hloading : ∀ (status : String) (refresh : Refresh),
      Emits call { call.emit (.loading status) with refresh } :=
    fun status refresh ↦ .progress [.loading status] (loads_loading status) rfl rfl
  cases hrefresh : call.refresh with
  | storing sipCount =>
    simp only [Call.advanceRefresh, hrefresh] at hadvance
    split_ifs at hadvance <;> obtain rfl := Option.some.inj hadvance <;>
      exact ⟨rfl, rfl, hloading _ _⟩
  | staticIps =>
    cases returns <;> simp only [Call.advanceRefresh, hrefresh] at hadvance <;>
      obtain rfl := Option.some.inj hadvance
    · exact ⟨rfl, rfl, emits_of_same rfl rfl⟩
    · exact ⟨rfl, rfl, hloading _ _⟩
  | connectionData =>
    cases returns <;> simp only [Call.advanceRefresh, hrefresh] at hadvance <;>
      obtain rfl := Option.some.inj hadvance
    · exact ⟨rfl, rfl, emits_of_same rfl rfl⟩
    · exact ⟨rfl, rfl, hloading _ _⟩
  | serverList =>
    simp only [Call.advanceRefresh, hrefresh] at hadvance
    obtain rfl := Option.some.inj hadvance
    exact ⟨rfl, rfl, emits_of_same rfl rfl⟩
  | idle | done | failed => simp [Call.advanceRefresh, hrefresh] at hadvance

/-- What a step of a call does: it writes the call back, and takes the mutex only to record. -/
structure Moves (s t : State) (i : ℕ) (call call' : Call) : Prop where
  calls : t.calls = Function.update s.calls i (some call')
  receipt : call'.receipt = call.receipt
  emits : Emits call call'
  mutex : ∀ j, t.mutex = some j →
    (j = i ∧ call'.phase.records) ∨ (s.mutex = some j ∧ (call.phase.records → call'.phase.records))

/-- A step that leaves the mutex alone. -/
theorem moves_put (hcalls : t.calls = (s.put i call').calls) (hmutex : t.mutex = s.mutex)
    (hreceipt : call'.receipt = call.receipt) (hemits : Emits call call')
    (hrecords : call.phase.records → call'.phase.records) : Moves s t i call call' where
  calls := hcalls
  receipt := hreceipt
  emits := hemits
  mutex := fun _ hj ↦ Or.inr ⟨hmutex ▸ hj, hrecords⟩

theorem not_records {phase : Phase} {records : Prop} (hphase : call.phase = phase)
    (hfree : phase.records = false) (hrecords : call.phase.records = true) : records :=
  absurd (hfree.symm.trans (hphase ▸ hrecords)) Bool.false_ne_true

/-- Every step of a call is such a move. -/
theorem moves_of_stepCall (a : Action) (hstep : stepCall s i call a = some t) :
    ∃ call', Moves s t i call call' := by
  cases callStep_of_stepCall a hstep with
  | listed hphase | succeeded hphase =>
    exact ⟨_, moves_put rfl rfl rfl (.terminal .success rfl rfl (by rw [hphase]; rfl) rfl)
      (not_records hphase rfl)⟩
  | inFlight hphase | refused hphase | failed hphase =>
    exact ⟨_, moves_put rfl rfl rfl (.terminal (.error _) rfl rfl (by rw [hphase]; rfl) rfl)
      (not_records hphase rfl)⟩
  | entered hphase | accepted hphase | confirmed hphase =>
    exact ⟨_, moves_put rfl rfl rfl (.progress _ (loads_loading _) rfl (by rw [hphase]; rfl))
      (not_records hphase rfl)⟩
  | unlisted hphase | acceptedPromo hphase | fetched hphase | unfetched hphase
  | clearedAmazon hphase | cleared hphase | released hphase =>
    exact ⟨_, moves_put rfl rfl rfl (emits_of_same rfl (by rw [hphase]; rfl))
      (not_records hphase rfl)⟩
  | locked hphase =>
    exact ⟨_, rfl, rfl, emits_of_same rfl (by rw [hphase]; rfl),
      fun _ hj ↦ Or.inl ⟨(Option.some.inj hj).symm, rfl⟩⟩
  | recorded hphase =>
    exact ⟨_, rfl, rfl, emits_of_same rfl (by rw [hphase]; rfl), fun _ hj ↦ by cases hj⟩
  | refreshed hadvance =>
    obtain ⟨hreceipt, hphase, hemits⟩ := emits_advanceRefresh hadvance
    exact ⟨_, moves_put rfl rfl hreceipt hemits (by rw [hphase]; exact id)⟩

/-- A step launches a call or moves one. -/
theorem step_cases {a : Action} (hstep : step s a = some t) :
    (s.calls a.index = none ∧ t.mutex = s.mutex ∧ ∃ receipt promoPcpId,
        t.calls = Function.update s.calls a.index (some { receipt, promoPcpId })) ∨
      ∃ call call', s.calls a.index = some call ∧ Moves s t a.index call call' := by
  cases hcall : s.calls a.index with
  | some call =>
    simp only [step, hcall] at hstep
    obtain ⟨call', hmoves⟩ := moves_of_stepCall a hstep
    exact Or.inr ⟨call, call', rfl, hmoves⟩
  | none =>
    simp only [step, hcall] at hstep
    split at hstep
    case h_1 i receipt promoPcpId =>
      obtain rfl := Option.some.inj hstep
      exact Or.inl ⟨rfl, rfl, receipt, promoPcpId, rfl⟩
    case h_2 => cases hstep

/-! ### Outcomes -/

/-- What is emitted later does not change the outcome. -/
theorem Emits.outcome (hemits : Emits call call') {state : UserDataState}
    (houtcome : call.outcome = some state) : call'.outcome = some state := by
  have happend : ∃ new, call'.states = call.states ++ new := by
    cases hemits with
    | progress new _ hstates _ => exact ⟨new, hstates⟩
    | terminal last _ hstates _ _ => exact ⟨[last], hstates⟩
  obtain ⟨new, hnew⟩ := happend
  rw [Call.outcome, hnew, List.find?_append, ← Call.outcome, houtcome, Option.some_or]

/-- A call stays, and so does its outcome. -/
theorem outcome_of_step {a : Action} (hstep : step s a = some t) {state : UserDataState}
    (houtcome : s.outcome i = some state) : t.outcome i = some state := by
  obtain ⟨call, hcall, hfirst⟩ := Option.bind_eq_some_iff.mp houtcome
  rcases step_cases hstep with ⟨hnone, -, receipt, promoPcpId, hcalls⟩ | ⟨_, _, hbefore, hmoves⟩
  · have hne : i ≠ a.index := fun heq ↦ by simp [← heq, hcall] at hnone
    rwa [State.outcome, hcalls, Function.update_of_ne hne]
  · by_cases heq : i = a.index
    · subst heq
      obtain rfl := Option.some.inj (hcall.symm.trans hbefore)
      rw [State.outcome, hmoves.calls, Function.update_self]
      exact hmoves.emits.outcome hfirst
    · rwa [State.outcome, hmoves.calls, Function.update_of_ne heq]

/-- A call that was launched is there after any step. -/
theorem isSome_of_step {a : Action} (hstep : step s a = some t) (hsome : (s.calls i).isSome) :
    (t.calls i).isSome := by
  have hupdate : ∃ call', t.calls = Function.update s.calls a.index (some call') := by
    rcases step_cases hstep with ⟨-, -, receipt, promoPcpId, hcalls⟩ | ⟨_, call', -, hmoves⟩
    · exact ⟨_, hcalls⟩
    · exact ⟨call', hmoves.calls⟩
  obtain ⟨call', hcalls⟩ := hupdate
  rw [hcalls]
  by_cases heq : i = a.index
  · rw [heq, Function.update_self]
    rfl
  · rwa [Function.update_of_ne heq]

/-! ### Along every run -/

/-- What holds of a call along every run: one terminal state, once the call is closed. -/
def Call.Single (call : Call) : Prop :=
  call.states.countP (·.terminal) = if call.phase.closed then 1 else 0

/-- What holds along every run. -/
structure Regular (s : State) : Prop where
  single : ∀ i call, s.calls i = some call → call.Single
  holder : ∀ i, s.mutex = some i → ∃ call, s.calls i = some call ∧ call.phase.records
  bounded : ∃ n, ∀ i, n ≤ i → s.calls i = none

theorem countP_of_loads {states : List UserDataState} (hloads : Loads states) :
    states.countP (·.terminal) = 0 := by
  rw [List.countP_eq_zero]
  intro state hstate hterminal
  rw [hloads state hstate] at hterminal
  cases hterminal

theorem Emits.single (hemits : Emits call call') (hsingle : call.Single) : call'.Single := by
  unfold Call.Single at *
  cases hemits with
  | progress new hloads hstates hclosed =>
    rw [hstates, List.countP_append, hsingle, countP_of_loads hloads, hclosed, Nat.add_zero]
  | terminal state hterminal hstates hopen hclosed =>
    rw [hstates, List.countP_append, hsingle, hopen, hclosed, List.countP_singleton, hterminal]
    rfl

/-- One more call is in use after a step, at most. -/
theorem bounded_update {calls : ℕ → Option Call} (hbounded : ∃ n, ∀ i, n ≤ i → calls i = none)
    (call' : Call) : ∃ n, ∀ j, n ≤ j → Function.update calls i (some call') j = none := by
  obtain ⟨n, hn⟩ := hbounded
  refine ⟨n + i + 1, fun j hj ↦ ?_⟩
  have hne : j ≠ i := by omega
  rw [Function.update_of_ne hne]
  exact hn j (by omega)

theorem regular_step {a : Action} (hregular : Regular s) (hstep : step s a = some t) :
    Regular t := by
  rcases step_cases hstep with
    ⟨hnone, hmutex, receipt, promoPcpId, hcalls⟩ | ⟨call, call', hcall, hmoves⟩
  · constructor
    · intro i other hother
      rw [hcalls] at hother
      rcases calls_update i other hother with ⟨-, rfl⟩ | ⟨-, hbefore⟩
      · rfl
      · exact hregular.single i other hbefore
    · intro i hi
      obtain ⟨other, hother, hrecords⟩ := hregular.holder i (hmutex ▸ hi)
      have hne : i ≠ a.index := fun heq ↦ by simp [← heq, hother] at hnone
      exact ⟨other, by rw [hcalls, Function.update_of_ne hne, hother], hrecords⟩
    · rw [hcalls]
      exact bounded_update hregular.bounded _
  · constructor
    · intro i other hother
      rw [hmoves.calls] at hother
      rcases calls_update i other hother with ⟨-, rfl⟩ | ⟨-, hbefore⟩
      · exact hmoves.emits.single (hregular.single _ call hcall)
      · exact hregular.single i other hbefore
    · intro i hi
      rcases hmoves.mutex i hi with ⟨rfl, hrecords⟩ | ⟨hbefore, hrecords⟩
      · exact ⟨call', by rw [hmoves.calls, Function.update_self], hrecords⟩
      · obtain ⟨other, hother, hholds⟩ := hregular.holder i hbefore
        by_cases heq : i = a.index
        · subst heq
          obtain rfl := Option.some.inj (hcall.symm.trans hother)
          exact ⟨call', by rw [hmoves.calls, Function.update_self], hrecords hholds⟩
        · exact ⟨other, by rw [hmoves.calls, Function.update_of_ne heq, hother], hholds⟩
    · rw [hmoves.calls]
      exact bounded_update hregular.bounded _

theorem regular_initial (verifiedPurchaseTokens : List String)
    (amazonPurchasedItem purchasedItem : Option String) :
    Regular (State.initial verifiedPurchaseTokens amazonPurchasedItem purchasedItem) where
  single := nofun
  holder := nofun
  bounded := ⟨0, fun _ _ ↦ rfl⟩

/-- A collector that sees a terminal state sees the outcome of the call. -/
theorem Call.Single.outcome_eq (hsingle : call.Single) {n : ℕ} {state : UserDataState}
    (hfound : (call.states.drop n).find? (·.terminal) = some state) :
    call.outcome = some state := by
  have hcount := hsingle
  have hdrop : 0 < (call.states.drop n).countP (·.terminal) := by
    rw [List.countP_pos_iff]
    exact ⟨state, List.mem_of_find?_eq_some hfound, List.find?_some hfound⟩
  rw [Call.Single, ← List.take_append_drop n call.states, List.countP_append] at hcount
  have htake : (call.states.take n).find? (·.terminal) = none := by
    rw [List.find?_eq_none]
    intro other hother hterminal
    have hpos : 0 < (call.states.take n).countP (·.terminal) :=
      List.countP_pos_iff.mpr ⟨other, hother, hterminal⟩
    split_ifs at hcount <;> omega
  rw [Call.outcome, ← List.take_append_drop n call.states, List.find?_append, htake, hfound]
  rfl

/-- Of an ended call a collector sees a terminal state, or had begun after it. -/
theorem Call.Single.not_loads (hsingle : call.Single) (hended : call.phase = .ended) {n : ℕ}
    (hdrop : Loads (call.states.drop n)) : ¬ Loads (call.states.take n) := by
  intro htake
  have hcount := hsingle
  rw [Call.Single, ← List.take_append_drop n call.states, List.countP_append,
    countP_of_loads htake, countP_of_loads hdrop, hended] at hcount
  cases hcount

/-! ### Every call can end -/

/-- How many sections of a call are still to run. -/
def Phase.remaining : Phase → ℕ
  | .launched => 10
  | .unlisted => 9
  | .verifying => 8
  | .confirming => 7
  | .fetching => 6
  | .refreshed => 5
  | .recording _ => 4
  | .recorded => 3
  | .cleared => 2
  | .leaving _ => 1
  | .ended => 0

/-- The mutex can be set free. -/
theorem exists_unlocked (hregular : Regular s) (hcall : s.calls i = some call) :
    ∃ t call', Reaches step Always s t ∧ t.mutex = none ∧ t.calls i = some call' ∧
      call'.phase.remaining ≤ call.phase.remaining := by
  cases hmutex : s.mutex with
  | none => exact ⟨s, call, .refl, hmutex, hcall, Nat.le_refl _⟩
  | some j =>
    obtain ⟨holder, hholder, hrecords⟩ := hregular.holder j hmutex
    cases hphase : holder.phase with
    | recording seen =>
      have hstep : ∃ t, step s (.writeRecord j) = some t ∧ t.mutex = none ∧
          t.calls = Function.update s.calls j (some { holder with phase := .recorded }) := by
        simp only [step, Action.index, hholder, stepCall, hphase]
        exact ⟨_, rfl, rfl, rfl⟩
      obtain ⟨t, hstep, hfree, hcalls⟩ := hstep
      have hreach : Reaches step Always s t := .single ⟨_, trivial, hstep⟩
      by_cases heq : i = j
      · subst heq
        obtain rfl := Option.some.inj (hcall.symm.trans hholder)
        refine ⟨t, _, hreach, hfree, by rw [hcalls, Function.update_self], ?_⟩
        rw [hphase]
        exact Nat.le_succ _
      · exact ⟨t, call, hreach, hfree, by rw [hcalls, Function.update_of_ne heq, hcall],
          Nat.le_refl _⟩
    | _ => simp [hphase, Phase.records] at hrecords

/-- A call has gone on when a step of it has left less to run. -/
theorem exists_of_stepCall {n : ℕ} (a : Action) (hindex : a.index = i)
    (hcall : s.calls i = some call) (hstep : stepCall s i call a = some t)
    (hcalls : t.calls = (s.put i call').calls) (hless : call'.phase.remaining < n) :
    ∃ t call', Reaches step Always s t ∧ t.calls i = some call' ∧
      call'.phase.remaining < n := by
  subst hindex
  have hfirst : step s a = some t := by simp only [step, hcall, hstep]
  exact ⟨t, call', .single ⟨a, trivial, hfirst⟩, by rw [hcalls, put_self], hless⟩

/-- With the mutex free a call that has not ended can go on. -/
theorem exists_goesOn (hfree : s.mutex = none) (hcall : s.calls i = some call)
    (hended : call.phase ≠ .ended) :
    ∃ t call', Reaches step Always s t ∧ t.calls i = some call' ∧
      call'.phase.remaining < call.phase.remaining := by
  have hunlocked : ∀ {phase : Phase}, call.phase = phase →
      ¬ (call.phase ≠ phase ∨ s.mutex ≠ none) := by
    rintro phase hphase (hne | hheld)
    · exact hne hphase
    · exact hheld hfree
  cases hphase : call.phase with
  | launched =>
    by_cases hlisted : call.token ∈ s.verifiedPurchaseTokens
    · exact exists_of_stepCall (.checkVerified i) rfl hcall
        ((if_neg (not_not.mpr hphase)).trans (if_pos hlisted)) rfl (show 0 < 10 by decide)
    · exact exists_of_stepCall (.checkVerified i) rfl hcall
        ((if_neg (not_not.mpr hphase)).trans (if_neg hlisted)) rfl (show 9 < 10 by decide)
  | unlisted =>
    by_cases hflight : call.token ∈ s.inFlightTokens
    · exact exists_of_stepCall (.checkInFlight i) rfl hcall
        ((if_neg (hunlocked hphase)).trans (if_pos hflight)) rfl (show 0 < 9 by decide)
    · exact exists_of_stepCall (.checkInFlight i) rfl hcall
        ((if_neg (hunlocked hphase)).trans (if_neg hflight)) rfl (show 8 < 9 by decide)
  | verifying =>
    exact exists_of_stepCall (.verifyPurchaseReceipt i (some "")) rfl hcall
      (if_neg (not_not.mpr hphase)) rfl (show 1 < 8 by decide)
  | confirming =>
    exact exists_of_stepCall (.postPromoPaymentConfirmation i) rfl hcall
      (if_neg (not_not.mpr hphase)) rfl (show 6 < 7 by decide)
  | fetching =>
    exact exists_of_stepCall (.getSession i (.ok 0)) rfl hcall
      (if_neg (not_not.mpr hphase)) rfl (show 5 < 6 by decide)
  | refreshed =>
    exact exists_of_stepCall (.lockRecord i) rfl hcall
      (if_neg (hunlocked hphase)) rfl (show 4 < 5 by decide)
  | recording seen =>
    have hstep : ∃ t call', stepCall s i call (.writeRecord i) = some t ∧
        t.calls = (s.put i call').calls ∧ call'.phase.remaining < 4 := by
      simp only [stepCall, hphase]
      exact ⟨_, _, rfl, rfl, show 3 < 4 by decide⟩
    obtain ⟨t, call', hstep, hcalls, hless⟩ := hstep
    exact exists_of_stepCall (.writeRecord i) rfl hcall hstep hcalls hless
  | recorded =>
    by_cases htype : call.receipt.type = amazonPurchaseType
    · exact exists_of_stepCall (.clearPending i) rfl hcall
        ((if_neg (hunlocked hphase)).trans (if_pos htype)) rfl (show 2 < 3 by decide)
    · exact exists_of_stepCall (.clearPending i) rfl hcall
        ((if_neg (hunlocked hphase)).trans (if_neg htype)) rfl (show 2 < 3 by decide)
  | cleared =>
    exact exists_of_stepCall (.succeed i) rfl hcall
      (if_neg (not_not.mpr hphase)) rfl (show 1 < 2 by decide)
  | leaving exception =>
    have hstep : ∃ t call', stepCall s i call (.release i) = some t ∧
        t.calls = (s.put i call').calls ∧ call'.phase.remaining < 1 := by
      simp only [stepCall, hphase, if_neg (not_not.mpr hfree)]
      exact ⟨_, _, rfl, rfl, show 0 < 1 by decide⟩
    obtain ⟨t, call', hstep, hcalls, hless⟩ := hstep
    exact exists_of_stepCall (.release i) rfl hcall hstep hcalls hless
  | ended => exact absurd hphase hended

/-- Every call can come to its end. -/
theorem exists_reaches_ended (hregular : Regular s) (hcall : s.calls i = some call) :
    ∃ t call', Reaches step Always s t ∧ t.calls i = some call' ∧ call'.phase = .ended := by
  induction hremaining : call.phase.remaining using Nat.strongRecOn
    generalizing s call with
  | ind n ih =>
    by_cases hended : call.phase = .ended
    · exact ⟨s, call, .refl, hcall, hended⟩
    · obtain ⟨unlocked, before, hreach, hfree, hbefore, hle⟩ := exists_unlocked hregular hcall
      by_cases hended' : before.phase = .ended
      · exact ⟨unlocked, before, hreach, hbefore, hended'⟩
      · obtain ⟨next, after, hnext, hafter, hless⟩ := exists_goesOn hfree hbefore hended'
        have hregular' : Regular next := Reaches.invariant Regular (hreach.trans hnext)
          (fun _ _ _ hinv _ hstep ↦ regular_step hinv hstep) hregular
        obtain ⟨t, call', hlast, hcall', hphase⟩ :=
          ih _ (hremaining ▸ Nat.lt_of_lt_of_le hless hle) hregular' hafter rfl
        exact ⟨t, call', (hreach.trans hnext).trans hlast, hcall', hphase⟩

end WindscribeVpn.Billing.PurchaseManager
