import WindscribeVpn.Backend.VPNState
import WindscribeVpn.Foundations.Runs
import Mathlib.Data.List.InsertIdx
import Mathlib.Tactic.SplitIfs

/-!
# The publication of a backend's states

A backend publishes a state in two coroutines. `updateState` of `VpnBackend.kt` launches one that
reads the protocol, the connection id and the error of the backend's fields and calls `setState` of
`VPNConnectionStateManager.kt`, which launches another that emits the state unless the one published
last looks the same. The fields are those of the moment at which the first coroutine runs, and
neither coroutine waits for an older one.

`Faithful` is the promise: a published state carries the id, the protocol and the error of what
produced it, and the states of one attempt are published in the order in which they were produced,
with no `Connecting` or `Connected` behind a `Disconnected`. `not_faithful_restamped`,
`not_faithful_overtaken` and `not_faithful_doubled` are runs that break the id, the order and the
error. `Orderly` is the condition under which none of this happens, and `faithful_of_orderly` proves
the promise for every run whose steps all meet it.
-/

set_option autoImplicit false
set_option relaxedAutoImplicit false

namespace WindscribeVpn.Backend.StatePublication

open Foundations.Runs

/-- What a state was produced as: for which attempt and its protocol, as the how manieth state, and
with which error if it is a `Disconnected`. A state that no backend produced has no attempt. -/
structure Record where
  attempt : Option ℕ
  seq : ℕ
  status : Status
  protocolInformation : Option ProtocolInformation
  error : Option Error
  deriving DecidableEq, Repr

/-- Where the coroutine of `updateState` is. -/
inductive UpdatePc
  | launched
  /-- Behind the read of `protocolInformation`. -/
  | named
  /-- Behind the read of `connectionId`. -/
  | identified
  /-- Behind `vpnState.error = it`, before `error = null`. -/
  | taken
  /-- Before the last look at `connectionId`. -/
  | ready
  deriving DecidableEq, Repr

/-- The coroutine of an `updateState`. -/
structure Update where
  pc : UpdatePc
  state : VPNState
  record : Record
  deriving DecidableEq, Repr

/-- The coroutine of a `setState`. `checked` says that it has compared its state with the last
one. -/
structure Emission where
  checked : Bool
  force : Bool
  state : VPNState
  record : Record
  deriving DecidableEq, Repr

/-- A value of the published flow, with what it was produced as. -/
structure Publication where
  state : VPNState
  record : Record
  deriving DecidableEq, Repr

/-- A `disconnect` under way, with the attempt it found. -/
structure Disconnect where
  attempt : Option ℕ
  protocolInformation : Option ProtocolInformation
  error : Option Error
  deriving DecidableEq, Repr

/-- A backend and the published flow. `incoming` is the id that `connect` is about to write;
`updates` and `emissions` are the pending coroutines, oldest first. `produced` is history. -/
structure VpnBackend where
  protocolInformation : Option ProtocolInformation
  connectionId : Option ℕ
  error : Option Error
  incoming : Option ℕ
  nextId : ℕ
  disconnects : List Disconnect
  updates : List Update
  emissions : List Emission
  published : List Publication
  produced : List Record
  deriving DecidableEq, Repr

/-- The start of the process. -/
def VpnBackend.initial : VpnBackend where
  protocolInformation := none
  connectionId := none
  error := none
  incoming := none
  nextId := 0
  disconnects := []
  updates := []
  emissions := []
  published := []
  produced := []

/-- `_events.value`. -/
def VpnBackend.last (s : VpnBackend) : VPNState :=
  (s.published.getLast?.map Publication.state).getD { status := .disconnected }

/-- An action of one of the threads. -/
inductive Action
  /-- The controller publishes `Connecting` for a new attempt. -/
  | announce
  /-- `connect` of the backend, up to the write of `protocolInformation`. -/
  | connect (protocolInformation : ProtocolInformation) (connectionId : ℕ)
  /-- `connect` writes `connectionId`. -/
  | assign
  /-- `disconnect` of the backend, up to the write of `error`. -/
  | disconnect (error : Option Error)
  /-- The end of `runDisconnect`. -/
  | finish (i : ℕ)
  /-- An engine event or a test calls `updateState`. -/
  | produce (status : Status) (error : Option Error)
  /-- Somebody else calls `setState`. -/
  | setState (state : VPNState) (force : Bool)
  /-- The coroutine of an `updateState` makes one step. -/
  | update (i : ℕ)
  /-- The coroutine of a `setState` compares. -/
  | compare (i : ℕ)
  /-- The coroutine of a `setState` emits. -/
  | emit (i : ℕ)
  deriving DecidableEq, Repr

/-! ### Steps -/

/-- `updateState` of a state with an error of its own, produced as a given record. -/
def VpnBackend.updateState (s : VpnBackend) (own : Option Error) (record : Record) : VpnBackend :=
  { s with
    updates := s.updates ++ [⟨.launched, { status := record.status, error := own }, record⟩]
    produced := record :: s.produced }

/-- `setState`. -/
def VpnBackend.setState (s : VpnBackend) (state : VPNState) (force : Bool) (record : Record) :
    VpnBackend :=
  { s with emissions := s.emissions ++ [⟨false, force, state, record⟩] }

/-- One step of the coroutine of an `updateState`: the update after it and the backend's error, or
`none` at its end. -/
def Update.advance (u : Update) (s : VpnBackend) : Option (Update × Option Error) :=
  match u.pc with
  | .launched =>
    some ({ u with
      pc := .named
      state := { u.state with protocolInformation := s.protocolInformation } }, s.error)
  | .named =>
    some ({ u with pc := .identified, state := { u.state with connectionId := s.connectionId } },
      s.error)
  | .identified =>
    if s.error.isSome ∧ u.state.status = .disconnected then
      some ({ u with pc := .taken, state := { u.state with error := s.error } }, s.error)
    else some ({ u with pc := .ready }, s.error)
  | .taken => some ({ u with pc := .ready }, none)
  | .ready => none

/-- A step of the coroutine of an `updateState`. At its end it calls `setState`, if there is a
connection id. -/
def VpnBackend.update (s : VpnBackend) (i : ℕ) (u : Update) : VpnBackend :=
  match u.advance s with
  | some (next, error) => { s with updates := s.updates.set i next, error := error }
  | none =>
    let ended := { s with updates := s.updates.eraseIdx i }
    if s.connectionId = none then ended else ended.setState u.state false u.record

/-- The end of `runDisconnect`: a `Disconnected`, unless a connect follows. -/
def VpnBackend.finish (s : VpnBackend) (d : Disconnect) : VpnBackend :=
  if d.error.map Error.error = some .userReconnect then s
  else
    s.updateState none ⟨d.attempt, s.produced.length, .disconnected, d.protocolInformation, d.error⟩

/-- One step. -/
def step (s : VpnBackend) : Action → Option VpnBackend
  | .announce =>
    let record : Record := ⟨some s.nextId, s.produced.length, .connecting, none, none⟩
    let state : VPNState := { status := .connecting, connectionId := some s.nextId }
    some { s.setState state false record with
      nextId := s.nextId + 1
      produced := record :: s.produced }
  | .connect protocolInformation connectionId =>
    if connectionId < s.nextId then
      some { s with
        protocolInformation := some protocolInformation
        incoming := some connectionId }
    else none
  | .assign =>
    match s.incoming with
    | none => none
    | some connectionId => some { s with connectionId := some connectionId, incoming := none }
  | .disconnect error =>
    some { s with
      error := error
      disconnects := s.disconnects ++ [⟨s.connectionId, s.protocolInformation, error⟩] }
  | .finish i =>
    match s.disconnects[i]? with
    | none => none
    | some d => some ({ s with disconnects := s.disconnects.eraseIdx i }.finish d)
  | .produce status error =>
    some (s.updateState error
      ⟨s.connectionId, s.produced.length, status, s.protocolInformation, error⟩)
  | .setState state force => some (s.setState state force ⟨none, 0, state.status, none, none⟩)
  | .update i => s.updates[i]?.map fun u ↦ s.update i u
  | .compare i =>
    match s.emissions[i]? with
    | none => none
    | some e =>
      if e.state.supersedes s.last e.force then
        some { s with emissions := s.emissions.set i { e with checked := true } }
      else some { s with emissions := s.emissions.eraseIdx i }
  | .emit i =>
    match s.emissions[i]? with
    | none => none
    | some e =>
      if e.checked then
        some { s with
          emissions := s.emissions.eraseIdx i
          published := s.published ++ [⟨e.state, e.record⟩] }
      else none

/-! ### What publications promise -/

/-- The state carries what it was produced with. -/
structure Matches (record : Record) (state : VPNState) : Prop where
  status : state.status = record.status
  connectionId : record.attempt ≠ none → state.connectionId = record.attempt
  protocolInformation : record.attempt ≠ none →
    state.protocolInformation = record.protocolInformation
  error : record.attempt ≠ none → state.status = .disconnected → state.error = record.error

/-- One state of an attempt comes before another: it was produced before it, and a `Disconnected`
comes before no `Connecting` and no `Connected`. -/
def Record.Before (r q : Record) : Prop :=
  r.attempt ≠ none → q.attempt = r.attempt →
    r.seq < q.seq ∧
      (r.status = .disconnected → q.status ≠ .connecting ∧ q.status ≠ .connected)

/-- The published states describe the attempts they came from, and come in order. -/
structure Faithful (s : VpnBackend) : Prop where
  stamped : ∀ p ∈ s.published, Matches p.record p.state
  order : s.published.Pairwise fun p q ↦ p.record.Before q.record

/-- No `Disconnected` is on its way through `updateState`. -/
def Undisconnected (s : VpnBackend) : Prop :=
  ∀ u ∈ s.updates, u.record.status ≠ .disconnected

instance decidableUndisconnected (s : VpnBackend) : Decidable (Undisconnected s) :=
  inferInstanceAs (Decidable (∀ u ∈ s.updates, _))

/-- No `Disconnected` was produced for the backend's attempt. -/
def Unended (s : VpnBackend) : Prop :=
  ∀ r ∈ s.produced, r.attempt = s.connectionId → r.status ≠ .disconnected

instance decidableUnended (s : VpnBackend) : Decidable (Unended s) :=
  inferInstanceAs (Decidable (∀ r ∈ s.produced, _))

/-- The condition on one step. A connect comes when no state is on its way through `updateState` and
no disconnect is under way; a disconnect when no other is and no `Disconnected` is on its way; an
event produces a `Disconnected` only while the backend has no error to give it, and a `Connecting`
or `Connected` only before the attempt's `Disconnected`; the coroutines of `updateState` run oldest
first, and an emission waits for the older ones of its attempt. -/
def Orderly (s : VpnBackend) : Action → Prop
  | .connect _ _ => s.updates = [] ∧ s.disconnects = []
  | .disconnect _ => s.incoming = none ∧ s.disconnects = [] ∧ Undisconnected s
  | .produce status _ =>
    s.incoming = none ∧ (status = .disconnected → s.error = none) ∧
      (status = .connecting ∨ status = .connected → Unended s)
  | .update i => i = 0
  | .emit i =>
    ∀ e ∈ s.emissions[i]?, e.record.attempt ≠ none →
      ∀ f ∈ s.emissions.take i, f.record.attempt ≠ e.record.attempt
  | _ => True

instance decidableOrderly (s : VpnBackend) : (a : Action) → Decidable (Orderly s a)
  | .connect _ _ => inferInstanceAs (Decidable (_ ∧ _))
  | .disconnect _ => inferInstanceAs (Decidable (_ ∧ _ ∧ _))
  | .produce _ _ => inferInstanceAs (Decidable (_ ∧ _ ∧ _))
  | .update i => inferInstanceAs (Decidable (i = 0))
  | .emit i => inferInstanceAs (Decidable (∀ e ∈ s.emissions[i]?, _))
  | .announce | .assign | .finish _ | .setState _ _ | .compare _ => inferInstanceAs (Decidable True)

/-! ### The order of what is pending -/

/-- A value is put between two parts of an ordered list. -/
theorem pairwise_insert {α : Type*} {r : α → α → Prop} {front back : List α} {x : α}
    (hpairwise : (front ++ back).Pairwise r) (hfront : ∀ y ∈ front, r y x)
    (hback : ∀ y ∈ back, r x y) : (front ++ [x] ++ back).Pairwise r := by
  rw [List.pairwise_append] at hpairwise
  obtain ⟨hf, hb, hcross⟩ := hpairwise
  rw [List.append_assoc, List.singleton_append, List.pairwise_append, List.pairwise_cons]
  refine ⟨hf, ⟨hback, hb⟩, fun y hy z hz ↦ ?_⟩
  rcases List.mem_cons.mp hz with rfl | hz
  · exact hfront y hy
  · exact hcross y hy z hz

/-- A value of the middle of an ordered list moves to the front of the middle. -/
theorem pairwise_moved {α : Type*} {r : α → α → Prop} {front middle back : List α} {i : ℕ} {x : α}
    (hget : middle[i]? = some x) (hpairwise : (front ++ middle ++ back).Pairwise r)
    (hpassed : ∀ y ∈ middle.take i, r x y) :
    (front ++ [x] ++ middle.eraseIdx i ++ back).Pairwise r := by
  obtain ⟨hi, hx⟩ := List.getElem?_eq_some_iff.mp hget
  have hsplit : middle = middle.take i ++ x :: middle.drop (i + 1) := by
    rw [← hx, ← List.drop_eq_getElem_cons hi, List.take_append_drop]
  rw [List.eraseIdx_eq_take_drop_succ]
  generalize middle.take i = passed at *
  generalize middle.drop (i + 1) = rest at *
  subst hsplit
  have herased : (front ++ (passed ++ rest ++ back)).Pairwise r :=
    hpairwise.sublist (by simp)
  have hmoved := pairwise_insert (x := x) herased
    (fun y hy ↦ ?_) fun y hy ↦ ?_
  · simpa using hmoved
  · simp only [List.append_assoc, List.pairwise_append, List.mem_append, List.mem_cons] at hpairwise
    exact hpairwise.2.2 y hy x (by simp)
  · simp only [List.append_assoc, List.cons_append, List.pairwise_append, List.pairwise_cons,
      List.mem_append] at hpairwise
    simp only [List.append_assoc, List.mem_append] at hy
    rcases hy with hy | hy
    · exact hpassed y hy
    · exact hpairwise.2.1.2.1.1 y hy

/-- A change that a map does not see. -/
theorem map_set_same {α β : Type*} {f : α → β} {l : List α} {i : ℕ} {x y : α}
    (hget : l[i]? = some x) (hsame : f y = f x) : (l.set i y).map f = l.map f := by
  obtain ⟨hi, hx⟩ := List.getElem?_eq_some_iff.mp hget
  rw [List.map_set, hsame, ← hx, ← List.getElem_map f (h := by simpa using hi),
    List.set_getElem_self]

/-- The records of all states, those published first and those that pass `updateState` last. -/
def VpnBackend.chain (s : VpnBackend) : List Record :=
  s.published.map Publication.record ++ s.emissions.map Emission.record ++
    s.updates.map Update.record

/-- The states of an attempt are published and pending in the order of their production. -/
structure Ordered (s : VpnBackend) : Prop where
  order : s.chain.Pairwise Record.Before
  produced : ∀ r ∈ s.chain, r.attempt ≠ none → r ∈ s.produced
  seq : ∀ r ∈ s.produced, r.seq < s.produced.length
  fresh : ∀ r ∈ s.produced, ∀ a ∈ r.attempt, a < s.nextId
  connectionId : ∀ a ∈ s.connectionId, a < s.nextId
  incoming : ∀ a ∈ s.incoming, a < s.nextId

/-- States go or pass on and nothing is produced. -/
theorem Ordered.mono {s s' : VpnBackend} (h : Ordered s) (horder : s'.chain.Pairwise Record.Before)
    (hsubset : ∀ r ∈ s'.chain, r ∈ s.chain)
    (hrest : (s'.produced, s'.nextId, s'.connectionId, s'.incoming) =
      (s.produced, s.nextId, s.connectionId, s.incoming)) : Ordered s' := by
  simp only [Prod.mk.injEq] at hrest
  obtain ⟨hproduced, hnext, hid, hincoming⟩ := hrest
  refine ⟨horder, ?_, hproduced ▸ h.seq, ?_, ?_, ?_⟩
  · exact fun r hr hattempt ↦ hproduced ▸ h.produced r (hsubset r hr) hattempt
  · rw [hproduced, hnext]
    exact h.fresh
  · rw [hid, hnext]
    exact h.connectionId
  · rw [hincoming, hnext]
    exact h.incoming

/-- What is on its way stays, or some of it goes. -/
theorem Ordered.sublist {s s' : VpnBackend} (h : Ordered s) (hsublist : s'.chain.Sublist s.chain)
    (hrest : (s'.produced, s'.nextId, s'.connectionId, s'.incoming) =
      (s.produced, s.nextId, s.connectionId, s.incoming)) : Ordered s' :=
  h.mono (h.order.sublist hsublist) (fun _ hr ↦ hsublist.subset hr) hrest

/-- Everything on its way was produced earlier than a new record. -/
theorem Ordered.before_new {s : VpnBackend} (h : Ordered s) {q r : Record} (hr : r ∈ s.chain)
    (hseq : q.seq = s.produced.length)
    (hfinal : q.status = .connecting ∨ q.status = .connected →
      ∀ p ∈ s.produced, p.attempt = q.attempt → p.status ≠ .disconnected) : r.Before q := by
  intro hattempt hsame
  have hproduced := h.produced r hr hattempt
  refine ⟨hseq ▸ h.seq r hproduced, fun hdisconnected ↦ ?_⟩
  rw [← not_or]
  exact fun hq ↦ hfinal hq r hproduced hsame.symm hdisconnected

/-- A state is produced through `updateState`. -/
theorem ordered_updateState {s : VpnBackend} (h : Ordered s) {own : Option Error} {q : Record}
    (hseq : q.seq = s.produced.length) (hfresh : ∀ a ∈ q.attempt, a < s.nextId)
    (hfinal : q.status = .connecting ∨ q.status = .connected →
      ∀ p ∈ s.produced, p.attempt = q.attempt → p.status ≠ .disconnected) :
    Ordered (s.updateState own q) := by
  have hchain : (s.updateState own q).chain = s.chain ++ [q] := by
    simp [VpnBackend.chain, VpnBackend.updateState]
  refine ⟨?_, fun r hr hattempt ↦ ?_, fun r hr ↦ ?_, fun r hr ↦ ?_, h.connectionId, h.incoming⟩
  · rw [hchain, ← List.append_nil (s.chain ++ [q])]
    exact pairwise_insert (by simpa using h.order) (fun r hr ↦ h.before_new hr hseq hfinal)
      (by simp)
  · rw [hchain, List.mem_append, List.mem_singleton] at hr
    exact hr.elim (fun hold ↦ List.mem_cons_of_mem _ (h.produced r hold hattempt))
      fun hnew ↦ hnew ▸ List.mem_cons_self
  · rcases List.mem_cons.mp hr with rfl | hold
    · rw [hseq]
      exact Nat.lt_succ_self _
    · exact Nat.lt_succ_of_lt (h.seq r hold)
  · rcases List.mem_cons.mp hr with rfl | hold
    · exact hfresh
    · exact h.fresh r hold

/-- A state is put at the end of the emissions. -/
theorem chain_setState (s : VpnBackend) (state : VPNState) (force : Bool) (q : Record) :
    (s.setState state force q).chain =
      (s.published.map Publication.record ++ s.emissions.map Emission.record) ++ [q] ++
        s.updates.map Update.record := by
  simp [VpnBackend.chain, VpnBackend.setState]

/-- The controller's `Connecting` is the first state of its attempt. -/
theorem ordered_announce {s s' : VpnBackend} (h : Ordered s) (hstep : step s .announce = some s') :
    Ordered s' := by
  cases hstep
  have hother : ∀ r ∈ s.chain, ∀ a ∈ r.attempt, a < s.nextId := by
    intro r hr a ha
    refine h.fresh r (h.produced r hr ?_) a ha
    rw [Option.mem_def.mp ha]
    exact Option.some_ne_none a
  have hchain := chain_setState s { status := .connecting, connectionId := some s.nextId } false
    ⟨some s.nextId, s.produced.length, .connecting, none, none⟩
  refine ⟨?_, fun r hr hattempt ↦ ?_, fun r hr ↦ ?_, fun r hr a ha ↦ ?_, fun a ha ↦ ?_,
    fun a ha ↦ ?_⟩
  · refine hchain ▸ pairwise_insert h.order (fun r hr hattempt hsame ↦ ?_) fun r hr _ hsame ↦ ?_
    · exact absurd (hother r (List.mem_append_left _ hr) s.nextId hsame.symm) (Nat.lt_irrefl _)
    · exact absurd (hother r (List.mem_append_right _ hr) s.nextId hsame) (Nat.lt_irrefl _)
  · have hmem := hchain ▸ hr
    rw [List.mem_append, List.mem_append, List.mem_singleton] at hmem
    rcases hmem with (hold | rfl) | hold
    · exact List.mem_cons_of_mem _ (h.produced r (List.mem_append_left _ hold) hattempt)
    · exact List.mem_cons_self
    · exact List.mem_cons_of_mem _ (h.produced r (List.mem_append_right _ hold) hattempt)
  · rcases List.mem_cons.mp hr with rfl | hold
    · exact Nat.lt_succ_self _
    · exact Nat.lt_succ_of_lt (h.seq r hold)
  · rcases List.mem_cons.mp hr with rfl | hold
    · cases ha
      exact Nat.lt_succ_self _
    · exact Nat.lt_succ_of_lt (h.fresh r hold a ha)
  · exact Nat.lt_succ_of_lt (h.connectionId a ha)
  · exact Nat.lt_succ_of_lt (h.incoming a ha)

/-- A state that no backend produced is nobody's. -/
theorem ordered_setState {s : VpnBackend} (h : Ordered s) {state : VPNState} {force : Bool}
    {q : Record} (hnone : q.attempt = none) : Ordered (s.setState state force q) := by
  have hchain := chain_setState s state force q
  refine ⟨?_, fun r hr hattempt ↦ ?_, h.seq, h.fresh, h.connectionId, h.incoming⟩
  · refine hchain ▸ pairwise_insert h.order (fun r _ hattempt hsame ↦ ?_) fun r _ hattempt _ ↦ ?_
    · exact absurd (hsame.symm.trans hnone) hattempt
    · exact absurd hnone hattempt
  · rw [hchain, List.mem_append, List.mem_append, List.mem_singleton] at hr
    rcases hr with (hold | rfl) | hold
    · exact h.produced r (List.mem_append_left _ hold) hattempt
    · exact absurd hnone hattempt
    · exact h.produced r (List.mem_append_right _ hold) hattempt

theorem advance_record {u next : Update} {s : VpnBackend} {error : Option Error}
    (hadvance : u.advance s = some (next, error)) : next.record = u.record := by
  unfold Update.advance at hadvance
  split at hadvance
  case h_3 => split_ifs at hadvance <;> cases hadvance <;> rfl
  all_goals cases hadvance
  all_goals rfl

/-- The oldest `updateState` passes its state on to the end of the emissions. -/
theorem ordered_update {s : VpnBackend} (h : Ordered s) {u : Update} {rest : List Update}
    (hupdates : s.updates = u :: rest) : Ordered (s.update 0 u) := by
  unfold VpnBackend.update
  split
  · rename_i next error hadvance
    refine h.sublist ?_ rfl
    simp [VpnBackend.chain, hupdates, advance_record hadvance]
  · dsimp only
    split_ifs
    · refine h.sublist ?_ rfl
      simp [VpnBackend.chain, hupdates]
    · refine h.sublist ?_ rfl
      simp [VpnBackend.chain, VpnBackend.setState, hupdates]

theorem ordered_compare {s s' : VpnBackend} (h : Ordered s) {i : ℕ}
    (hstep : step s (.compare i) = some s') : Ordered s' := by
  simp only [step] at hstep
  split at hstep
  · cases hstep
  · rename_i e he
    split_ifs at hstep <;> cases hstep
    · refine h.sublist ?_ rfl
      have hsame : (s.emissions.set i { e with checked := true }).map Emission.record =
          s.emissions.map Emission.record := map_set_same he rfl
      simp [VpnBackend.chain, hsame]
    · refine h.sublist ?_ rfl
      have herased := (List.eraseIdx_sublist s.emissions i).map Emission.record
      exact ((List.Sublist.refl _).append herased).append (List.Sublist.refl _)

/-- An emission overtakes none of its attempt. -/
theorem ordered_emit {s s' : VpnBackend} (h : Ordered s) {i : ℕ} (horderly : Orderly s (.emit i))
    (hstep : step s (.emit i) = some s') : Ordered s' := by
  simp only [step] at hstep
  split at hstep
  · cases hstep
  · rename_i e he
    split_ifs at hstep
    cases hstep
    have hget : (s.emissions.map Emission.record)[i]? = some e.record := by simp [he]
    have hpassed : ∀ r ∈ (s.emissions.map Emission.record).take i, e.record.Before r := by
      intro r hr hattempt hsame
      rw [← List.map_take, List.mem_map] at hr
      obtain ⟨f, hf, rfl⟩ := hr
      exact absurd hsame (horderly e he hattempt f hf)
    have hmoved := pairwise_moved hget h.order hpassed
    have hchain : VpnBackend.chain { s with
        emissions := s.emissions.eraseIdx i
        published := s.published ++ [⟨e.state, e.record⟩] } =
        s.published.map Publication.record ++ [e.record] ++
          (s.emissions.map Emission.record).eraseIdx i ++ s.updates.map Update.record := by
      simp [VpnBackend.chain, List.eraseIdx_map]
    refine h.mono (hchain ▸ hmoved) (fun r hr ↦ ?_) rfl
    rw [hchain] at hr
    simp only [List.mem_append, List.mem_singleton] at hr
    simp only [VpnBackend.chain, List.mem_append]
    rcases hr with ((hold | rfl) | hold) | hold
    · exact Or.inl (Or.inl hold)
    · exact Or.inl (Or.inr (List.mem_of_getElem? hget))
    · exact Or.inl (Or.inr (List.mem_of_mem_eraseIdx hold))
    · exact Or.inr hold

/-! ### What a coroutine of `updateState` has read -/

/-- The error is still to be read. -/
def UpdatePc.owing : UpdatePc → Bool
  | .launched | .named | .identified => true
  | .taken | .ready => false

/-- The coroutine was launched for the attempt of the backend, what it has read is what its state
was produced with, and so is what it is about to read. -/
structure Filled (s : VpnBackend) (u : Update) : Prop where
  attempt : u.record.attempt = s.connectionId
  protocol : u.record.protocolInformation = s.protocolInformation
  status : u.state.status = u.record.status
  named : u.pc ≠ .launched → u.state.protocolInformation = u.record.protocolInformation
  identified : u.pc ≠ .launched → u.pc ≠ .named → u.state.connectionId = u.record.attempt
  error : u.record.status = .disconnected →
    u.record.error = if u.pc.owing then s.error.or u.state.error else u.state.error
  taken : u.pc = .taken → u.record.status = .disconnected ∧ s.error ≠ none

/-- The coroutines of `updateState` and the disconnects under way belong to the attempt of the
backend, and its error to at most one of them. -/
structure Pending (s : VpnBackend) : Prop where
  updates : ∀ u ∈ s.updates, Filled s u
  once : s.error ≠ none → s.updates.Pairwise fun u v ↦
    u.record.status = .disconnected → v.record.status ≠ .disconnected
  single : s.disconnects.length ≤ 1
  disconnects : ∀ d ∈ s.disconnects, d.attempt = s.connectionId ∧
    d.protocolInformation = s.protocolInformation ∧ d.error = s.error
  untaken : s.disconnects ≠ [] → s.error ≠ none → Undisconnected s
  incoming : s.incoming ≠ none → s.updates = [] ∧ s.disconnects = []

/-- A coroutine reads three fields of the backend. -/
theorem Filled.congr {s s' : VpnBackend} {u : Update} (h : Filled s u)
    (hid : s'.connectionId = s.connectionId)
    (hprotocol : s'.protocolInformation = s.protocolInformation) (herror : s'.error = s.error) :
    Filled s' u := by
  obtain ⟨hattempt', hprotocol', hstatus, hnamed, hidentified, herror', htaken⟩ := h
  rw [← hid] at hattempt'
  rw [← hprotocol] at hprotocol'
  rw [← herror] at herror' htaken
  exact ⟨hattempt', hprotocol', hstatus, hnamed, hidentified, herror', htaken⟩

/-- The emissions and what was published are no part of what is pending here. -/
theorem Pending.withEmissions {s : VpnBackend} (h : Pending s) (emissions : List Emission)
    (published : List Publication) (produced : List Record) (nextId : ℕ) :
    Pending { s with
      emissions := emissions, published := published, produced := produced, nextId := nextId } :=
  ⟨fun u hu ↦ (h.updates u hu).congr rfl rfl rfl, h.once, h.single, h.disconnects, h.untaken,
    h.incoming⟩

/-- Nothing is under way. -/
theorem pending_empty {s : VpnBackend} (hupdates : s.updates = [])
    (hdisconnects : s.disconnects = []) : Pending s := by
  refine ⟨?_, ?_, ?_, ?_, ?_, fun _ ↦ ⟨hupdates, hdisconnects⟩⟩ <;> simp [hupdates, hdisconnects]

/-- The error of the backend concerns no state but a `Disconnected`. -/
theorem Filled.withError {s : VpnBackend} {u : Update} (h : Filled s u)
    (hstatus : u.record.status ≠ .disconnected) (error : Option Error)
    (disconnects : List Disconnect) (updates : List Update) :
    Filled { s with error := error, disconnects := disconnects, updates := updates } u :=
  ⟨h.attempt, h.protocol, h.status, h.named, h.identified, fun hd ↦ absurd hd hstatus,
    fun htaken ↦ absurd (h.taken htaken).1 hstatus⟩

theorem pending_disconnect {s s' : VpnBackend} (h : Pending s) {error : Option Error}
    (horderly : Orderly s (.disconnect error)) (hstep : step s (.disconnect error) = some s') :
    Pending s' := by
  obtain ⟨hincoming, hnone, hundisconnected⟩ := horderly
  cases hstep
  refine ⟨fun u hu ↦ ?_, fun _ ↦ ?_, by simp [hnone], by simp [hnone], fun _ _ ↦ hundisconnected,
    fun hsome ↦ absurd hincoming hsome⟩
  · exact (h.updates u hu).withError (hundisconnected u hu) error _ s.updates
  · exact List.pairwise_of_forall_mem_list fun _ _ v hv _ ↦ hundisconnected v hv

/-- `updateState` for the attempt of the backend, with the error that its coroutine will read. -/
theorem pending_updateState {s : VpnBackend} (h : Pending s) {own : Option Error} {q : Record}
    (hincoming : s.incoming = none) (hattempt : q.attempt = s.connectionId)
    (hprotocol : q.protocolInformation = s.protocolInformation)
    (herror : q.status = .disconnected → q.error = s.error.or own)
    (halone : q.status = .disconnected → s.error ≠ none →
      s.disconnects = [] ∧ Undisconnected s) : Pending (s.updateState own q) := by
  refine ⟨fun u hu ↦ ?_, fun hsome ↦ ?_, h.single, h.disconnects, fun hd hsome u hu ↦ ?_,
    fun hsome ↦ absurd hincoming hsome⟩
  · rcases List.mem_append.mp hu with hold | hnew
    · exact (h.updates u hold).congr rfl rfl rfl
    · rw [List.mem_singleton.mp hnew]
      exact ⟨hattempt, hprotocol, rfl, fun hpc ↦ absurd rfl hpc, fun hpc ↦ absurd rfl hpc, herror,
        nofun⟩
  · refine List.pairwise_append.mpr ⟨h.once hsome, List.pairwise_singleton _ _, ?_⟩
    intro u hu v hv hdisconnected hstatus
    rw [List.mem_singleton.mp hv] at hstatus
    exact (halone hstatus hsome).2 u hu hdisconnected
  · rcases List.mem_append.mp hu with hold | hnew
    · exact h.untaken hd hsome u hold
    · rw [List.mem_singleton.mp hnew]
      exact fun hstatus ↦ hd (halone hstatus hsome).1

theorem pending_produce {s s' : VpnBackend} (h : Pending s) {status : Status}
    {error : Option Error} (horderly : Orderly s (.produce status error))
    (hstep : step s (.produce status error) = some s') : Pending s' := by
  obtain ⟨hincoming, herror, -⟩ := horderly
  cases hstep
  refine pending_updateState h hincoming rfl rfl (fun hstatus ↦ ?_) fun hstatus hsome ↦ ?_
  · rw [herror hstatus]
    rfl
  · exact absurd (herror hstatus) hsome

/-- The disconnect under way is the only one. -/
theorem Pending.eq_singleton {s : VpnBackend} (h : Pending s) {i : ℕ} {d : Disconnect}
    (hget : s.disconnects[i]? = some d) : s.disconnects = [d] ∧ s.disconnects.eraseIdx i = [] := by
  have hsingle := h.single
  obtain ⟨hi, hd⟩ := List.getElem?_eq_some_iff.mp hget
  obtain ⟨e, he⟩ := List.length_eq_one_iff.mp (show s.disconnects.length = 1 by omega)
  have hzero : i = 0 := by omega
  subst hzero
  simp only [he, List.getElem_cons_zero] at hd
  subst hd
  exact ⟨he, by rw [he]; rfl⟩

theorem pending_finish {s s' : VpnBackend} (h : Pending s) {i : ℕ}
    (hstep : step s (.finish i) = some s') : Pending s' := by
  simp only [step] at hstep
  split at hstep
  · cases hstep
  · rename_i d hd
    cases hstep
    obtain ⟨hsingle, herased⟩ := h.eq_singleton hd
    obtain ⟨hattempt, hprotocol, herror⟩ := h.disconnects d (List.mem_of_getElem? hd)
    have hincoming : s.incoming = none := by
      by_contra hsome
      rw [(h.incoming hsome).2] at hsingle
      cases hsingle
    have hended : Pending { s with disconnects := s.disconnects.eraseIdx i } := by
      exact ⟨fun u hu ↦ (h.updates u hu).congr rfl rfl rfl, h.once, by simp [herased],
        by simp [herased], by simp [herased], fun hsome ↦ absurd hincoming hsome⟩
    unfold VpnBackend.finish
    split_ifs
    · exact hended
    · refine pending_updateState hended hincoming hattempt hprotocol (fun _ ↦ ?_) fun _ hsome ↦ ?_
      · rw [Option.or_none]
        exact herror
      · exact ⟨herased, h.untaken (by simp [hsingle]) hsome⟩

/-- One step of the oldest coroutine, short of its end. -/
theorem filled_advance {s : VpnBackend} {u next : Update} {error : Option Error}
    (h : Filled s u) (hadvance : u.advance s = some (next, error)) (updates : List Update) :
    Filled { s with updates := updates, error := error } next := by
  obtain ⟨hattempt, hprotocol, hstatus, hnamed, hidentified, herror, htaken⟩ := h
  unfold Update.advance at hadvance
  split at hadvance <;> rename_i hpc
  · cases hadvance
    refine ⟨hattempt, hprotocol, hstatus, fun _ ↦ hprotocol.symm, fun _ hnot ↦ absurd rfl hnot,
      fun hd ↦ ?_, nofun⟩
    rw [herror hd, hpc]
    rfl
  · cases hadvance
    refine ⟨hattempt, hprotocol, hstatus, fun _ ↦ hnamed (by simp [hpc]), fun _ _ ↦ hattempt.symm,
      fun hd ↦ ?_, nofun⟩
    rw [herror hd, hpc]
    rfl
  · have hname := hnamed (by simp [hpc])
    have hid := hidentified (by simp [hpc]) (by simp [hpc])
    rw [hpc] at herror
    split_ifs at hadvance with hsome <;> cases hadvance
    · obtain ⟨hsome, hd⟩ := hsome
      refine ⟨hattempt, hprotocol, hstatus, fun _ ↦ hname, fun _ _ ↦ hid, fun hd ↦ ?_,
        fun _ ↦ ⟨hstatus.symm.trans hd, ?_⟩⟩
      · obtain ⟨e, he⟩ := Option.isSome_iff_exists.mp hsome
        rw [herror hd, he]
        rfl
      · simpa [Option.isSome_iff_ne_none] using hsome
    · refine ⟨hattempt, hprotocol, hstatus, fun _ ↦ hname, fun _ _ ↦ hid, fun hd ↦ ?_, nofun⟩
      have hnone : s.error = none := by
        by_contra hne
        exact hsome ⟨Option.isSome_iff_ne_none.mpr hne, hstatus.trans hd⟩
      rw [herror hd, hnone]
      rfl
  · cases hadvance
    rw [hpc] at herror
    exact ⟨hattempt, hprotocol, hstatus, fun _ ↦ hnamed (by simp [hpc]),
      fun _ _ ↦ hidentified (by simp [hpc]) (by simp [hpc]), herror, nofun⟩
  · cases hadvance

/-- The error of the backend stays, or its only reader clears it. -/
theorem advance_error {s : VpnBackend} {u next : Update} {error : Option Error}
    (h : Filled s u) (hadvance : u.advance s = some (next, error)) :
    error = s.error ∨ error = none ∧ s.error ≠ none ∧ u.record.status = .disconnected := by
  unfold Update.advance at hadvance
  split at hadvance <;> rename_i hpc
  case h_3 => split_ifs at hadvance <;> cases hadvance <;> exact Or.inl rfl
  case h_4 =>
    cases hadvance
    exact Or.inr ⟨rfl, (h.taken hpc).2, (h.taken hpc).1⟩
  all_goals cases hadvance
  all_goals exact Or.inl rfl

theorem pending_update {s : VpnBackend} (h : Pending s) {u : Update} {rest : List Update}
    (hupdates : s.updates = u :: rest) : Pending (s.update 0 u) := by
  have hu : Filled s u := h.updates u (by simp [hupdates])
  have hincoming : s.incoming = none := by
    by_contra hsome
    rw [(h.incoming hsome).1] at hupdates
    cases hupdates
  have honce : s.error ≠ none → _ := fun hsome ↦ List.pairwise_cons.mp (hupdates ▸ h.once hsome)
  unfold VpnBackend.update
  split
  · rename_i next error hadvance
    have hnext := filled_advance hu hadvance (s.updates.set 0 next)
    have hrecord := advance_record hadvance
    simp only [hupdates, List.set_cons_zero] at hnext ⊢
    rcases advance_error hu hadvance with rfl | ⟨rfl, hsome, hstatus⟩
    · refine ⟨fun v hv ↦ ?_, fun hsome ↦ ?_, h.single, h.disconnects, fun hd hsome v hv ↦ ?_,
        fun hin ↦ absurd hincoming hin⟩
      · rcases List.mem_cons.mp hv with rfl | hold
        · exact hnext
        · exact (h.updates v (by simp [hupdates, hold])).congr rfl rfl rfl
      · obtain ⟨hhead, htail⟩ := honce hsome
        exact List.pairwise_cons.mpr ⟨fun v hv ↦ hrecord ▸ hhead v hv, htail⟩
      · have hnone := h.untaken hd hsome
        rcases List.mem_cons.mp hv with rfl | hold
        · exact hrecord ▸ hnone u (by simp [hupdates])
        · exact hnone v (by simp [hupdates, hold])
    · have hempty : s.disconnects = [] := by
        by_contra hd
        exact h.untaken hd hsome u (by simp [hupdates]) hstatus
      refine ⟨fun v hv ↦ ?_, fun hnone ↦ absurd rfl hnone, h.single, by simp [hempty],
        fun hd ↦ absurd hempty hd, fun hin ↦ absurd hincoming hin⟩
      rcases List.mem_cons.mp hv with rfl | hold
      · exact hnext
      · have hfilled := h.updates v (by simp [hupdates, hold])
        exact hfilled.withError ((honce hsome).1 v hold hstatus) none s.disconnects _
  · have hended : Pending { s with updates := s.updates.eraseIdx 0 } := by
      simp only [hupdates, List.eraseIdx_cons_zero]
      exact ⟨fun v hv ↦ (h.updates v (by simp [hupdates, hv])).congr rfl rfl rfl,
        fun hsome ↦ (honce hsome).2, h.single, h.disconnects,
        fun hd hsome v hv ↦ h.untaken hd hsome v (by simp [hupdates, hv]),
        fun hin ↦ absurd hincoming hin⟩
    dsimp only
    split_ifs
    · exact hended
    · exact hended.withEmissions _ s.published s.produced s.nextId

/-! ### Runs -/

/-- The invariant: what is published and what `setState` has is stamped, and what is pending is in
order. -/
structure Inv (s : VpnBackend) : Prop where
  published : ∀ p ∈ s.published, Matches p.record p.state
  emissions : ∀ e ∈ s.emissions, Matches e.record e.state
  ordered : Ordered s
  pending : Pending s

/-- A coroutine at its end passes on a stamped state. -/
theorem matches_of_filled {s : VpnBackend} {u : Update} (h : Filled s u) (hpc : u.pc = .ready) :
    Matches u.record u.state := by
  have herror := h.error
  rw [hpc] at herror
  exact ⟨h.status, fun _ ↦ h.identified (by simp [hpc]) (by simp [hpc]),
    fun _ ↦ h.named (by simp [hpc]), fun _ hd ↦ (herror (h.status.symm.trans hd)).symm⟩

theorem matches_append {emissions : List Emission} (h : ∀ e ∈ emissions, Matches e.record e.state)
    {e : Emission} (he : Matches e.record e.state) :
    ∀ f ∈ emissions ++ [e], Matches f.record f.state := by
  intro f hf
  rcases List.mem_append.mp hf with hold | hnew
  · exact h f hold
  · rw [List.mem_singleton.mp hnew]
    exact he

theorem advance_none {s : VpnBackend} {u : Update} (hadvance : u.advance s = none) :
    u.pc = .ready := by
  unfold Update.advance at hadvance
  split at hadvance
  case h_5 hpc => exact hpc
  case h_3 => split_ifs at hadvance
  all_goals cases hadvance

theorem update_published (s : VpnBackend) (i : ℕ) (u : Update) :
    (s.update i u).published = s.published := by
  unfold VpnBackend.update
  split
  · rfl
  · dsimp only
    split_ifs <;> rfl

/-- The coroutine calls `setState` at its end only. -/
theorem mem_update_emissions {s : VpnBackend} {i : ℕ} {u : Update} {e : Emission}
    (he : e ∈ (s.update i u).emissions) :
    e ∈ s.emissions ∨ u.pc = .ready ∧ e = ⟨false, false, u.state, u.record⟩ := by
  unfold VpnBackend.update at he
  split at he
  · exact Or.inl he
  · rename_i hadvance
    dsimp only at he
    split_ifs at he
    · exact Or.inl he
    · rcases List.mem_append.mp he with hold | hnew
      · exact Or.inl hold
      · exact Or.inr ⟨advance_none hadvance, List.mem_singleton.mp hnew⟩

theorem inv_update {s : VpnBackend} (h : Inv s) {u : Update} {rest : List Update}
    (hupdates : s.updates = u :: rest) : Inv (s.update 0 u) := by
  refine ⟨?_, fun e he ↦ ?_, ordered_update h.ordered hupdates, pending_update h.pending hupdates⟩
  · rw [update_published]
    exact h.published
  · rcases mem_update_emissions he with hold | ⟨hpc, rfl⟩
    · exact h.emissions e hold
    · exact matches_of_filled (h.pending.updates u (by simp [hupdates])) hpc

theorem inv_compare {s s' : VpnBackend} (h : Inv s) {i : ℕ}
    (hstep : step s (.compare i) = some s') : Inv s' := by
  have hordered := ordered_compare h.ordered hstep
  simp only [step] at hstep
  split at hstep
  · cases hstep
  · rename_i e he
    have hmem : e ∈ s.emissions := List.mem_of_getElem? he
    split_ifs at hstep <;> cases hstep
    · refine ⟨h.published, fun f hf ↦ ?_, hordered, h.pending.withEmissions _ _ _ _⟩
      rcases List.mem_or_eq_of_mem_set hf with hold | rfl
      · exact h.emissions f hold
      · exact h.emissions e hmem
    · exact ⟨h.published, fun f hf ↦ h.emissions f (List.mem_of_mem_eraseIdx hf), hordered,
        h.pending.withEmissions _ _ _ _⟩

theorem inv_emit {s s' : VpnBackend} (h : Inv s) {i : ℕ} (horderly : Orderly s (.emit i))
    (hstep : step s (.emit i) = some s') : Inv s' := by
  have hordered := ordered_emit h.ordered horderly hstep
  simp only [step] at hstep
  split at hstep
  · cases hstep
  · rename_i e he
    split_ifs at hstep
    cases hstep
    refine ⟨fun p hp ↦ ?_, fun f hf ↦ h.emissions f (List.mem_of_mem_eraseIdx hf), hordered,
      h.pending.withEmissions _ _ _ _⟩
    rcases List.mem_append.mp hp with hold | hnew
    · exact h.published p hold
    · rw [List.mem_singleton.mp hnew]
      exact h.emissions e (List.mem_of_getElem? he)

theorem inv_finish {s s' : VpnBackend} (h : Inv s) {i : ℕ}
    (hstep : step s (.finish i) = some s') : Inv s' := by
  have hpending := pending_finish h.pending hstep
  simp only [step] at hstep
  split at hstep
  · cases hstep
  · rename_i d hd
    cases hstep
    have hended : Ordered { s with disconnects := s.disconnects.eraseIdx i } :=
      h.ordered.sublist (List.Sublist.refl _) rfl
    have hfinished : Ordered (VpnBackend.finish
        { s with disconnects := s.disconnects.eraseIdx i } d) := by
      unfold VpnBackend.finish
      split_ifs
      · exact hended
      · have hattempt := (h.pending.disconnects d (List.mem_of_getElem? hd)).1
        exact ordered_updateState hended rfl (hattempt ▸ h.ordered.connectionId) (by simp)
    unfold VpnBackend.finish at hfinished hpending ⊢
    split_ifs at hfinished hpending ⊢ <;>
      exact ⟨h.published, h.emissions, hfinished, hpending⟩

theorem inv_step {s s' : VpnBackend} {a : Action} (h : Inv s) (horderly : Orderly s a)
    (hstep : step s a = some s') : Inv s' := by
  cases a with
  | announce =>
    have hordered := ordered_announce h.ordered hstep
    cases hstep
    exact ⟨h.published, matches_append h.emissions ⟨rfl, fun _ ↦ rfl, fun _ ↦ rfl, fun _ _ ↦ rfl⟩,
      hordered, h.pending.withEmissions _ _ _ _⟩
  | connect protocolInformation connectionId =>
    simp only [step] at hstep
    split_ifs at hstep with hlt
    cases hstep
    refine ⟨h.published, h.emissions, ?_, pending_empty horderly.1 horderly.2⟩
    exact ⟨h.ordered.order, h.ordered.produced, h.ordered.seq, h.ordered.fresh,
      h.ordered.connectionId, fun a ha ↦ Option.some.inj ha ▸ hlt⟩
  | assign =>
    simp only [step] at hstep
    split at hstep
    · cases hstep
    · rename_i connectionId hincoming
      cases hstep
      obtain ⟨hupdates, hdisconnects⟩ := h.pending.incoming (by simp [hincoming])
      refine ⟨h.published, h.emissions, ?_, pending_empty hupdates hdisconnects⟩
      exact ⟨h.ordered.order, h.ordered.produced, h.ordered.seq, h.ordered.fresh,
        fun a ha ↦ h.ordered.incoming a (hincoming.trans ha), nofun⟩
  | disconnect error =>
    have hpending := pending_disconnect h.pending horderly hstep
    cases hstep
    exact ⟨h.published, h.emissions, h.ordered.sublist (List.Sublist.refl _) rfl, hpending⟩
  | finish i => exact inv_finish h hstep
  | produce status error =>
    have hpending := pending_produce h.pending horderly hstep
    cases hstep
    exact ⟨h.published, h.emissions,
      ordered_updateState h.ordered rfl h.ordered.connectionId horderly.2.2, hpending⟩
  | setState state force =>
    cases hstep
    exact ⟨h.published, matches_append h.emissions ⟨rfl, by simp, by simp, by simp⟩,
      ordered_setState h.ordered rfl, h.pending.withEmissions _ _ _ _⟩
  | update i =>
    cases horderly
    simp only [step, Option.map_eq_some_iff] at hstep
    obtain ⟨u, hu, rfl⟩ := hstep
    cases hupdates : s.updates with
    | nil => simp [hupdates] at hu
    | cons v rest =>
      simp only [hupdates, List.getElem?_cons_zero, Option.some.injEq] at hu
      subst hu
      exact inv_update h hupdates
  | compare i => exact inv_compare h hstep
  | emit i => exact inv_emit h horderly hstep

theorem inv_initial : Inv VpnBackend.initial where
  published := by simp [VpnBackend.initial]
  emissions := by simp [VpnBackend.initial]
  ordered := by constructor <;> simp [VpnBackend.initial, VpnBackend.chain]
  pending := pending_empty rfl rfl

/-- **Published states describe the attempt they came from.** In every run whose steps all meet the
condition, every published state carries the id, the protocol and the error of what produced it, and
the states of one attempt come in the order of their production. -/
theorem faithful_of_orderly {s : VpnBackend}
    (hreach : Reaches step Orderly VpnBackend.initial s) : Faithful s := by
  have h : Inv s :=
    hreach.invariant Inv (fun _ _ _ hx horderly hstep ↦ inv_step hx horderly hstep) inv_initial
  refine ⟨h.published, ?_⟩
  have hpublished := (List.pairwise_append.mp (List.pairwise_append.mp h.ordered.order).1).1
  exact List.pairwise_map.mp hpublished

/-- The controller announces an attempt and the backend connects. -/
def connects (connectionId : ℕ) : List Action :=
  [.announce, .connect ⟨"wg", "443"⟩ connectionId, .assign]

/-- The coroutine of an `updateState` runs to its end. -/
def updates (i : ℕ) (steps : ℕ) : List Action := List.replicate steps (.update i)

/-- A user's disconnect. -/
def disconnects : List Action :=
  [.disconnect (some { error := .userDisconnect }), .finish 0]

/-- An attempt that connects, a disconnect of it and the next attempt, each state published before
the next is produced. -/
def orderlyRun : List Action :=
  List.flatten [connects 0, [.compare 0, .emit 0, .produce .connected none], updates 0 4,
    [.compare 0, .emit 0], disconnects, updates 0 5, [.compare 0, .emit 0], connects 1,
    [.compare 0, .emit 0]]

/-- In `orderlyRun` four states are published. -/
theorem faithful_of_orderly_reconnected :
    ∃ s, Reaches step Orderly VpnBackend.initial s ∧
      s.published.map (fun p ↦ (p.state.status, p.state.connectionId)) =
        [(.connecting, some 0), (.connected, some 0), (.disconnected, some 0),
          (.connecting, some 1)] ∧
      Faithful s := by
  obtain ⟨s, hreach, hcheck⟩ := exists_reaches_of_run step Orderly VpnBackend.initial orderlyRun
    (fun s ↦ decide (s.published.map (fun p ↦ (p.state.status, p.state.connectionId)) =
      [(.connecting, some 0), (.connected, some 0), (.disconnected, some 0),
        (.connecting, some 1)])) (by decide)
  exact ⟨s, hreach, of_decide_eq_true hcheck, faithful_of_orderly hreach⟩

/-! ### Three runs that break the promise -/

/-- The `Disconnected` of the first attempt is on its way when the second one begins. -/
def restampedRun : List Action :=
  List.flatten [connects 0, disconnects, connects 1, updates 0 5, [.compare 2, .emit 2]]

/-- The `Disconnected` of an attempt is published with the id of the next attempt. -/
theorem not_faithful_restamped :
    ¬ ∀ s, Reaches step Always VpnBackend.initial s → Faithful s := by
  intro hall
  obtain ⟨s, hreach, hbad⟩ := exists_reaches_of_run step Always VpnBackend.initial restampedRun
    (fun s ↦ s.published.any fun p ↦
      decide (p.record.attempt = some 0 ∧ p.state.connectionId = some 1)) (by decide)
  obtain ⟨p, hp, hids⟩ := List.any_eq_true.mp hbad
  obtain ⟨hattempt, hid⟩ := of_decide_eq_true hids
  have hstamped := ((hall s hreach).stamped p hp).connectionId (by simp [hattempt])
  rw [hattempt, hid] at hstamped
  cases hstamped

/-- The engine reports that it is connecting, the user disconnects, and the second coroutine
overtakes the first. -/
def overtakenRun : List Action :=
  List.flatten [connects 0, [.produce .connecting none], disconnects, updates 1 5, updates 0 4,
    [.compare 1, .emit 1, .compare 1, .emit 1]]

/-- The `Connecting` of an attempt is published behind its `Disconnected`. -/
theorem not_faithful_overtaken :
    ¬ ∀ s, Reaches step Always VpnBackend.initial s → Faithful s := by
  intro hall
  obtain ⟨s, hreach, hbad⟩ := exists_reaches_of_run step Always VpnBackend.initial overtakenRun
    (fun s ↦ decide (s.published.map (fun p ↦ (p.record.attempt, p.record.status)) =
      [(some 0, .disconnected), (some 0, .connecting)])) (by decide)
  have hpublished := of_decide_eq_true hbad
  simp only [List.map_eq_cons_iff, List.map_eq_nil_iff, Prod.mk.injEq] at hpublished
  obtain ⟨p, rest, hlist, ⟨hp, hend⟩, q, _, hrest, ⟨hq, hlate⟩, -⟩ := hpublished
  have horder := (hall s hreach).order
  rw [hlist, hrest, List.pairwise_cons] at horder
  exact ((horder.1 q (by simp) (by simp [hp]) (hq.trans hp.symm)).2 hend).1 hlate

/-- While a disconnect is under way the collector handles the DOWN of the engine it stopped and
takes the error; the service publishes a state of its own; the disconnect ends. -/
def doubledRun : List Action :=
  List.flatten [connects 0,
    [.disconnect (some { error := .timeoutError }), .produce .disconnected none], updates 0 5,
    [.compare 1, .emit 1, .setState { status := .disconnected } true, .compare 1, .emit 1],
    [.finish 0], updates 0 4, [.compare 1, .emit 1]]

/-- The `Disconnected` of a disconnect is published without its error. -/
theorem not_faithful_doubled :
    ¬ ∀ s, Reaches step Always VpnBackend.initial s → Faithful s := by
  intro hall
  obtain ⟨s, hreach, hbad⟩ := exists_reaches_of_run step Always VpnBackend.initial doubledRun
    (fun s ↦ s.published.any fun p ↦
      decide (p.record.attempt = some 0 ∧ p.state.status = .disconnected ∧
        p.record.error = some { error := .timeoutError } ∧ p.state.error = none)) (by decide)
  obtain ⟨p, hp, hcheck⟩ := List.any_eq_true.mp hbad
  obtain ⟨hattempt, hstatus, hrecord, hnone⟩ := of_decide_eq_true hcheck
  have herror := ((hall s hreach).stamped p hp).error (by simp [hattempt]) hstatus
  rw [hrecord, hnone] at herror
  cases herror

end WindscribeVpn.Backend.StatePublication
