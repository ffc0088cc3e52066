import WindscribeVpn.Backend.VPNState
import Mathlib.Data.List.Basic
import Mathlib.Tactic.SplitIfs

/-!
# The published state and one of its collectors

`_events` of `VPNConnectionStateManager.kt` keeps the latest state only, and `VPNState` compares by
identity: a collector that is busy misses what is published in between, and every state that is
emitted is another value for it. `setState` launches a coroutine, which compares its state with the
published one and emits it unless the two look the same. The coroutines run in any order.

`pending` are the states on their way. `compare_cases` and `publish_cases` say what a coroutine does
to them.
-/

set_option autoImplicit false
set_option relaxedAutoImplicit false

namespace WindscribeVpn.Backend

/-- A coroutine of `setState`. `compared` says that its state differs from the one it was compared
with. -/
structure Emission where
  state : VPNState
  force : Bool
  compared : Bool
  deriving DecidableEq, Repr

/-- The published state, with the coroutines of `setState` that have not ended. `taken` says that
the collector has taken the state. -/
structure PublishedState where
  value : VPNState
  taken : Bool
  emissions : List Emission
  deriving DecidableEq, Repr

namespace PublishedState

/-- A state that is published, before the collector begins. -/
def initial (value : VPNState) : PublishedState where
  value := value
  taken := false
  emissions := []

variable (flow : PublishedState)

/-- The states on their way. -/
def pending : List VPNState := flow.emissions.map Emission.state

/-- `setState`, up to its coroutine. -/
def setState (state : VPNState) (force : Bool) : PublishedState :=
  { flow with emissions := flow.emissions ++ [{ state, force, compared := false }] }

/-- The collector takes the published state. -/
def take : PublishedState := { flow with taken := true }

/-- A coroutine compares its state with the published one, and ends when the two look the same. -/
def compare (i : ℕ) : Option PublishedState :=
  (flow.emissions[i]?).map fun emission ↦
    if emission.state.supersedes flow.value emission.force then
      { flow with emissions := flow.emissions.set i { emission with compared := true } }
    else { flow with emissions := flow.emissions.eraseIdx i }

/-- A coroutine emits its state. -/
def publish (i : ℕ) : Option PublishedState :=
  (flow.emissions[i]?).bind fun emission ↦
    if emission.compared then
      some { value := emission.state, taken := false, emissions := flow.emissions.eraseIdx i }
    else none

variable {flow} {after : PublishedState} {i : ℕ} {emission : Emission} {state : VPNState}

@[simp] theorem pending_setState (state : VPNState) (force : Bool) :
    (flow.setState state force).pending = flow.pending ++ [state] := List.map_append

@[simp] theorem pending_take : flow.take.pending = flow.pending := rfl

/-- The state of a coroutine is on its way. -/
theorem mem_pending (hemission : flow.emissions[i]? = some emission) :
    emission.state ∈ flow.pending :=
  List.mem_map_of_mem (List.mem_of_getElem? hemission)

/-- What is left when a coroutine ends was there before. -/
theorem mem_pending_of_eraseIdx
    (hstate : state ∈ (flow.emissions.eraseIdx i).map Emission.state) : state ∈ flow.pending := by
  obtain ⟨left, hleft, rfl⟩ := List.mem_map.mp hstate
  exact List.mem_map_of_mem (List.mem_of_mem_eraseIdx hleft)

/-- A state other than that of the coroutine that ends is left. -/
theorem mem_pending_eraseIdx (hemission : flow.emissions[i]? = some emission)
    (hstate : state ∈ flow.pending) (hne : state ≠ emission.state) :
    state ∈ (flow.emissions.eraseIdx i).map Emission.state := by
  obtain ⟨other, hother, rfl⟩ := List.mem_map.mp hstate
  obtain ⟨j, hj⟩ := List.mem_iff_getElem?.mp hother
  refine List.mem_map_of_mem (List.mem_eraseIdx_iff_getElem?.mpr ⟨j, ?_, hj⟩)
  rintro rfl
  rw [hemission, Option.some.injEq] at hj
  exact hne (by rw [hj])

/-- The mark of a coroutine that goes on leaves what is on its way. -/
theorem map_state_set_compared (hemission : flow.emissions[i]? = some emission) :
    (flow.emissions.set i { emission with compared := true }).map Emission.state =
      flow.pending := by
  obtain ⟨hlt, rfl⟩ := List.getElem?_eq_some_iff.mp hemission
  have hlt' : i < (flow.emissions.map Emission.state).length := by rwa [List.length_map]
  calc (flow.emissions.set i { flow.emissions[i] with compared := true }).map Emission.state
      = (flow.emissions.map Emission.state).set i (flow.emissions.map Emission.state)[i] := by
        rw [List.map_set, List.getElem_map]
    _ = flow.pending := List.set_getElem_self hlt'

/-- A coroutine that compares its state goes on, or ends with one that looks like the published
one. -/
theorem compare_cases (hcompare : flow.compare i = some after) :
    (after.value = flow.value ∧ after.taken = flow.taken ∧ after.pending = flow.pending) ∨
      ∃ emission, flow.emissions[i]? = some emission ∧ emission.state.key = flow.value.key ∧
        after = { flow with emissions := flow.emissions.eraseIdx i } := by
  obtain ⟨emission, hemission, rfl⟩ := Option.map_eq_some_iff.mp hcompare
  split_ifs with hsupersedes
  · exact Or.inl ⟨rfl, rfl, map_state_set_compared hemission⟩
  · rw [VPNState.supersedes, Bool.or_eq_true, not_or, decide_eq_true_eq, not_not] at hsupersedes
    exact Or.inr ⟨emission, hemission, hsupersedes.1, rfl⟩

/-- A coroutine that emits publishes its state, and ends. -/
theorem publish_cases (hpublish : flow.publish i = some after) :
    ∃ emission, flow.emissions[i]? = some emission ∧ after =
      { value := emission.state, taken := false, emissions := flow.emissions.eraseIdx i } := by
  obtain ⟨emission, hemission, hemit⟩ := Option.bind_eq_some_iff.mp hpublish
  obtain ⟨-, ⟨⟩⟩ := Option.ite_none_right_eq_some.mp hemit
  exact ⟨emission, hemission, rfl⟩

/-- The only coroutine. -/
theorem emissions_eq_singleton (hemission : flow.emissions[i]? = some emission)
    (hlength : flow.emissions.length = 1) : flow.emissions = [emission] ∧ i = 0 := by
  obtain ⟨only, honly⟩ := List.length_eq_one_iff.mp hlength
  rw [honly] at hemission ⊢
  obtain ⟨hlt, hget⟩ := List.getElem?_eq_some_iff.mp hemission
  obtain rfl : i = 0 := Nat.lt_one_iff.mp hlt
  exact ⟨congrArg (fun e ↦ [e]) hget, rfl⟩

end PublishedState

end WindscribeVpn.Backend
