import WindscribeVpn.Foundations.Runs
import Mathlib.Data.List.Basic

/-!
# Updates that read and write apart

A shared value is changed by operations, each a function of the value. Some are one access
(`Access.atomic`). The others read the value in one access and write what they make of it in a later
one (`Access.begin` and `Access.finish`), so that other operations may come between, and are lost
when the write was computed without them.

The operations are recorded in the order of their writes. A write is `Fresh` when it is the one the
operation would make now. `eq_serial_of_fresh` says that in a run whose writes are all fresh the
value is what the operations give one after the other, each as one access.
-/

set_option autoImplicit false
set_option relaxedAutoImplicit false

namespace WindscribeVpn.Foundations.ReadModifyWrite

open Runs

variable {σ ω : Type*}

/-- An operation that has read the value and not written yet. -/
structure Call (σ ω : Type*) where
  op : ω
  read : σ
  /-- How many operations had written when it read. -/
  seen : ℕ
  deriving DecidableEq, Repr

/-- A shared value. -/
structure Cell (σ ω : Type*) where
  value : σ
  calls : List (Call σ ω)
  /-- The operations that have written, the last one first. -/
  done : List ω
  deriving DecidableEq, Repr

/-- One access to a shared value. -/
inductive Access (ω : Type*)
  | atomic (op : ω)
  | begin (op : ω)
  | finish (i : ℕ)
  deriving DecidableEq, Repr

namespace Cell

/-- A value nothing was done to. -/
def initial (value : σ) : Cell σ ω := ⟨value, [], []⟩

/-- The operations that have written since a call read. -/
def since (c : Cell σ ω) (call : Call σ ω) : List ω := c.done.take (c.done.length - call.seen)

variable (apply : ω → σ → σ)

/-- One access, or nothing when there is no such call. -/
def step (c : Cell σ ω) : Access ω → Option (Cell σ ω)
  | .atomic op => some { c with value := apply op c.value, done := op :: c.done }
  | .begin op => some { c with calls := c.calls ++ [⟨op, c.value, c.done.length⟩] }
  | .finish i =>
    c.calls[i]?.map fun call ↦
      { value := apply call.op call.read
        calls := c.calls.eraseIdx i
        done := call.op :: c.done }

/-- The operations of a record, one after the other. -/
def serial (start : σ) (done : List ω) : σ := done.foldr apply start

/-- The accesses whose write is the one the operation would make now. -/
def Fresh (c : Cell σ ω) : Access ω → Prop
  | .atomic _ | .begin _ => True
  | .finish i => ∀ call ∈ c.calls[i]?, apply call.op call.read = apply call.op c.value

variable {apply} {c : Cell σ ω} {start : σ}

/-- In a run whose writes are fresh, the value is what the operations give one after the other. -/
theorem eq_serial_of_fresh (hreach : Reaches (step apply) (Fresh apply) (initial start) c) :
    c.value = serial apply start c.done := by
  refine hreach.invariant (fun c ↦ c.value = serial apply start c.done) ?_ rfl
  intro access c d hserial hfresh hstep
  cases access with
  | atomic op =>
    obtain rfl := Option.some.inj hstep
    exact congrArg (apply op) hserial
  | begin op =>
    obtain rfl := Option.some.inj hstep
    exact hserial
  | finish i =>
    obtain ⟨call, hcall, rfl⟩ := Option.map_eq_some_iff.mp hstep
    exact (hfresh call hcall).trans (congrArg (apply call.op) hserial)

end Cell

end WindscribeVpn.Foundations.ReadModifyWrite
