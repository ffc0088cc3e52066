import Mathlib.Logic.Basic

/-!
# Programs that may throw

`EStateM ε σ` runs a program on a state: it returns a value or throws, and either way leaves a
state behind, so that what was written before a throw stays written. `wp` is the weakest
precondition of such a program for two postconditions, one for the return and one for the throw.
Each rule below is an equivalence. A program of straight lines, branches and one `try` is therefore
taken apart by rewriting alone, and nothing of its outcome is lost on the way.
-/

set_option autoImplicit false
set_option relaxedAutoImplicit false

namespace WindscribeVpn.Foundations.Programs

variable {ε σ α β : Type}

/-- What holds of a state from which `program` ends in `Q` if it returns and in `E` if it throws. -/
def wp (program : EStateM ε σ α) (Q : α → σ → Prop) (E : ε → σ → Prop) (s : σ) : Prop :=
  match program s with
  | .ok a s' => Q a s'
  | .error e s' => E e s'

/-- A result that is known already, as a program. -/
def attempt (result : Except ε α) : EStateM ε σ α :=
  match result with
  | .ok a => pure a
  | .error e => throw e

/-- A result that follows from another. -/
theorem bind_eq_ok {result : Except ε α} {next : α → Except ε β} {b : β} :
    (result >>= next) = .ok b ↔ ∃ a, result = .ok a ∧ next a = .ok b := by
  cases result with
  | error e =>
    refine iff_of_false (fun hok ↦ by cases hok) ?_
    rintro ⟨a, hok, -⟩
    cases hok
  | ok a =>
    refine ⟨fun hnext ↦ ⟨a, rfl, hnext⟩, ?_⟩
    rintro ⟨_, ⟨⟩, hnext⟩
    exact hnext

section Rules

variable {Q : α → σ → Prop} {E : ε → σ → Prop} {s : σ}

@[simp] theorem wp_pure {a : α} : wp (pure a : EStateM ε σ α) Q E s ↔ Q a s := Iff.rfl

@[simp] theorem wp_throw {e : ε} : wp (throw e : EStateM ε σ α) Q E s ↔ E e s := Iff.rfl

@[simp] theorem wp_modify {R : Unit → σ → Prop} {f : σ → σ} :
    wp (modify f : EStateM ε σ Unit) R E s ↔ R () (f s) := Iff.rfl

@[simp] theorem wp_get {R : σ → σ → Prop} : wp (get : EStateM ε σ σ) R E s ↔ R s s := Iff.rfl

@[simp] theorem wp_attempt {result : Except ε α} :
    wp (attempt result) Q E s ↔
      (∀ a, result = .ok a → Q a s) ∧ ∀ e, result = .error e → E e s := by
  cases result <;> simp [attempt, wp_pure, wp_throw]

/-- A program that is not to throw has its result. -/
theorem wp_attempt_total {result : Except ε α} :
    wp (attempt result) Q (fun _ _ ↦ False) s ↔ ∃ a, result = .ok a ∧ Q a s := by
  cases result <;> simp [attempt, wp_pure, wp_throw]

@[simp] theorem wp_bind {program : EStateM ε σ β} {next : β → EStateM ε σ α} :
    wp (program >>= next) Q E s ↔ wp program (fun b s' ↦ wp (next b) Q E s') E s := by
  simp only [wp, bind, EStateM.bind]
  cases program s <;> rfl

@[simp] theorem wp_map {program : EStateM ε σ β} {f : β → α} :
    wp (f <$> program) Q E s ↔ wp program (fun b s' ↦ Q (f b) s') E s := by
  simp only [wp, Functor.map, EStateM.map]
  cases program s <;> rfl

/-- A handler runs on the state that the throw left. -/
theorem wp_tryCatch {program : EStateM ε σ α} {handler : ε → EStateM ε σ α} :
    wp (tryCatch program handler) Q E s ↔ wp program Q (fun e s' ↦ wp (handler e) Q E s') s := by
  cases hrun : program s with
  | ok a s' =>
    have htry : tryCatch program handler s = .ok a s' := by
      rw [show tryCatch program handler s = EStateM.tryCatch program handler s from rfl]
      delta EStateM.tryCatch
      rw [hrun]
    simp only [wp, htry, hrun]
  | error e s' =>
    have htry : tryCatch program handler s = handler e s' := by
      rw [show tryCatch program handler s = EStateM.tryCatch program handler s from rfl]
      delta EStateM.tryCatch
      rw [hrun]
      rfl
    simp only [wp, htry, hrun]

end Rules

end WindscribeVpn.Foundations.Programs
