import Mathlib.Data.List.Induction
import Mathlib.Logic.Relation
import Mathlib.Tactic.SplitIfs

/-!
# Runs of a partial step function

A concurrent component is described by one function `step : σ → α → Option σ`: the state, the
action one party takes next, and the state after it, or `none` when that party cannot take the
action now. An interleaving is a list of actions, and `run` executes it. The order of the list is
the scheduler's choice, so a statement about every list is a statement about every interleaving.

A restriction on a run is a predicate `admits : σ → α → Prop` on the state before a step and the
action. `Reaches step admits s t` says that `t` is reached from `s` by steps that all meet it, and
`Reaches step Always s t` that it is reached at all. `Reaches.invariant` is the induction every
safety result goes through: a property that one admitted step keeps holds along every admitted run.
`reaches_of_run` turns an executed list of actions into a reachability statement, which is how a
concrete run is exhibited. `countP_le_measure` is the rule for progress: a measure that marked
steps lower bounds their number while something is pending.

Where every action can be taken, a run is a fold of the step function, and `forall_prefix_iff` says
when an invariant holds after each of its prefixes.
-/

set_option autoImplicit false
set_option relaxedAutoImplicit false

namespace WindscribeVpn.Foundations.Runs

variable {σ α : Type*}

/-- Executes a list of actions from left to right, stopping at the first one that cannot be
taken. -/
def run (step : σ → α → Option σ) : σ → List α → Option σ
  | s, [] => some s
  | s, a :: rest => (step s a).bind fun t ↦ run step t rest

/-- The restriction that admits every step. -/
def Always (_ : σ) (_ : α) : Prop := True

instance decidableAlways (s : σ) (a : α) : Decidable (Always s a) :=
  inferInstanceAs (Decidable True)

/-- One step that meets a restriction. -/
def Admitted (step : σ → α → Option σ) (admits : σ → α → Prop) (s t : σ) : Prop :=
  ∃ a, admits s a ∧ step s a = some t

/-- `t` is reached from `s` by steps that all meet a restriction. -/
abbrev Reaches (step : σ → α → Option σ) (admits : σ → α → Prop) : σ → σ → Prop :=
  Relation.ReflTransGen (Admitted step admits)

variable {step : σ → α → Option σ} {admits : σ → α → Prop} {s t u : σ}

@[simp] theorem run_nil (s : σ) : run step s [] = some s := rfl

@[simp] theorem run_cons (s : σ) (a : α) (rest : List α) :
    run step s (a :: rest) = (step s a).bind fun t ↦ run step t rest := rfl

/-- A run of two parts. -/
theorem run_append (s : σ) (first second : List α) :
    run step s (first ++ second) = (run step s first).bind fun t ↦ run step t second := by
  induction first generalizing s with
  | nil => rfl
  | cons a rest ih =>
    rw [List.cons_append, run_cons, run_cons, Option.bind_assoc]
    exact Option.bind_congr fun t _ ↦ ih t

/-- A property kept by every admitted step holds along every admitted run. -/
theorem Reaches.invariant (property : σ → Prop) (hreach : Reaches step admits s t)
    (hstep : ∀ a x y, property x → admits x a → step x a = some y → property y)
    (hstart : property s) : property t := by
  induction hreach with
  | refl => exact hstart
  | tail _ hlast ih =>
    obtain ⟨a, hadmits, hnext⟩ := hlast
    exact hstep a _ _ ih hadmits hnext

/-- A property kept by every admitted step of a reached state holds along every admitted run, so
that one invariant may be proved from another. -/
theorem Reaches.invariant_of_reaches (property : σ → Prop) (hreach : Reaches step admits s t)
    (hstep : ∀ a x y, Reaches step admits s x → property x → admits x a → step x a = some y →
      property y)
    (hstart : property s) : property t := by
  induction hreach with
  | refl => exact hstart
  | tail hbefore hlast ih =>
    obtain ⟨a, hadmits, hnext⟩ := hlast
    exact hstep a _ _ hbefore ih hadmits hnext

/-- A run that meets a restriction meets every weaker one. -/
theorem Reaches.mono {admits' : σ → α → Prop} (hreach : Reaches step admits s t)
    (himp : ∀ x a, admits x a → admits' x a) : Reaches step admits' s t := by
  induction hreach with
  | refl => exact Relation.ReflTransGen.refl
  | tail _ hlast ih =>
    obtain ⟨a, hadmits, hnext⟩ := hlast
    exact ih.tail ⟨a, himp _ a hadmits, hnext⟩

/-- A run is seen through a map as a run, when each of its steps is seen as an admitted step or not
at all. -/
theorem Reaches.simulate {τ β : Type*} {step' : τ → β → Option τ} {admits' : τ → β → Prop}
    (view : σ → τ) (hreach : Reaches step admits s t)
    (hstep : ∀ a x y, admits x a → step x a = some y →
      view y = view x ∨ Admitted step' admits' (view x) (view y)) :
    Reaches step' admits' (view s) (view t) := by
  induction hreach with
  | refl => exact Relation.ReflTransGen.refl
  | tail _ hlast ih =>
    obtain ⟨a, hadmits, hnext⟩ := hlast
    rcases hstep a _ _ hadmits hnext with hsame | hseen
    · rw [hsame]
      exact ih
    · exact ih.tail hseen

/-- The step function cut down to the actions that meet a decidable restriction. -/
def guarded (step : σ → α → Option σ) (admits : σ → α → Prop) [∀ s a, Decidable (admits s a)]
    (s : σ) (a : α) : Option σ :=
  if admits s a then step s a else none

/-- An executed list of admitted actions is an admitted run. -/
theorem reaches_of_run [∀ s a, Decidable (admits s a)] (actions : List α)
    (hrun : run (guarded step admits) s actions = some t) : Reaches step admits s t := by
  induction actions generalizing s with
  | nil =>
    rw [run_nil, Option.some.injEq] at hrun
    exact hrun ▸ Relation.ReflTransGen.refl
  | cons a rest ih =>
    rw [run_cons, Option.bind_eq_some_iff] at hrun
    obtain ⟨next, hnext, hrest⟩ := hrun
    unfold guarded at hnext
    split_ifs at hnext with hadmits
    exact Relation.ReflTransGen.head ⟨a, hadmits, hnext⟩ (ih hrest)

/-- An executed list of actions is a run. -/
theorem reaches_always_of_run {actions : List α} (hrun : run step s actions = some t) :
    Reaches step Always s t := by
  refine reaches_of_run actions ?_
  have hguarded : guarded step Always = step := by
    funext x a
    exact if_pos trivial
  rw [hguarded]
  exact hrun

/-- An executed list of actions whose last state passes a check exhibits a reached state that
passes it. -/
theorem exists_reaches_of_run (step : σ → α → Option σ) (admits : σ → α → Prop)
    [∀ s a, Decidable (admits s a)] (s : σ) (actions : List α) (check : σ → Bool)
    (hrun : (run (guarded step admits) s actions).any check = true) :
    ∃ t, Reaches step admits s t ∧ check t = true := by
  obtain ⟨t, hlast, hcheck⟩ := (Option.any_eq_true _ _).mp hrun
  exact ⟨t, reaches_of_run actions hlast, hcheck⟩

/-- Where no step raises the measure of what is pending and each marked step lowers it, a run in
which something stays pending has no more marked steps than the measure at its start. -/
theorem countP_le_measure (invariant pending : σ → Prop) (measure : σ → ℕ) (marked : α → Bool)
    (hinv : ∀ a x y, invariant x → step x a = some y → invariant y)
    (hback : ∀ a x y, invariant x → step x a = some y → pending y → pending x)
    (hmeasure : ∀ a x y, invariant x → step x a = some y → pending y →
      measure y + (if marked a then 1 else 0) ≤ measure x)
    {actions : List α} (hrun : run step s actions = some t) (hstart : invariant s)
    (hpending : pending t) : pending s ∧ actions.countP marked + measure t ≤ measure s := by
  induction actions generalizing s with
  | nil =>
    rw [run_nil, Option.some.injEq] at hrun
    subst hrun
    exact ⟨hpending, by simp⟩
  | cons a rest ih =>
    rw [run_cons, Option.bind_eq_some_iff] at hrun
    obtain ⟨next, hnext, hrest⟩ := hrun
    obtain ⟨hnextPending, hcount⟩ := ih hrest (hinv a s next hstart hnext)
    have hlast := hmeasure a s next hstart hnext hnextPending
    refine ⟨hback a s next hstart hnext hnextPending, ?_⟩
    rw [List.countP_cons]
    omega

/-! ### Total steps -/

/-- Where a condition says exactly which steps keep an invariant, the invariant holds after every
prefix of a run exactly when every step of the run meets the condition. -/
theorem forall_prefix_iff {next : σ → α → σ} {invariant : σ → Prop} {meets : σ → α → Prop}
    (hexact : ∀ s a, invariant s → (invariant (next s a) ↔ meets s a)) (hstart : invariant s)
    (actions : List α) :
    (∀ past, past <+: actions → invariant (past.foldl next s)) ↔
      ∀ past a, past ++ [a] <+: actions → meets (past.foldl next s) a := by
  constructor
  · intro hinv past a hprefix
    have hbefore := hinv past ((List.prefix_append past [a]).trans hprefix)
    have hafter := hinv _ hprefix
    rw [List.foldl_append] at hafter
    exact (hexact _ a hbefore).mp hafter
  · intro hmeets past hprefix
    induction past using List.reverseRecOn with
    | nil => exact hstart
    | append_singleton past a ih =>
      rw [List.foldl_append]
      exact (hexact _ a (ih ((List.prefix_append past [a]).trans hprefix))).mpr
        (hmeets past a hprefix)

end WindscribeVpn.Foundations.Runs
