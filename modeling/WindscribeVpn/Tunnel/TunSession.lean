import WindscribeVpn.Tunnel.TunnelManager
import Mathlib.Data.List.Nodup
import Mathlib.Tactic.SplitIfs

/-!
# The session invariant

What the results about `TunnelManager` rest on. `Ledger` accounts for the descriptors of the hosts:
each is live, superseded or closed, and none is two of these. `Link` ties the manager to the host it
is attached to, with the operation in the monitor taken into account: which generations it has been
told of, which notifications are still under way, and which descriptor the mux is on. `Session` is
the two together.

`ManagerMove` says once what a step can do, guards included. `session_step` proves from it that
every step keeps `Session`, one lemma for each kind of step, as long as a host is attached only
while there is no mux, and `session_initial` that a process starts in it.
`SameSession` relates two states that differ in nothing the invariant reads, which is how the steps
of the watchdog and of the environment are dealt with.
-/

set_option autoImplicit false
set_option relaxedAutoImplicit false

namespace WindscribeVpn.Tunnel.TunnelManager

open Foundations.Runs

/-! ### The descriptors -/

/-- Every descriptor is accounted for once: it is the live one of its host, or one its host has
superseded and not yet closed, or it has been closed. -/
structure Ledger (s : Manager) : Prop where
  live_owner : ∀ h g, (s.hosts h).liveTun = some g → s.owner g = some h
  live_max : ∀ h g, (s.hosts h).liveTun = some g → ∀ g', s.owner g' = some h → g' ≤ g
  live_open : ∀ h g, (s.hosts h).liveTun = some g → g ∉ s.closed
  live_current : ∀ h g, (s.hosts h).liveTun = some g → ∀ k, (k, g) ∉ (s.hosts h).superseded
  superseded_owner : ∀ h k p, (k, p) ∈ (s.hosts h).superseded →
    s.owner p = some h ∧ s.owner k = some h
  superseded_lt : ∀ h k p, (k, p) ∈ (s.hosts h).superseded → p < k
  superseded_open : ∀ h k p, (k, p) ∈ (s.hosts h).superseded → p ∉ s.closed
  superseded_nodup : ∀ h, ((s.hosts h).superseded.map Prod.snd).Nodup
  closed_nodup : s.closed.Nodup
  closed_le : ∀ g ∈ s.closed, g ≤ s.generations
  owner_le : ∀ g h, s.owner g = some h → g ≤ s.generations
  covered : ∀ g h, s.owner g = some h → g ∈ s.closed ∨ (s.hosts h).liveTun = some g ∨
    ∃ k, (k, g) ∈ (s.hosts h).superseded

/-- Two states with the same descriptors. -/
structure SameTuns (s s' : Manager) : Prop where
  live : ∀ h, (s'.hosts h).liveTun = (s.hosts h).liveTun
  superseded : ∀ h, (s'.hosts h).superseded = (s.hosts h).superseded
  closed : s'.closed = s.closed
  owner : s'.owner = s.owner
  generations : s'.generations = s.generations

/-- A step that writes none of the descriptors. -/
theorem SameTuns.of_eq {s s' : Manager} (htuns : (s'.hosts, s'.closed, s'.owner, s'.generations) =
    (s.hosts, s.closed, s.owner, s.generations)) : SameTuns s s' := by
  simp only [Prod.mk.injEq] at htuns
  obtain ⟨hhosts, hclosed, howner, hgenerations⟩ := htuns
  exact ⟨fun k ↦ by rw [hhosts], fun k ↦ by rw [hhosts], hclosed, howner, hgenerations⟩

theorem SameTuns.refl (s : Manager) : SameTuns s s := .of_eq rfl

theorem SameTuns.trans {s t u : Manager} (h : SameTuns s t) (h' : SameTuns t u) : SameTuns s u :=
  ⟨fun k ↦ (h'.live k).trans (h.live k), fun k ↦ (h'.superseded k).trans (h.superseded k),
    h'.closed.trans h.closed, h'.owner.trans h.owner, h'.generations.trans h.generations⟩

theorem Ledger.congr {s s' : Manager} (h : Ledger s) (hsame : SameTuns s s') : Ledger s' where
  live_owner := by simpa only [hsame.live, hsame.owner] using h.live_owner
  live_max := by simpa only [hsame.live, hsame.owner] using h.live_max
  live_open := by simpa only [hsame.live, hsame.closed] using h.live_open
  live_current := by simpa only [hsame.live, hsame.superseded] using h.live_current
  superseded_owner := by simpa only [hsame.superseded, hsame.owner] using h.superseded_owner
  superseded_lt := by simpa only [hsame.superseded] using h.superseded_lt
  superseded_open := by simpa only [hsame.superseded, hsame.closed] using h.superseded_open
  superseded_nodup := by simpa only [hsame.superseded] using h.superseded_nodup
  closed_nodup := by rw [hsame.closed]; exact h.closed_nodup
  closed_le := by rw [hsame.closed, hsame.generations]; exact h.closed_le
  owner_le := by rw [hsame.owner, hsame.generations]; exact h.owner_le
  covered := by
    simpa only [hsame.owner, hsame.closed, hsame.live, hsame.superseded] using h.covered

section Establish

variable (s : Manager) (k h : HostId) (g p : ℕ)

@[simp, grind =] theorem establish_generations :
    (s.establish k).generations = s.generations + 1 := rfl

@[simp, grind =] theorem establish_closed : (s.establish k).closed = s.closed := rfl

@[grind =] theorem establish_owner :
    (s.establish k).owner g = if g = s.generations + 1 then some k else s.owner g := by
  simp only [Manager.establish, Function.update_apply]

@[grind =] theorem establish_live :
    ((s.establish k).hosts h).liveTun =
      if h = k then some (s.generations + 1) else (s.hosts h).liveTun := by
  simp only [Manager.establish, Function.update_apply]
  split_ifs <;> rfl

@[simp, grind =] theorem establish_listening :
    ((s.establish k).hosts h).listening = (s.hosts h).listening := by
  simp only [Manager.establish, Function.update_apply]
  split_ifs with hk
  · rw [hk]
  · rfl

@[grind =] theorem mem_establish_superseded :
    (g, p) ∈ ((s.establish k).hosts h).superseded ↔
      h = k ∧ g = s.generations + 1 ∧ (s.hosts k).liveTun = some p ∨
        (g, p) ∈ (s.hosts h).superseded := by
  simp only [Manager.establish, Function.update_apply]
  split_ifs with hk
  · subst hk
    simp only [List.mem_append, Option.mem_toList, Option.map_eq_some_iff, Prod.mk.injEq, true_and]
    constructor
    · rintro (⟨previous, hlive, rfl, rfl⟩ | hold)
      · exact Or.inl ⟨rfl, hlive⟩
      · exact Or.inr hold
    · rintro (⟨rfl, hlive⟩ | hold)
      · exact Or.inl ⟨p, hlive, rfl, rfl⟩
      · exact Or.inr hold
  · simp [hk]

end Establish

/-- The superseded descriptors after a TUN is established. -/
theorem establish_superseded_nodup {s : Manager} (h : Ledger s) (k h' : HostId) :
    (((s.establish k).hosts h').superseded.map Prod.snd).Nodup := by
  have hold := h.superseded_nodup h'
  simp only [Manager.establish, Function.update_apply]
  split_ifs with hk
  · subst hk
    cases hlive : (s.hosts h').liveTun with
    | none => simpa using hold
    | some previous =>
      simp only [Option.map_some, Option.toList_some, List.cons_append, List.nil_append,
        List.map_cons, List.nodup_cons]
      refine ⟨fun hmem ↦ ?_, hold⟩
      obtain ⟨⟨key, value⟩, hentry, rfl⟩ := List.mem_map.mp hmem
      exact h.live_current h' _ hlive key hentry
  · exact hold

/-- What is live after a TUN is established: the new one, or the one of another host. -/
theorem establish_live_cases {s : Manager} {k h : HostId} {g : ℕ}
    (hlive : ((s.establish k).hosts h).liveTun = some g) :
    h = k ∧ g = s.generations + 1 ∨ h ≠ k ∧ (s.hosts h).liveTun = some g := by
  rw [establish_live] at hlive
  split_ifs at hlive with hk
  · exact Or.inl ⟨hk, (Option.some.inj hlive).symm⟩
  · exact Or.inr ⟨hk, hlive⟩

/-- Establishing a TUN keeps every descriptor accounted for. -/
theorem ledger_establish {s : Manager} (h : Ledger s) (k : HostId) : Ledger (s.establish k) := by
  have hnew : ∀ h', s.owner (s.generations + 1) ≠ some h' := by
    intro h' howner
    have hle := h.owner_le _ _ howner
    omega
  have howned : ∀ g h', s.owner g = some h' → (s.establish k).owner g = some h' := by
    intro g h' howner
    rw [establish_owner, if_neg]
    · exact howner
    · rintro rfl
      exact hnew h' howner
  constructor
  case live_owner =>
    intro h' g hlive
    rcases establish_live_cases hlive with ⟨rfl, rfl⟩ | ⟨-, hold⟩
    · rw [establish_owner, if_pos rfl]
    · exact howned g h' (h.live_owner h' g hold)
  case live_max =>
    intro h' g hlive g' howner
    rw [establish_owner] at howner
    rcases establish_live_cases hlive with ⟨rfl, rfl⟩ | ⟨hk, hold⟩
    · split_ifs at howner with hg
      · exact Nat.le_of_eq hg
      · exact Nat.le_succ_of_le (h.owner_le g' h' howner)
    · split_ifs at howner with hg
      · exact absurd (Option.some.inj howner).symm hk
      · exact h.live_max h' g hold g' howner
  case live_open =>
    intro h' g hlive hclosed
    rcases establish_live_cases hlive with ⟨rfl, rfl⟩ | ⟨-, hold⟩
    · have hle := h.closed_le _ hclosed
      omega
    · exact h.live_open h' g hold hclosed
  case live_current =>
    intro h' g hlive key hentry
    rcases (mem_establish_superseded s k h' key g).mp hentry with ⟨rfl, -, hprevious⟩ | hsuperseded
    · rcases establish_live_cases hlive with ⟨-, rfl⟩ | ⟨hk, -⟩
      · exact hnew h' (h.live_owner h' _ hprevious)
      · exact hk rfl
    · rcases establish_live_cases hlive with ⟨-, rfl⟩ | ⟨-, hold⟩
      · exact hnew h' (h.superseded_owner h' key _ hsuperseded).1
      · exact h.live_current h' g hold key hsuperseded
  case superseded_nodup => exact establish_superseded_nodup h k
  case closed_nodup => exact h.closed_nodup
  case closed_le => exact fun g hclosed ↦ Nat.le_succ_of_le (h.closed_le g hclosed)
  case superseded_owner =>
    intro h' key p hentry
    rcases (mem_establish_superseded s k h' key p).mp hentry with ⟨rfl, rfl, hlive⟩ | hold
    · refine ⟨howned p h' (h.live_owner h' p hlive), ?_⟩
      rw [establish_owner, if_pos rfl]
    · obtain ⟨hprevious, hcurrent⟩ := h.superseded_owner h' key p hold
      exact ⟨howned p h' hprevious, howned key h' hcurrent⟩
  case superseded_lt =>
    intro h' key p hentry
    rcases (mem_establish_superseded s k h' key p).mp hentry with ⟨rfl, rfl, hlive⟩ | hold
    · exact Nat.lt_succ_of_le (h.owner_le p h' (h.live_owner h' p hlive))
    · exact h.superseded_lt h' key p hold
  case superseded_open =>
    intro h' key p hentry
    rcases (mem_establish_superseded s k h' key p).mp hentry with ⟨rfl, -, hlive⟩ | hold
    · exact h.live_open h' p hlive
    · exact h.superseded_open h' key p hold
  case owner_le =>
    intro g h' howner
    rw [establish_owner] at howner
    split_ifs at howner with hg
    · exact Nat.le_of_eq hg
    · exact Nat.le_succ_of_le (h.owner_le g h' howner)
  case covered =>
    intro g h' howner
    rw [establish_owner] at howner
    split_ifs at howner with hg
    · obtain rfl := Option.some.inj howner
      rw [establish_live]
      exact Or.inr (Or.inl (by simp [hg]))
    · rcases h.covered g h' howner with hgone | hlive | ⟨key, hentry⟩
      · exact Or.inl hgone
      · by_cases hk : h' = k
        · subst hk
          exact Or.inr (Or.inr ⟨_, (mem_establish_superseded s h' h' _ _).mpr
            (Or.inl ⟨rfl, rfl, hlive⟩)⟩)
        · refine Or.inr (Or.inl ?_)
          rw [establish_live, if_neg hk]
          exact hlive
      · exact Or.inr (Or.inr ⟨key, (mem_establish_superseded s k h' _ _).mpr (Or.inr hentry)⟩)

section ReleasePrevious

variable (s : Manager) (k h : HostId) (generation g p : ℕ)

@[simp, grind =] theorem releasePrevious_generations :
    (s.releasePreviousTun k generation).generations = s.generations := rfl

@[simp, grind =] theorem releasePrevious_owner :
    (s.releasePreviousTun k generation).owner = s.owner := rfl

@[simp, grind =] theorem releasePrevious_live :
    ((s.releasePreviousTun k generation).hosts h).liveTun = (s.hosts h).liveTun := by
  simp only [Manager.releasePreviousTun, Function.update_apply]
  split_ifs with hk
  · rw [hk]
  · rfl

@[simp, grind =] theorem releasePrevious_listening :
    ((s.releasePreviousTun k generation).hosts h).listening = (s.hosts h).listening := by
  simp only [Manager.releasePreviousTun, Function.update_apply]
  split_ifs with hk
  · rw [hk]
  · rfl

@[grind =] theorem mem_releasePrevious_superseded :
    (g, p) ∈ ((s.releasePreviousTun k generation).hosts h).superseded ↔
      (g, p) ∈ (s.hosts h).superseded ∧ (h = k → g ≠ generation) := by
  simp only [Manager.releasePreviousTun, Function.update_apply]
  split_ifs with hk
  · subst hk
    simp
  · simp [hk]

@[grind =] theorem mem_releasePrevious_closed :
    g ∈ (s.releasePreviousTun k generation).closed ↔
      (generation, g) ∈ (s.hosts k).superseded ∨ g ∈ s.closed := by
  simp only [Manager.releasePreviousTun, List.mem_append, List.mem_map, List.mem_filter,
    decide_eq_true_eq]
  constructor
  · rintro (⟨⟨key, value⟩, ⟨hentry, rfl⟩, rfl⟩ | hold)
    · exact Or.inl hentry
    · exact Or.inr hold
  · rintro (hentry | hold)
    · exact Or.inl ⟨_, ⟨hentry, rfl⟩, rfl⟩
    · exact Or.inr hold

end ReleasePrevious

/-- `releasePreviousTun` keeps every descriptor accounted for. -/
theorem ledger_releasePrevious {s : Manager} (h : Ledger s) (k : HostId) (generation : ℕ) :
    Ledger (s.releasePreviousTun k generation) := by
  have hclosed : (s.releasePreviousTun k generation).closed.Nodup := by
    refine List.Nodup.append ?_ h.closed_nodup ?_
    · exact (h.superseded_nodup k).sublist (List.filter_sublist.map _)
    · intro g hentry hgone
      obtain ⟨⟨key, value⟩, hfilter, rfl⟩ := List.mem_map.mp hentry
      exact h.superseded_open k key value (List.mem_filter.mp hfilter).1 hgone
  have hnodup : ∀ h', (((s.releasePreviousTun k generation).hosts h').superseded.map
      Prod.snd).Nodup := by
    intro h'
    simp only [Manager.releasePreviousTun, Function.update_apply]
    split_ifs with hk
    · exact (h.superseded_nodup k).sublist (List.filter_sublist.map _)
    · exact h.superseded_nodup h'
  have hinj : ∀ h' key key' value, (key, value) ∈ (s.hosts h').superseded →
      (key', value) ∈ (s.hosts h').superseded → key = key' := by
    intro h' key key' value hentry hentry'
    exact (Prod.mk.inj (List.inj_on_of_nodup_map (h.superseded_nodup h') hentry hentry' rfl)).1
  obtain ⟨hlo, hlm, hlp, hlc, hso, hsl, hsp, -, -, hcl, hol, hcov⟩ := h
  constructor
  case superseded_nodup => exact hnodup
  case closed_nodup => exact hclosed
  case live_max =>
    intro h' g hlive g' howner
    rw [releasePrevious_live] at hlive
    exact hlm h' g hlive g' howner
  case covered =>
    intro g h' howner
    rcases hcov g h' howner with hgone | hlive | ⟨key, hentry⟩
    · exact Or.inl ((mem_releasePrevious_closed s k generation g).mpr (Or.inr hgone))
    · exact Or.inr (Or.inl (by rw [releasePrevious_live]; exact hlive))
    · by_cases hkey : h' = k ∧ key = generation
      · obtain ⟨rfl, rfl⟩ := hkey
        exact Or.inl ((mem_releasePrevious_closed s h' key g).mpr (Or.inl hentry))
      · refine Or.inr (Or.inr ⟨key, (mem_releasePrevious_superseded s k h' generation key g).mpr
          ⟨hentry, fun hk hkey' ↦ hkey ⟨hk, hkey'⟩⟩⟩)
  all_goals grind

section ReleaseTun

variable (s : Manager) (k h : HostId) (g p : ℕ)

@[simp, grind =] theorem releaseTun_generations :
    (s.releaseTun k).generations = s.generations := rfl

@[simp, grind =] theorem releaseTun_owner : (s.releaseTun k).owner = s.owner := rfl

@[grind =] theorem releaseTun_live :
    ((s.releaseTun k).hosts h).liveTun = if h = k then none else (s.hosts h).liveTun := by
  simp only [Manager.releaseTun, Function.update_apply]
  split_ifs <;> rfl

@[simp, grind =] theorem releaseTun_listening :
    ((s.releaseTun k).hosts h).listening = (s.hosts h).listening := by
  simp only [Manager.releaseTun, Function.update_apply]
  split_ifs with hk
  · rw [hk]
  · rfl

@[grind =] theorem mem_releaseTun_superseded :
    (g, p) ∈ ((s.releaseTun k).hosts h).superseded ↔
      (g, p) ∈ (s.hosts h).superseded ∧ h ≠ k := by
  simp only [Manager.releaseTun, Function.update_apply]
  split_ifs with hk
  · simp [hk]
  · simp [hk]

@[grind =] theorem mem_releaseTun_closed :
    g ∈ (s.releaseTun k).closed ↔
      (∃ key, (key, g) ∈ (s.hosts k).superseded) ∨ (s.hosts k).liveTun = some g ∨
        g ∈ s.closed := by
  simp only [Manager.releaseTun, List.mem_append, List.mem_map, Option.mem_toList, or_assoc]
  constructor
  · rintro (⟨⟨key, value⟩, hentry, rfl⟩ | hrest)
    · exact Or.inl ⟨key, hentry⟩
    · exact Or.inr hrest
  · rintro (⟨key, hentry⟩ | hrest)
    · exact Or.inl ⟨_, hentry, rfl⟩
    · exact Or.inr hrest

end ReleaseTun

/-- `releaseTun` keeps every descriptor accounted for. -/
theorem ledger_releaseTun {s : Manager} (h : Ledger s) (k : HostId) : Ledger (s.releaseTun k) := by
  have hclosed : (s.releaseTun k).closed.Nodup := by
    refine List.Nodup.append (List.Nodup.append (h.superseded_nodup k) ?_ ?_) h.closed_nodup ?_
    · cases (s.hosts k).liveTun <;> simp
    · intro g hentry hlive
      obtain ⟨⟨key, value⟩, hmem, rfl⟩ := List.mem_map.mp hentry
      exact h.live_current k value (Option.mem_toList.mp hlive) key hmem
    · intro g hheld hgone
      rcases List.mem_append.mp hheld with hentry | hlive
      · obtain ⟨⟨key, value⟩, hmem, rfl⟩ := List.mem_map.mp hentry
        exact h.superseded_open k key value hmem hgone
      · exact h.live_open k g (Option.mem_toList.mp hlive) hgone
  have hnodup : ∀ h', (((s.releaseTun k).hosts h').superseded.map Prod.snd).Nodup := by
    intro h'
    simp only [Manager.releaseTun, Function.update_apply]
    split_ifs with hk
    · exact List.nodup_nil
    · exact h.superseded_nodup h'
  obtain ⟨hlo, hlm, hlp, hlc, hso, hsl, hsp, -, -, hcl, hol, hcov⟩ := h
  constructor
  case superseded_nodup => exact hnodup
  case closed_nodup => exact hclosed
  case live_max =>
    intro h' g hlive g' howner
    rw [releaseTun_live] at hlive
    split_ifs at hlive
    exact hlm h' g hlive g' howner
  case covered =>
    intro g h' howner
    by_cases hk : h' = k
    · subst hk
      refine Or.inl ((mem_releaseTun_closed s h' g).mpr ?_)
      rcases hcov g h' howner with hgone | hlive | hentry
      · exact Or.inr (Or.inr hgone)
      · exact Or.inr (Or.inl hlive)
      · exact Or.inl hentry
    · rcases hcov g h' howner with hgone | hlive | ⟨key, hentry⟩
      · exact Or.inl ((mem_releaseTun_closed s k g).mpr (Or.inr (Or.inr hgone)))
      · exact Or.inr (Or.inl (by rw [releaseTun_live, if_neg hk]; exact hlive))
      · exact Or.inr (Or.inr ⟨key, (mem_releaseTun_superseded s k h' key g).mpr ⟨hentry, hk⟩⟩)
  all_goals grind

/-! ### The packet path against the descriptors -/

/-- A notification of this generation is still to reach the manager. -/
def Underway (s : Manager) (h : HostId) (g : ℕ) : Prop :=
  (∃ n ∈ s.inFlight, n.host = h ∧ n.tun = g) ∨ ∃ r, s.op = .notifying r g ∧ s.host = some h

/-- The oldest generation the packet path can be on or move onto: that of the mux, or that of the
TUN the thread in the monitor is about to start a mux on. -/
def Floor (s : Manager) (f : ℕ) : Prop :=
  s.mux.isSome = true ∧ f = s.appliedGeneration ∨
    (∃ r, s.op = .notifying r f) ∨ ∃ r, s.op = .starting r f

/-- The thread in the monitor is on its way to a new mux. -/
def Op.raising : Op → Bool
  | .requesting (.first _) | .requesting .blocking | .notifying (.first _) _
  | .notifying .blocking _ | .starting _ _ => true
  | _ => false

/-- The invariant of the replacement protocol. Whoever still holds a superseded descriptor has a
notification under way that will close it; from the floor on no descriptor of the attached host is
closed; and the live TUN is the floor itself or is under way. -/
structure Link (s : Manager) : Prop where
  mux_host : s.mux.isSome = true → s.host.isSome = true
  mux_tun : ∀ m, s.mux = some m → m.tun = s.appliedGeneration ∧ m.running = true
  mux_up : s.mux.isSome = true → s.tunnelUp = true
  raising : s.op.raising = true → s.mux = none
  op_host : s.op ≠ .idle → s.host.isSome = true
  starting : ∀ r g, s.op = .starting r g → g = s.appliedGeneration ∧ s.tunnelUp = true
  applied_le : s.appliedGeneration ≤ s.generations
  listening : ∀ h, s.host = some h → (s.hosts h).listening = true
  flight_owner : ∀ n ∈ s.inFlight, s.owner n.tun = some n.host
  flight_nodup : (s.inFlight.map Notification.tun).Nodup
  notifying : ∀ r g h, s.op = .notifying r g → s.host = some h →
    s.appliedGeneration < g ∧ s.owner g = some h ∧ ∀ n ∈ s.inFlight, n.tun ≠ g
  keys : ∀ h k p, (k, p) ∈ (s.hosts h).superseded → Underway s h k
  open_from : ∀ h f, s.host = some h → Floor s f → ∀ g, s.owner g = some h → f ≤ g → g ∉ s.closed
  live_from : ∀ h f, s.host = some h → Floor s f →
    s.owner f = some h ∧ ∃ live, (s.hosts h).liveTun = some live ∧ f ≤ live ∧
      (live = f ∨ Underway s h live)

/-- Two states that differ in nothing the protocol is about, except where the thread in the monitor
is. -/
structure SameSession (s s' : Manager) : Prop extends SameTuns s s' where
  listening : ∀ h, (s'.hosts h).listening = (s.hosts h).listening
  host : s'.host = s.host
  mux : s'.mux = s.mux
  up : s'.tunnelUp = s.tunnelUp
  applied : s'.appliedGeneration = s.appliedGeneration
  inFlight : s'.inFlight = s.inFlight

/-- A step that writes nothing the invariant reads. -/
theorem sameSession_of_eq {s s' : Manager}
    (htuns : (s'.hosts, s'.closed, s'.owner, s'.generations) =
      (s.hosts, s.closed, s.owner, s.generations))
    (hsession : (s'.host, s'.mux, s'.tunnelUp, s'.appliedGeneration, s'.inFlight) =
      (s.host, s.mux, s.tunnelUp, s.appliedGeneration, s.inFlight)) : SameSession s s' := by
  have hhosts : s'.hosts = s.hosts := congrArg Prod.fst htuns
  simp only [Prod.mk.injEq] at hsession
  obtain ⟨hhost, hmux, hup, happlied, hflight⟩ := hsession
  exact ⟨.of_eq htuns, fun k ↦ by rw [hhosts], hhost, hmux, hup, happlied, hflight⟩

theorem SameSession.refl (s : Manager) : SameSession s s :=
  ⟨SameTuns.refl s, fun _ ↦ rfl, rfl, rfl, rfl, rfl, rfl⟩

theorem SameSession.trans {s t u : Manager} (h : SameSession s t) (h' : SameSession t u) :
    SameSession s u :=
  ⟨h.toSameTuns.trans h'.toSameTuns, fun k ↦ (h'.listening k).trans (h.listening k),
    h'.host.trans h.host, h'.mux.trans h.mux, h'.up.trans h.up, h'.applied.trans h.applied,
    h'.inFlight.trans h.inFlight⟩

/-- Outside its own notification and the start of a mux the thread in the monitor has no TUN of its
own. -/
def Op.calm : Op → Bool
  | .idle | .requesting _ | .attaching _ => true
  | .notifying _ _ | .starting _ _ => false

/-- Steps that leave the session alone. -/
theorem link_quiet {s s' : Manager} (h : Link s) (hsame : SameSession s s')
    (hop : s'.op = s.op ∨ s.op.calm = true ∧ s'.op.calm = true)
    (hraising : s'.op.raising = true → s.op.raising = true ∨ s.mux = none)
    (hhost : s'.op ≠ .idle → s'.host.isSome = true) : Link s' := by
  have hnotifying : ∀ r g, s'.op = .notifying r g ↔ s.op = .notifying r g := by
    intro r g
    rcases hop with hop | ⟨hcalm, hcalm'⟩
    · rw [hop]
    · constructor
      · intro hn
        rw [hn] at hcalm'
        cases hcalm'
      · intro hn
        rw [hn] at hcalm
        cases hcalm
  have hstarting : ∀ r g, s'.op = .starting r g ↔ s.op = .starting r g := by
    intro r g
    rcases hop with hop | ⟨hcalm, hcalm'⟩
    · rw [hop]
    · constructor
      · intro hn
        rw [hn] at hcalm'
        cases hcalm'
      · intro hn
        rw [hn] at hcalm
        cases hcalm
  have hunderway : ∀ k g, Underway s' k g ↔ Underway s k g := by
    intro k g
    simp only [Underway, hsame.inFlight, hnotifying, hsame.host]
  have hfloor : ∀ f, Floor s' f ↔ Floor s f := by
    intro f
    simp only [Floor, hsame.mux, hsame.applied, hnotifying, hstarting]
  obtain ⟨hmh, hmt, hmu, hra, hoh, hst, hal, hli, hfo, hfn, hno, hke, hop', hlf⟩ := h
  exact
    { mux_host := by
        simpa only [hsame.mux, hsame.host] using hmh
      mux_tun := by
        simpa only [hsame.mux, hsame.applied] using hmt
      mux_up := by
        simpa only [hsame.mux, hsame.up] using hmu
      raising := by
        intro hr
        rw [hsame.mux]
        exact (hraising hr).elim hra id
      op_host := hhost
      starting := by
        simpa only [hstarting, hsame.applied, hsame.up] using hst
      applied_le := by
        simpa only [hsame.applied, hsame.generations] using hal
      listening := by
        simpa only [hsame.host, hsame.listening] using hli
      flight_owner := by
        simpa only [hsame.inFlight, hsame.owner] using hfo
      flight_nodup := by
        simpa only [hsame.inFlight] using hfn
      notifying := by
        simpa only [hnotifying, hsame.host, hsame.applied, hsame.owner, hsame.inFlight] using hno
      keys := by
        simpa only [hsame.superseded, hunderway] using hke
      open_from := by
        simpa only [hsame.host, hfloor, hsame.owner, hsame.closed] using hop'
      live_from := by
        simpa only [hsame.host, hfloor, hsame.owner, hsame.live, hunderway] using hlf }

/-- Steps after which there is no mux: the session's TUN is closed or was not up. -/
theorem link_ended {s s' : Manager} (h : Link s)
    (htuns : SameTuns s s' ∨ ∃ k, SameTuns (s.releaseTun k) s')
    (hmux : s'.mux = none) (hop : ∀ r g, s.op ≠ .notifying r g) (hop' : s'.op = .idle)
    (hlistening : ∀ k, s'.host = some k → (s'.hosts k).listening = true)
    (happlied : s'.appliedGeneration = s.appliedGeneration) (hflight : s'.inFlight = s.inFlight) :
    Link s' := by
  have hfloor : ∀ f, ¬ Floor s' f := by
    intro f
    simp [Floor, hmux, hop']
  have howner : s'.owner = s.owner := by
    rcases htuns with hsame | ⟨k, hsame⟩
    · exact hsame.owner
    · exact hsame.owner
  have hgenerations : s'.generations = s.generations := by
    rcases htuns with hsame | ⟨k, hsame⟩
    · exact hsame.generations
    · exact hsame.generations
  have hsuperseded : ∀ k g p, (g, p) ∈ (s'.hosts k).superseded →
      (g, p) ∈ (s.hosts k).superseded := by
    intro k g p hentry
    rcases htuns with hsame | ⟨k', hsame⟩
    · rwa [hsame.superseded] at hentry
    · rw [hsame.superseded] at hentry
      exact ((mem_releaseTun_superseded s k' k g p).mp hentry).1
  exact
    { mux_host := by
        simp [hmux]
      mux_tun := by
        simp [hmux]
      mux_up := by
        simp [hmux]
      raising := fun _ ↦ hmux
      op_host := by
        simp [hop']
      starting := by
        simp [hop']
      applied_le := by
        rw [happlied, hgenerations]
        exact h.applied_le
      listening := hlistening
      flight_owner := by
        rw [hflight, howner]
        exact h.flight_owner
      flight_nodup := by
        rw [hflight]
        exact h.flight_nodup
      notifying := by
        simp [hop']
      keys := by
        intro k g p hentry
        rcases h.keys k g p (hsuperseded k g p hentry) with hunder | ⟨r, hn, -⟩
        · exact Or.inl (by rw [hflight]; exact hunder)
        · exact absurd hn (hop r g)
      open_from := fun k f _ hf ↦ absurd hf (hfloor f)
      live_from := fun k f _ hf ↦ absurd hf (hfloor f) }

/-- A floor is at least the generation that was applied last. -/
theorem Link.applied_le_floor {s : Manager} (h : Link s) {k : HostId} (hhost : s.host = some k)
    {f : ℕ} (hf : Floor s f) : s.appliedGeneration ≤ f := by
  rcases hf with ⟨-, rfl⟩ | ⟨r, hr⟩ | ⟨r, hr⟩
  · exact Nat.le_refl _
  · exact Nat.le_of_lt (h.notifying r f k hr hhost).1
  · exact Nat.le_of_eq (h.starting r f hr).1.symm

/-- A newer generation reaches the manager: the packet path moves onto it and the descriptor it
superseded is closed. -/
theorem link_moved {s s' : Manager} {k : HostId} {g : ℕ} (h : Link s) (hledger : Ledger s)
    (howner : s.owner g = some k) (hhost : s.host = some k)
    (htuns : SameTuns (s.releasePreviousTun k g) s')
    (hlistening : ∀ j, (s'.hosts j).listening = (s.hosts j).listening)
    (hhost' : s'.host = s.host) (happlied : s'.appliedGeneration = g)
    (hmux : s'.mux = s.mux.map fun mux ↦ { mux with tun := g }) (hup : s'.tunnelUp = true)
    (hraising : s'.op.raising = true → s.mux = none)
    (hflight : s'.inFlight.Sublist s.inFlight)
    (hunderway : ∀ j x, Underway s j x → ¬ (j = k ∧ x = g) → Underway s' j x)
    (hnotifying : ∀ r x, s'.op ≠ .notifying r x)
    (hstarting : ∀ r x, s'.op = .starting r x → x = g)
    (hfloor : ∀ f, Floor s' f → f = g ∧ ∃ f₀ ≤ g, Floor s f₀) : Link s' := by
  have hclosed : ∀ x, x ∈ s'.closed ↔ (g, x) ∈ (s.hosts k).superseded ∨ x ∈ s.closed := by
    intro x
    rw [htuns.closed]
    exact mem_releasePrevious_closed s k g x
  have hown : s'.owner = s.owner := htuns.owner
  exact
    { mux_host := by
        intro _
        rw [hhost', hhost]
        rfl
      mux_tun := by
        intro m hm
        rw [hmux, Option.map_eq_some_iff] at hm
        obtain ⟨m₀, hm₀, rfl⟩ := hm
        exact ⟨happlied.symm, (h.mux_tun m₀ hm₀).2⟩
      mux_up := fun _ ↦ hup
      raising := by
        intro hr
        rw [hmux, hraising hr]
        rfl
      op_host := by
        intro _
        rw [hhost', hhost]
        rfl
      starting := by
        intro r x hx
        rw [happlied]
        exact ⟨hstarting r x hx, hup⟩
      applied_le := by
        rw [happlied, htuns.generations]
        exact hledger.owner_le g k howner
      listening := by
        intro j hj
        rw [hlistening]
        exact h.listening j (hhost' ▸ hj)
      flight_owner := by
        intro n hn
        rw [hown]
        exact h.flight_owner n (hflight.subset hn)
      flight_nodup := h.flight_nodup.sublist (hflight.map _)
      notifying := fun r x j hx ↦ absurd hx (hnotifying r x)
      keys := by
        intro j key p hentry
        rw [htuns.superseded] at hentry
        obtain ⟨hentry, hother⟩ := (mem_releasePrevious_superseded s k j g key p).mp hentry
        exact hunderway j key (h.keys j key p hentry) fun hkey ↦ hother hkey.1 hkey.2
      open_from := by
        intro j f hj hf x hx hle
        obtain ⟨rfl, f₀, hf₀, hfloor₀⟩ := hfloor f hf
        rw [hhost'] at hj
        obtain rfl : k = j := Option.some.inj (hhost.symm.trans hj)
        rw [hclosed]
        rintro (hentry | hgone)
        · have hlt := hledger.superseded_lt k f x hentry
          omega
        · exact h.open_from k f₀ hhost hfloor₀ x (hown ▸ hx) (by omega) hgone
      live_from := by
        intro j f hj hf
        obtain ⟨rfl, f₀, hf₀, hfloor₀⟩ := hfloor f hf
        rw [hhost'] at hj
        obtain rfl : k = j := Option.some.inj (hhost.symm.trans hj)
        obtain ⟨-, live, hlive, hle, hwhere⟩ := h.live_from k f₀ hhost hfloor₀
        have hmax := hledger.live_max k live hlive f howner
        refine ⟨by rw [hown]; exact howner, live, ?_, hmax, ?_⟩
        · rw [htuns.live, releasePrevious_live]
          exact hlive
        · by_cases hsame : live = f
          · exact Or.inl hsame
          · rcases hwhere with rfl | hunder
            · exact absurd (by omega) hsame
            · exact Or.inr (hunderway k live hunder fun hboth ↦ hsame hboth.2) }

/-- A notification that changes nothing: it comes from a host that is not attached, or its
generation is not newer than the one applied. -/
theorem link_stale {s s' : Manager} {n : Notification} (h : Link s) (hledger : Ledger s)
    (hstale : s.host ≠ some n.host ∨ n.tun ≤ s.appliedGeneration)
    (htuns : SameTuns (s.releasePreviousTun n.host n.tun) s')
    (hlistening : ∀ j, (s'.hosts j).listening = (s.hosts j).listening)
    (hhost : s'.host = s.host) (happlied : s'.appliedGeneration = s.appliedGeneration)
    (hmux : s'.mux = s.mux) (hup : s'.tunnelUp = s.tunnelUp) (hop : s'.op = s.op)
    (hflight : s'.inFlight = s.inFlight.erase n) : Link s' := by
  have hclosed : ∀ x, x ∈ s'.closed ↔
      (n.tun, x) ∈ (s.hosts n.host).superseded ∨ x ∈ s.closed := by
    intro x
    rw [htuns.closed]
    exact mem_releasePrevious_closed s n.host n.tun x
  have hown : s'.owner = s.owner := htuns.owner
  have hsub : s'.inFlight.Sublist s.inFlight := by
    rw [hflight]
    exact List.erase_sublist
  have hfloor : ∀ f, Floor s' f ↔ Floor s f := by
    intro f
    simp only [Floor, hmux, happlied, hop]
  have hunderway : ∀ j x, Underway s j x → ¬ (j = n.host ∧ x = n.tun) → Underway s' j x := by
    rintro j x (⟨m, hm, rfl, rfl⟩ | hr) hne
    · left
      refine ⟨m, ?_, rfl, rfl⟩
      rw [hflight]
      exact (List.mem_erase_of_ne fun heq ↦ hne (by rw [heq]; exact ⟨rfl, rfl⟩)).mpr hm
    · right
      rw [hop, hhost]
      exact hr
  exact
    { mux_host := by
        rw [hmux, hhost]
        exact h.mux_host
      mux_tun := by
        rw [hmux, happlied]
        exact h.mux_tun
      mux_up := by
        rw [hmux, hup]
        exact h.mux_up
      raising := by
        rw [hop, hmux]
        exact h.raising
      op_host := by
        rw [hop, hhost]
        exact h.op_host
      starting := by
        rw [hop, happlied, hup]
        exact h.starting
      applied_le := by
        rw [happlied, htuns.generations]
        exact h.applied_le
      listening := by
        intro j hj
        rw [hlistening]
        exact h.listening j (hhost ▸ hj)
      flight_owner := by
        intro m hm
        rw [hown]
        exact h.flight_owner m (hsub.subset hm)
      flight_nodup := h.flight_nodup.sublist (hsub.map _)
      notifying := by
        intro r g j hr hj
        rw [hop] at hr
        rw [hhost] at hj
        obtain ⟨hlt, howner, hfree⟩ := h.notifying r g j hr hj
        exact ⟨by rw [happlied]; exact hlt, by rw [hown]; exact howner,
          fun m hm ↦ hfree m (hsub.subset hm)⟩
      keys := by
        intro j key p hentry
        rw [htuns.superseded] at hentry
        obtain ⟨hentry, hother⟩ := (mem_releasePrevious_superseded s n.host j n.tun key p).mp hentry
        exact hunderway j key (h.keys j key p hentry) fun hkey ↦ hother hkey.1 hkey.2
      open_from := by
        intro j f hj hf x hx hle
        rw [hhost] at hj
        rw [hfloor] at hf
        rw [hown] at hx
        rw [hclosed]
        rintro (hentry | hgone)
        · have howner := (hledger.superseded_owner _ _ _ hentry).1
          rw [hx] at howner
          obtain rfl := Option.some.inj howner
          have hlt := hledger.superseded_lt _ _ _ hentry
          have hbound := h.applied_le_floor hj hf
          rcases hstale with hdetached | hold
          · exact hdetached hj
          · omega
        · exact h.open_from j f hj hf x hx hle hgone
      live_from := by
        intro j f hj hf
        rw [hhost] at hj
        rw [hfloor] at hf
        obtain ⟨howner, live, hlive, hle, hwhere⟩ := h.live_from j f hj hf
        refine ⟨by rw [hown]; exact howner, live, ?_, hle, ?_⟩
        · rw [htuns.live, releasePrevious_live]
          exact hlive
        · rcases hwhere with rfl | hunder
          · exact Or.inl rfl
          · by_cases hsame : j = n.host ∧ live = n.tun
            · obtain ⟨rfl, rfl⟩ := hsame
              have hbound := h.applied_le_floor hj hf
              rcases hstale with hdetached | hold
              · exact absurd hj hdetached
              · exact Or.inl (by omega)
            · exact Or.inr (hunderway j live hunder hsame) }

/-- A TUN is established, by the thread in the monitor or by an engine's thread, and its
notification is under way. -/
structure Establishes (s s' : Manager) (k : HostId) : Prop where
  tuns : SameTuns (s.establish k) s'
  listening : ∀ j, (s'.hosts j).listening = (s.hosts j).listening
  host : s'.host = s.host
  applied : s'.appliedGeneration = s.appliedGeneration
  mux : s'.mux = s.mux
  up : s'.tunnelUp = s.tunnelUp
  next : (s'.op = s.op ∧ s'.inFlight = ⟨k, s.generations + 1, false⟩ :: s.inFlight) ∨
    (∃ r, s.op = .requesting r ∧ s'.op = .notifying r (s.generations + 1)) ∧ s.host = some k ∧
      s'.inFlight = s.inFlight

namespace Establishes

variable {s s' : Manager} {k j : HostId}

theorem owner (he : Establishes s s' k) (g : ℕ) :
    s'.owner g = if g = s.generations + 1 then some k else s.owner g := by
  rw [he.tuns.owner]
  exact establish_owner s k g

theorem owner_new (he : Establishes s s' k) : s'.owner (s.generations + 1) = some k := by
  rw [he.owner, if_pos rfl]

/-- The descriptors that were handed out keep their owners. -/
theorem owner_old (he : Establishes s s' k) (hledger : Ledger s) {g : ℕ}
    (hg : s.owner g = some j) : s'.owner g = some j := by
  have hle := hledger.owner_le g j hg
  rw [he.owner, if_neg (by omega)]
  exact hg

theorem underway_new (he : Establishes s s' k) : Underway s' k (s.generations + 1) := by
  rcases he.next with ⟨-, hflight⟩ | ⟨⟨r, -, hop⟩, hk, -⟩
  · exact Or.inl ⟨_, by rw [hflight]; exact List.mem_cons_self, rfl, rfl⟩
  · exact Or.inr ⟨r, hop, by rw [he.host]; exact hk⟩

/-- What was under way still is. -/
theorem underway_old (he : Establishes s s' k) {x : ℕ} (hx : Underway s j x) :
    Underway s' j x := by
  rcases hx with ⟨n, hn, hnj, hnx⟩ | ⟨r, hr, hj⟩
  · refine Or.inl ⟨n, ?_, hnj, hnx⟩
    rcases he.next with ⟨-, hflight⟩ | ⟨-, -, hflight⟩
    · rw [hflight]
      exact List.mem_cons_of_mem _ hn
    · rw [hflight]
      exact hn
  · rcases he.next with ⟨hop, -⟩ | ⟨⟨r', hop, -⟩, -⟩
    · exact Or.inr ⟨r, by rw [hop]; exact hr, by rw [he.host]; exact hj⟩
    · rw [hop] at hr
      cases hr

/-- The floor stays, or is the new TUN of the thread in the monitor. -/
theorem floor (he : Establishes s s' k) {f : ℕ} (hf : Floor s' f) :
    Floor s f ∨ f = s.generations + 1 ∧ s.host = some k := by
  rcases hf with ⟨hm, hf⟩ | ⟨r, hr⟩ | ⟨r, hr⟩
  · exact Or.inl (Or.inl ⟨he.mux ▸ hm, by rw [hf, he.applied]⟩)
  · rcases he.next with ⟨hop, -⟩ | ⟨⟨r', -, hop⟩, hk, -⟩
    · exact Or.inl (Or.inr (Or.inl ⟨r, hop ▸ hr⟩))
    · rw [hop] at hr
      exact Or.inr ⟨(Op.notifying.inj hr).2.symm, hk⟩
  · rcases he.next with ⟨hop, -⟩ | ⟨⟨r', -, hop⟩, -⟩
    · exact Or.inl (Or.inr (Or.inr ⟨r, hop ▸ hr⟩))
    · rw [hop] at hr
      cases hr

end Establishes

/-- No notification in flight is of a TUN that is still to come. -/
theorem flight_le {s : Manager} (h : Link s) (hledger : Ledger s) {n : Notification}
    (hn : n ∈ s.inFlight) : n.tun ≤ s.generations :=
  hledger.owner_le _ _ (h.flight_owner n hn)

theorem link_establish {s s' : Manager} {k : HostId} (h : Link s) (hledger : Ledger s)
    (he : Establishes s s' k) : Link s' where
  mux_host := by
    rw [he.mux, he.host]
    exact h.mux_host
  mux_tun := by
    rw [he.mux, he.applied]
    exact h.mux_tun
  mux_up := by
    rw [he.mux, he.up]
    exact h.mux_up
  raising := by
    intro hr
    rw [he.mux]
    rcases he.next with ⟨hop, -⟩ | ⟨⟨r, hop, hop'⟩, -⟩
    · exact h.raising (hop ▸ hr)
    · refine h.raising ?_
      rw [hop'] at hr
      rw [hop]
      cases r <;> first | rfl | cases hr
  op_host := by
    intro hop
    rw [he.host]
    rcases he.next with ⟨hsame, -⟩ | ⟨-, hk, -⟩
    · exact h.op_host (hsame ▸ hop)
    · rw [hk]
      rfl
  starting := by
    intro r g hr
    rw [he.applied, he.up]
    rcases he.next with ⟨hop, -⟩ | ⟨⟨r', -, hop⟩, -⟩
    · exact h.starting r g (hop ▸ hr)
    · rw [hop] at hr
      cases hr
  applied_le := by
    rw [he.applied, he.tuns.generations, establish_generations]
    exact Nat.le_succ_of_le h.applied_le
  listening := by
    intro j hj
    rw [he.listening]
    exact h.listening j (he.host ▸ hj)
  flight_owner := by
    intro n hn
    rcases he.next with ⟨-, hflight⟩ | ⟨-, -, hflight⟩
    · rw [hflight, List.mem_cons] at hn
      rcases hn with rfl | hn
      · exact he.owner_new
      · exact he.owner_old hledger (h.flight_owner n hn)
    · rw [hflight] at hn
      exact he.owner_old hledger (h.flight_owner n hn)
  flight_nodup := by
    rcases he.next with ⟨-, hflight⟩ | ⟨-, -, hflight⟩
    · rw [hflight, List.map_cons, List.nodup_cons]
      refine ⟨fun hmem ↦ ?_, h.flight_nodup⟩
      obtain ⟨n, hn, hsame⟩ := List.mem_map.mp hmem
      have hle := flight_le h hledger hn
      simp only at hsame
      omega
    · rw [hflight]
      exact h.flight_nodup
  notifying := by
    intro r g j hr hj
    rw [he.host] at hj
    rw [he.applied]
    rcases he.next with ⟨hop, hflight⟩ | ⟨⟨r', -, hop⟩, hk, hflight⟩
    · obtain ⟨hlt, howner, hfree⟩ := h.notifying r g j (hop ▸ hr) hj
      refine ⟨hlt, he.owner_old hledger howner, fun n hn ↦ ?_⟩
      rw [hflight, List.mem_cons] at hn
      rcases hn with rfl | hn
      · have hle := hledger.owner_le g j howner
        simp only
        omega
      · exact hfree n hn
    · rw [hop] at hr
      obtain ⟨-, rfl⟩ := Op.notifying.inj hr
      obtain rfl : k = j := Option.some.inj (hk.symm.trans hj)
      refine ⟨Nat.lt_succ_of_le h.applied_le, he.owner_new, fun n hn ↦ ?_⟩
      rw [hflight] at hn
      have hle := flight_le h hledger hn
      omega
  keys := by
    intro j key p hentry
    rw [he.tuns.superseded] at hentry
    rcases (mem_establish_superseded s k j key p).mp hentry with ⟨rfl, rfl, -⟩ | hentry
    · exact he.underway_new
    · exact he.underway_old (h.keys j key p hentry)
  open_from := by
    intro j f hj hf x hx hle
    rw [he.host] at hj
    rw [he.tuns.closed, establish_closed]
    intro hgone
    have hbound := hledger.closed_le x hgone
    rw [he.owner, if_neg (by omega)] at hx
    rcases he.floor hf with hf | ⟨rfl, -⟩
    · exact h.open_from j f hj hf x hx hle hgone
    · omega
  live_from := by
    intro j f hj hf
    rw [he.host] at hj
    by_cases hjk : j = k
    · subst hjk
      have hlive : (s'.hosts j).liveTun = some (s.generations + 1) := by
        rw [he.tuns.live, establish_live, if_pos rfl]
      rcases he.floor hf with hf | ⟨rfl, -⟩
      · have howner := (h.live_from j f hj hf).1
        have hle := hledger.owner_le f j howner
        exact ⟨he.owner_old hledger howner, _, hlive, by omega, Or.inr he.underway_new⟩
      · exact ⟨he.owner_new, _, hlive, Nat.le_refl _, Or.inr he.underway_new⟩
    · rcases he.floor hf with hf | ⟨-, hk⟩
      · obtain ⟨howner, live, hlive, hle, hwhere⟩ := h.live_from j f hj hf
        refine ⟨he.owner_old hledger howner, live, ?_, hle, hwhere.imp_right he.underway_old⟩
        rw [he.tuns.live, establish_live, if_neg hjk]
        exact hlive
      · exact absurd (Option.some.inj (hj.symm.trans hk)) hjk

/-- The new mux starts on the TUN of the thread in the monitor. -/
theorem link_started {s s' : Manager} {r : Request} {g : ℕ} (h : Link s)
    (htuns : SameTuns s s') (hop : s.op = .starting r g) (hcalm : s'.op.calm = true)
    (hlistening : ∀ j, (s'.hosts j).listening = (s.hosts j).listening)
    (hhost : s'.host = s.host) (happlied : s'.appliedGeneration = s.appliedGeneration)
    (hmux : s'.mux = some ⟨g, true⟩) (hup : s'.tunnelUp = s.tunnelUp)
    (hraising : s'.op.raising = false) (hflight : s'.inFlight = s.inFlight) : Link s' := by
  obtain ⟨hg, hstarted⟩ := h.starting r g hop
  have hattached : s.host.isSome = true := h.op_host (by rw [hop]; simp)
  have hnotifying : ∀ r' x, s'.op ≠ .notifying r' x := by
    intro r' x hr'
    rw [hr'] at hcalm
    cases hcalm
  have hfloor : ∀ f, Floor s' f → f = g := by
    rintro f (⟨-, hf⟩ | ⟨r', hr'⟩ | ⟨r', hr'⟩)
    · rw [hf, happlied, hg]
    · exact absurd hr' (hnotifying r' f)
    · rw [hr'] at hcalm
      cases hcalm
  have hunderway : ∀ j x, Underway s j x → Underway s' j x := by
    rintro j x (⟨n, hn, hnj, hnx⟩ | ⟨r', hr', -⟩)
    · exact Or.inl ⟨n, by rw [hflight]; exact hn, hnj, hnx⟩
    · rw [hop] at hr'
      cases hr'
  exact
    { mux_host := by
        rw [hhost]
        exact fun _ ↦ hattached
      mux_tun := by
        intro m hm
        rw [hmux] at hm
        obtain rfl := Option.some.inj hm
        exact ⟨by rw [happlied]; exact hg, rfl⟩
      mux_up := fun _ ↦ hup.trans hstarted
      raising := by
        rw [hraising]
        simp
      op_host := by
        rw [hhost]
        exact fun _ ↦ hattached
      starting := by
        intro r' x hr'
        rw [hr'] at hcalm
        cases hcalm
      applied_le := by
        rw [happlied, htuns.generations]
        exact h.applied_le
      listening := by
        intro j hj
        rw [hlistening]
        exact h.listening j (hhost ▸ hj)
      flight_owner := by
        rw [hflight, htuns.owner]
        exact h.flight_owner
      flight_nodup := by
        rw [hflight]
        exact h.flight_nodup
      notifying := fun r' x j hr' ↦ absurd hr' (hnotifying r' x)
      keys := by
        intro j key p hentry
        rw [htuns.superseded] at hentry
        exact hunderway j key (h.keys j key p hentry)
      open_from := by
        intro j f hj hf x hx hle
        obtain rfl := hfloor f hf
        rw [hhost] at hj
        rw [htuns.owner] at hx
        rw [htuns.closed]
        exact h.open_from j f hj (Or.inr (Or.inr ⟨r, hop⟩)) x hx hle
      live_from := by
        intro j f hj hf
        obtain rfl := hfloor f hf
        rw [hhost] at hj
        obtain ⟨howner, live, hlive, hle, hwhere⟩ := h.live_from j f hj (Or.inr (Or.inr ⟨r, hop⟩))
        exact ⟨by rw [htuns.owner]; exact howner, live, by rw [htuns.live]; exact hlive, hle,
          hwhere.imp_right (hunderway j live)⟩ }

/-- A host that is not attached closes its descriptors. -/
theorem link_destroy {s s' : Manager} {k : HostId} (h : Link s) (hledger : Ledger s)
    (hother : s.host ≠ some k) (hrelease : s' = s.releaseTun k) : Link s' := by
  subst hrelease
  obtain ⟨hmh, hmt, hmu, hra, hoh, hst, hal, hli, hfo, hfn, hno, hke, hopen, hlive⟩ := h
  refine ⟨hmh, hmt, hmu, hra, hoh, hst, hal, fun j hj ↦ ?_, hfo, hfn, hno, fun j key p hentry ↦ ?_,
    fun j f hj hf x hx hle ↦ ?_, fun j f hj hf ↦ ?_⟩
  · rw [releaseTun_listening]
    exact hli j hj
  · exact hke j key p ((mem_releaseTun_superseded s k j key p).mp hentry).1
  · rw [mem_releaseTun_closed]
    have hjk : j ≠ k := fun hjk ↦ hother (hjk ▸ hj)
    rintro (⟨key, hentry⟩ | hlive' | hgone)
    · have howner := (hledger.superseded_owner _ _ _ hentry).1
      exact hjk (Option.some.inj (hx.symm.trans howner))
    · exact hjk (Option.some.inj (hx.symm.trans (hledger.live_owner _ _ hlive')))
    · exact hopen j f hj hf x hx hle hgone
  · obtain ⟨howner, live, hcurrent, hle, hwhere⟩ := hlive j f hj hf
    refine ⟨howner, live, ?_, hle, hwhere⟩
    have hjk : j ≠ k := fun hjk ↦ hother (hjk ▸ hj)
    rw [releaseTun_live, if_neg hjk]
    exact hcurrent

/-- A host is attached while there is no mux. -/
theorem link_attachHost {s : Manager} (h : Link s) (k : HostId) (hop : s.op = .idle)
    (hmux : s.mux = none) : Link (s.attachHost k) := by
  have hsuperseded : ∀ j, ((s.attachHost k).hosts j).superseded = (s.hosts j).superseded := by
    intro j
    simp only [Manager.attachHost, Manager.setHost, Function.update_apply]
    split_ifs with hj
    · rw [hj]
    · rfl
  have hfloor : ∀ f, ¬ Floor (s.attachHost k) f := by
    intro f
    simp [Floor, Manager.attachHost, Manager.setHost, hmux, hop]
  obtain ⟨hmh, hmt, hmu, hra, hoh, hst, hal, hli, hfo, hfn, hno, hke, -, -⟩ := h
  refine ⟨fun _ ↦ rfl, hmt, hmu, hra, fun _ ↦ rfl, hst, hal, fun j hj ↦ ?_, hfo, hfn, ?_,
    fun j key p hentry ↦ ?_, fun j f _ hf ↦ absurd hf (hfloor f),
    fun j f _ hf ↦ absurd hf (hfloor f)⟩
  · obtain rfl : k = j := Option.some.inj hj
    simp [Manager.attachHost, Manager.setHost]
  · intro r g j hr
    simp [Manager.attachHost, Manager.setHost, hop] at hr
  · rw [hsuperseded] at hentry
    rcases hke j key p hentry with hunder | ⟨r, hr, -⟩
    · exact Or.inl hunder
    · rw [hop] at hr
      cases hr

/-- An engine's thread has read the listener. -/
theorem link_readListener {s : Manager} {n : Notification} (h : Link s) (hmem : n ∈ s.inFlight) :
    Link { s with inFlight := { n with read := true } :: s.inFlight.erase n } := by
  have hperm : (s.inFlight.map Notification.tun).Perm
      (({ n with read := true } :: s.inFlight.erase n).map Notification.tun) := by
    have hcons := (List.perm_cons_erase hmem).map Notification.tun
    simpa using hcons
  have hunderway : ∀ j x, Underway s j x →
      Underway { s with inFlight := { n with read := true } :: s.inFlight.erase n } j x := by
    rintro j x (⟨m, hm, rfl, rfl⟩ | hr)
    · by_cases hsame : m = n
      · exact Or.inl ⟨_, List.mem_cons_self, by rw [hsame], by rw [hsame]⟩
      · exact Or.inl ⟨m, List.mem_cons_of_mem _ ((List.mem_erase_of_ne hsame).mpr hm), rfl, rfl⟩
    · exact Or.inr hr
  have hflight : ∀ m ∈ ({ n with read := true } :: s.inFlight.erase n : List Notification),
      ∃ m₀ ∈ s.inFlight, m.host = m₀.host ∧ m.tun = m₀.tun := by
    intro m hm
    rcases List.mem_cons.mp hm with rfl | hm
    · exact ⟨n, hmem, rfl, rfl⟩
    · exact ⟨m, List.mem_of_mem_erase hm, rfl, rfl⟩
  obtain ⟨hmh, hmt, hmu, hra, hoh, hst, hal, hli, hfo, hfn, hno, hke, hopen, hlive⟩ := h
  refine ⟨hmh, hmt, hmu, hra, hoh, hst, hal, hli, fun m hm ↦ ?_, hperm.nodup_iff.mp hfn,
    fun r g j hr hj ↦ ?_, fun j key p hentry ↦ hunderway j key (hke j key p hentry), hopen,
    fun j f hj hf ↦ ?_⟩
  · obtain ⟨m₀, hm₀, hhost, htun⟩ := hflight m hm
    rw [hhost, htun]
    exact hfo m₀ hm₀
  · obtain ⟨hlt, howner, hfree⟩ := hno r g j hr hj
    refine ⟨hlt, howner, fun m hm ↦ ?_⟩
    obtain ⟨m₀, hm₀, -, htun⟩ := hflight m hm
    rw [htun]
    exact hfree m₀ hm₀
  · obtain ⟨howner, live, hcurrent, hle, hwhere⟩ := hlive j f hj hf
    exact ⟨howner, live, hcurrent, hle, hwhere.imp_right (hunderway j live)⟩

/-! ### What a step can do -/

/-- What a step of the manager does, guards included. -/
inductive ManagerMove (s : Manager) : Action → Manager → Prop
  | attachHost {h : HostId} (hop : s.op = .idle) : ManagerMove s (.attachHost h) (s.attachHost h)
  | detachHost {h : HostId} (hop : s.op = .idle) : ManagerMove s (.detachHost h) (s.detachHost h)
  | connect {engine : Engine} {covers : Bool} (hop : s.op = .idle) :
      ManagerMove s (.connect engine covers) (s.connect engine covers)
  | disconnect {hold : TunHold} {excludes : Bool} (hop : s.op = .idle) :
      ManagerMove s (.disconnect hold excludes) (s.disconnect hold excludes)
  | revoked (hop : s.op = .idle) : ManagerMove s .onRevoked s.onRevoked
  | released (hop : s.op = .idle) : ManagerMove s .releaseHeldTunnel s.releaseHeldTunnel
  | beginBlocking (hop : s.op = .idle) : ManagerMove s .beginBlocking s.beginBlocking
  | holdForBlocking {excludes : Bool} (hop : s.op = .idle) :
      ManagerMove s (.holdForBlocking excludes) (s.holdForBlocking excludes)
  | established {r : Request} {h : HostId} (hop : s.op = .requesting r) (hhost : s.host = some h) :
      ManagerMove s (.opEstablish true)
        { s.establish h with op := .notifying r (s.generations + 1) }
  | establishFailed {r : Request} {h : HostId} (hop : s.op = .requesting r)
      (hhost : s.host = some h) : ManagerMove s (.opEstablish false) (s.establishFailed r)
  | notified {r : Request} {g : ℕ} {h : HostId} (hop : s.op = .notifying r g)
      (hhost : s.host = some h) : ManagerMove s .opNotify ((s.onTunReplaced h g).notified r g)
  | muxStarted {r : Request} {g : ℕ} {started : Bool} (hop : s.op = .starting r g) :
      ManagerMove s (.opStart started) (s.muxStarted r g started)
  | attached {engine : Engine} {outcome : EngineOutcome} (hop : s.op = .attaching engine) :
      ManagerMove s (.opEngine outcome) { s with
        activeEngine := if outcome = .started then some engine else none
        op := .idle }
  | requestTun {h : HostId} :
      ManagerMove s (.requestTun h)
        { s.establish h with inFlight := ⟨h, s.generations + 1, false⟩ :: s.inFlight }
  | listened {n : Notification} (hmem : n ∈ s.inFlight) (hread : n.read = false)
      (hlistening : (s.hosts n.host).listening = true) :
      ManagerMove s (.readListener n)
        { s with inFlight := { n with read := true } :: s.inFlight.erase n }
  | unheard {n : Notification} (hmem : n ∈ s.inFlight) (hread : n.read = false)
      (hlistening : ¬ (s.hosts n.host).listening = true) :
      ManagerMove s (.readListener n)
        { s.releasePreviousTun n.host n.tun with inFlight := s.inFlight.erase n }
  | delivered {n : Notification} (hmem : n ∈ s.inFlight) (hread : n.read = true)
      (hop : s.op = .idle) :
      ManagerMove s (.deliver n)
        { s.onTunReplaced n.host n.tun with inFlight := s.inFlight.erase n }
  | destroyed {h : HostId} (hother : s.host ≠ some h) :
      ManagerMove s (.destroy h) (s.releaseTun h)
  | startedTask {t : TaskId} (hscheduled : s.tasks t = .scheduled) (hfree : s.executing = none) :
      ManagerMove s (.startTask t) { s with
        executing := some t, tasks := Function.update s.tasks t .started }
  | expired {t : TaskId} {blocking : Bool} (hexecuting : s.executing = some t)
      (hop : s.op = .idle) :
      ManagerMove s (.expire blocking) { s.onHoldExpired blocking with
        executing := none
        tasks := Function.update (s.onHoldExpired blocking).tasks t .done }

/-- The manager makes no other steps. -/
theorem step_move {s s' : Manager} {a : Action} (hstep : step s a = some s') :
    ManagerMove s a s' := by
  cases a with
  | attachHost h =>
    simp only [step] at hstep
    split_ifs at hstep with hop
    obtain rfl := Option.some.inj hstep
    exact .attachHost hop
  | detachHost h =>
    simp only [step] at hstep
    split_ifs at hstep with hop
    obtain rfl := Option.some.inj hstep
    exact .detachHost hop
  | connect engine covers =>
    simp only [step] at hstep
    split_ifs at hstep with hop
    obtain rfl := Option.some.inj hstep
    exact .connect hop
  | disconnect hold excludes =>
    simp only [step] at hstep
    split_ifs at hstep with hop
    obtain rfl := Option.some.inj hstep
    exact .disconnect hop
  | onRevoked =>
    simp only [step] at hstep
    split_ifs at hstep with hop
    obtain rfl := Option.some.inj hstep
    exact .revoked hop
  | releaseHeldTunnel =>
    simp only [step] at hstep
    split_ifs at hstep with hop
    obtain rfl := Option.some.inj hstep
    exact .released hop
  | beginBlocking =>
    simp only [step] at hstep
    split_ifs at hstep with hop
    obtain rfl := Option.some.inj hstep
    exact .beginBlocking hop
  | holdForBlocking excludes =>
    simp only [step] at hstep
    split_ifs at hstep with hop
    obtain rfl := Option.some.inj hstep
    exact .holdForBlocking hop
  | opEstablish established =>
    simp only [step] at hstep
    split at hstep
    case h_1 r h hop hhost =>
      cases established with
      | true =>
        obtain rfl := Option.some.inj hstep
        exact .established hop hhost
      | false =>
        obtain rfl := Option.some.inj hstep
        exact .establishFailed hop hhost
    case h_2 => cases hstep
  | opNotify =>
    simp only [step] at hstep
    split at hstep
    case h_1 r g h hop hhost =>
      obtain rfl := Option.some.inj hstep
      exact .notified hop hhost
    case h_2 => cases hstep
  | opStart started =>
    simp only [step] at hstep
    split at hstep
    case h_1 r g hop =>
      obtain rfl := Option.some.inj hstep
      exact .muxStarted hop
    case h_2 => cases hstep
  | opEngine outcome =>
    simp only [step] at hstep
    split at hstep
    case h_1 engine hop =>
      obtain rfl := Option.some.inj hstep
      exact .attached hop
    case h_2 => cases hstep
  | requestTun h =>
    obtain rfl := Option.some.inj hstep
    exact .requestTun
  | readListener n =>
    simp only [step] at hstep
    split_ifs at hstep with hn hlistening
    · obtain rfl := Option.some.inj hstep
      exact .listened hn.1 hn.2 hlistening
    · obtain rfl := Option.some.inj hstep
      exact .unheard hn.1 hn.2 hlistening
  | deliver n =>
    simp only [step] at hstep
    split_ifs at hstep with hn
    obtain ⟨hmem, hread, hop⟩ := hn
    obtain rfl := Option.some.inj hstep
    exact .delivered hmem hread hop
  | destroy h =>
    simp only [step] at hstep
    split_ifs at hstep with hother
    obtain rfl := Option.some.inj hstep
    exact .destroyed hother
  | startTask t =>
    simp only [step] at hstep
    split_ifs at hstep with hready
    obtain rfl := Option.some.inj hstep
    exact .startedTask hready.1 hready.2
  | expire blocking =>
    simp only [step] at hstep
    split at hstep
    case h_1 t hexecuting =>
      split_ifs at hstep with hop
      obtain rfl := Option.some.inj hstep
      exact .expired hexecuting hop
    case h_2 => cases hstep

/-! ### Steps -/

theorem sameSession_cancel (s : Manager) : SameSession s s.cancelHoldWatchdog := by
  unfold Manager.cancelHoldWatchdog
  split <;> exact sameSession_of_eq rfl rfl

/-- The watchdog's bookkeeping is all that the end of a bounded hold touches. -/
theorem sameSession_unheld (s : Manager) :
    SameSession s { s.cancelHoldWatchdog with hold := none } :=
  (sameSession_cancel s).trans (sameSession_of_eq rfl rfl)

@[simp] theorem cancel_op (s : Manager) : s.cancelHoldWatchdog.op = s.op := by
  unfold Manager.cancelHoldWatchdog
  split <;> rfl

theorem sameSession_finishHold (s : Manager) (r : Request) : SameSession s (s.finishHold r) := by
  cases r with
  | excludeForHandover | excludeForBlocking =>
    exact (sameSession_cancel s).trans (sameSession_of_eq rfl rfl)
  | excludeConverted | first _ | replace _ | blocking =>
    exact sameSession_of_eq rfl rfl

@[simp] theorem finishHold_op (s : Manager) (r : Request) : (s.finishHold r).op = .idle := by
  cases r <;> rfl

theorem sameSession_exclude (s : Manager) (r : Request) (excludes : Bool) :
    SameSession s (s.excludeSelfWhileHolding r excludes) := by
  unfold Manager.excludeSelfWhileHolding
  split
  · exact sameSession_finishHold s r
  · split_ifs
    · exact sameSession_of_eq rfl rfl
    · exact sameSession_finishHold s r

/-- `excludeSelfWhileHolding` stops at its `requestTun`, with a host, or is through. -/
theorem exclude_op (s : Manager) (r : Request) (excludes : Bool) :
    (s.excludeSelfWhileHolding r excludes).op = .idle ∨
      (s.excludeSelfWhileHolding r excludes).op = .requesting r ∧ s.host.isSome = true := by
  unfold Manager.excludeSelfWhileHolding
  split
  · exact Or.inl (finishHold_op s r)
  · rename_i hhost
    split_ifs
    · exact Or.inr ⟨rfl, by rw [hhost]; rfl⟩
    · exact Or.inl (finishHold_op s r)

/-- What `closeTun` does to the descriptors. -/
theorem closeTun_tuns (s : Manager) :
    SameTuns s s.closeTun ∨ ∃ k, SameTuns (s.releaseTun k) s.closeTun := by
  unfold Manager.closeTun
  split_ifs
  · split
    · exact Or.inl (.of_eq rfl)
    · exact Or.inr ⟨_, .of_eq rfl⟩
  · exact Or.inl (SameTuns.refl s)

section CloseTun

variable (s : Manager)

@[simp] theorem closeTun_host : s.closeTun.host = s.host := by
  unfold Manager.closeTun
  split_ifs
  · split <;> simp_all [Manager.releaseTun]
  · rfl

@[simp] theorem closeTun_mux : s.closeTun.mux = s.mux := by
  unfold Manager.closeTun
  split_ifs
  · split <;> rfl
  · rfl

@[simp] theorem closeTun_op : s.closeTun.op = s.op := by
  unfold Manager.closeTun
  split_ifs
  · split <;> rfl
  · rfl

@[simp] theorem closeTun_up : s.closeTun.tunnelUp = false := by
  unfold Manager.closeTun
  split_ifs with hup
  · split <;> rfl
  · simpa using hup

@[simp] theorem closeTun_applied : s.closeTun.appliedGeneration = s.appliedGeneration := by
  unfold Manager.closeTun
  split_ifs
  · split <;> rfl
  · rfl

@[simp] theorem closeTun_inFlight : s.closeTun.inFlight = s.inFlight := by
  unfold Manager.closeTun
  split_ifs
  · split <;> rfl
  · rfl

@[simp] theorem closeTun_listening (h : HostId) :
    (s.closeTun.hosts h).listening = (s.hosts h).listening := by
  unfold Manager.closeTun
  split_ifs
  · split
    · rfl
    · exact releaseTun_listening s _ h
  · rfl

end CloseTun

/-- The descriptors after `closeTun` on a state with the same ones. -/
theorem closeTun_tuns_of_same {s t : Manager} (hsame : SameTuns s t) :
    SameTuns s t.closeTun ∨ ∃ k, SameTuns (s.releaseTun k) t.closeTun := by
  rcases closeTun_tuns t with hclose | ⟨k, hclose⟩
  · exact Or.inl (hsame.trans hclose)
  · refine Or.inr ⟨k, SameTuns.trans ?_ hclose⟩
    refine ⟨fun h ↦ ?_, fun h ↦ ?_, ?_, hsame.owner, hsame.generations⟩
    · rw [releaseTun_live, releaseTun_live, hsame.live]
    · simp only [Manager.releaseTun, Function.update_apply]
      split_ifs
      · rfl
      · exact hsame.superseded h
    · simp only [Manager.releaseTun, hsame.superseded, hsame.live, hsame.closed]

/-- The invariant of the session. -/
structure Session (s : Manager) : Prop where
  link : Link s
  ledger : Ledger s

theorem session_quiet {s s' : Manager} (h : Session s) (hsame : SameSession s s')
    (hop : s'.op = s.op ∨ s.op.calm = true ∧ s'.op.calm = true)
    (hraising : s'.op.raising = true → s.op.raising = true ∨ s.mux = none)
    (hhost : s'.op ≠ .idle → s'.host.isSome = true) : Session s' :=
  ⟨link_quiet h.link hsame hop hraising hhost, h.ledger.congr hsame.toSameTuns⟩

theorem session_ended {s s' : Manager} (h : Session s)
    (htuns : SameTuns s s' ∨ ∃ k, SameTuns (s.releaseTun k) s')
    (hmux : s'.mux = none) (hop : ∀ r g, s.op ≠ .notifying r g) (hop' : s'.op = .idle)
    (hlistening : ∀ k, s'.host = some k → (s'.hosts k).listening = true)
    (happlied : s'.appliedGeneration = s.appliedGeneration) (hflight : s'.inFlight = s.inFlight) :
    Session s' := by
  refine ⟨link_ended h.link htuns hmux hop hop' hlistening happlied hflight, ?_⟩
  rcases htuns with hsame | ⟨k, hsame⟩
  · exact h.ledger.congr hsame
  · exact (ledger_releaseTun h.ledger k).congr hsame

/-- An operation that ends the session's TUN: it clears the mux and closes the TUN that is up. -/
theorem session_closed {s t s' : Manager} (h : Session s) (hsame : SameTuns s t)
    (hlistening : ∀ k, (t.hosts k).listening = (s.hosts k).listening)
    (hmux : t.mux = none) (hop : ∀ r g, s.op ≠ .notifying r g) (happlied : t.appliedGeneration =
      s.appliedGeneration) (hflight : t.inFlight = s.inFlight) (htuns' : SameTuns t.closeTun s')
    (hmux' : s'.mux = t.closeTun.mux) (hop' : s'.op = .idle)
    (hhost' : ∀ k, s'.host = some k → s.host = some k ∧ (s'.hosts k).listening =
      (t.closeTun.hosts k).listening)
    (happlied' : s'.appliedGeneration = t.closeTun.appliedGeneration)
    (hflight' : s'.inFlight = t.closeTun.inFlight) : Session s' := by
  refine session_ended h ?_ (by rw [hmux', closeTun_mux, hmux]) hop hop' (fun k hk ↦ ?_)
    (by rw [happlied', closeTun_applied, happlied]) (by rw [hflight', closeTun_inFlight, hflight])
  · rcases closeTun_tuns_of_same hsame with hclose | ⟨k, hclose⟩
    · exact Or.inl (hclose.trans htuns')
    · exact Or.inr ⟨k, hclose.trans htuns'⟩
  · obtain ⟨hattached, hsame'⟩ := hhost' k hk
    rw [hsame', closeTun_listening, hlistening]
    exact h.link.listening k hattached

theorem session_detachHost {s : Manager} (h : Session s) (k : HostId) (hop : s.op = .idle) :
    Session (s.detachHost k) := by
  unfold Manager.detachHost
  split_ifs with hhost
  · exact h
  · have hcancel := sameSession_cancel s
    refine session_closed h (t := { s.cancelHoldWatchdog with activeEngine := none, mux := none })
      (hcancel.toSameTuns.trans (.of_eq rfl)) hcancel.listening rfl (by simp [hop]) hcancel.applied
      hcancel.inFlight ?_ rfl ?_ (by simp) rfl rfl
    · refine ⟨fun j ↦ ?_, fun j ↦ ?_, rfl, rfl, rfl⟩ <;>
        simp only [Manager.setHost, Function.update_apply] <;> split_ifs with hj <;>
        first | rw [hj] | rfl
    · simp [Manager.setHost, hop]

theorem session_onRevoked {s : Manager} (h : Session s) (hop : s.op = .idle) :
    Session s.onRevoked := by
  have hcancel := sameSession_cancel s
  refine session_closed h (t := { s.cancelHoldWatchdog with activeEngine := none, mux := none })
    (hcancel.toSameTuns.trans (.of_eq rfl)) hcancel.listening rfl (by simp [hop]) hcancel.applied
    hcancel.inFlight (.of_eq rfl) rfl ?_ ?_ rfl rfl
  · simp [Manager.onRevoked, hop]
  · intro k hk
    refine ⟨?_, rfl⟩
    simpa [Manager.onRevoked, hcancel.host] using hk

theorem session_releaseHeldTunnel {s : Manager} (h : Session s) (hop : s.op = .idle) :
    Session s.releaseHeldTunnel := by
  unfold Manager.releaseHeldTunnel
  split_ifs
  · exact h
  · have hcancel := sameSession_cancel s
    refine session_closed h (t := { s.cancelHoldWatchdog with mux := none })
      (hcancel.toSameTuns.trans (.of_eq rfl)) hcancel.listening rfl (by simp [hop]) hcancel.applied
      hcancel.inFlight (SameTuns.refl _) rfl ?_ ?_ rfl rfl
    · simp [hop]
    · intro k hk
      refine ⟨?_, rfl⟩
      simpa [hcancel.host] using hk

theorem session_onHoldExpired {s : Manager} (h : Session s) (blocking : Bool)
    (hop : s.op = .idle) : Session (s.onHoldExpired blocking) := by
  unfold Manager.onHoldExpired
  split_ifs
  · exact h
  · exact session_quiet h ((sameSession_cancel s).trans (sameSession_of_eq rfl rfl))
      (Or.inl (cancel_op s)) (by simp [hop, Op.raising]) (by simp [hop])
  · refine session_closed h (t := { s with mux := none }) (.of_eq rfl) (fun _ ↦ rfl) rfl
      (by simp [hop]) rfl rfl (.of_eq rfl) rfl ?_ ?_ rfl rfl
    · simp [hop]
    · intro k hk
      refine ⟨?_, rfl⟩
      simpa using hk

/-- A step to a place where the thread in the monitor raises no mux. -/
theorem session_settled {s s' : Manager} (h : Session s) (hsame : SameSession s s')
    (hcalm : s.op.calm = true) (hcalm' : s'.op.calm = true) (hraising : s'.op.raising = false)
    (hhost : s'.op ≠ .idle → s.host.isSome = true) : Session s' :=
  session_quiet h hsame (Or.inr ⟨hcalm, hcalm'⟩) (by simp [hraising])
    (by rw [hsame.host]; exact hhost)

theorem session_exclude {s t : Manager} (h : Session s) (hsame : SameSession s t)
    (hop : s.op = .idle) {r : Request} (hr : (Op.requesting r).raising = false) (excludes : Bool) :
    Session (t.excludeSelfWhileHolding r excludes) := by
  have hall := hsame.trans (sameSession_exclude t r excludes)
  have hcalm : s.op.calm = true := by
    rw [hop]
    rfl
  rcases exclude_op t r excludes with hidle | ⟨hrequesting, hhost⟩
  · exact session_settled h hall hcalm (by rw [hidle]; rfl) (by rw [hidle]; rfl) (by simp [hidle])
  · exact session_settled h hall hcalm (by rw [hrequesting]; rfl) (by rw [hrequesting]; exact hr)
      fun _ ↦ hsame.host ▸ hhost

theorem sameSession_connect (s : Manager) (engine : Engine) (covers : Bool) :
    SameSession s (s.connect engine covers) := by
  unfold Manager.connect
  dsimp only
  split
  · exact (sameSession_cancel s).trans (sameSession_of_eq rfl rfl)
  · split_ifs <;> exact (sameSession_cancel s).trans (sameSession_of_eq rfl rfl)

/-- Where `connect` stops: it raises a new mux only when there is none on a TUN that is up. -/
theorem connect_op {s : Manager} (engine : Engine) (covers : Bool) (hop : s.op = .idle) :
    (s.connect engine covers).op.calm = true ∧
      ((s.connect engine covers).op ≠ .idle → s.host.isSome = true) ∧
      ((s.connect engine covers).op.raising = true → (s.mux.isSome && s.tunnelUp) = false) := by
  unfold Manager.connect
  dsimp only
  split
  · simp [hop, Op.calm, Op.raising]
  · rename_i k hhost
    split_ifs with hup hcovers
    · simp [hhost, Op.calm, Op.raising]
    · simp [hhost, Op.calm, Op.raising]
    · exact ⟨rfl, fun _ ↦ by rw [hhost]; rfl, fun _ ↦ Bool.eq_false_iff.mpr hup⟩

theorem session_connect {s : Manager} (h : Session s) (engine : Engine) (covers : Bool)
    (hop : s.op = .idle) : Session (s.connect engine covers) := by
  have hsame := sameSession_connect s engine covers
  obtain ⟨hcalm, hhost, hraising⟩ := connect_op engine covers hop
  refine session_quiet h hsame (Or.inr ⟨by rw [hop]; rfl, hcalm⟩) (fun hr ↦ Or.inr ?_)
    fun hbusy ↦ by rw [hsame.host]; exact hhost hbusy
  cases hmux : s.mux with
  | none => rfl
  | some mux =>
    have hsome : s.mux.isSome = true := by
      rw [hmux]
      rfl
    have hdown := hraising hr
    rw [hsome, h.link.mux_up hsome] at hdown
    cases hdown

theorem session_disconnect {s : Manager} (h : Session s) (hold : TunHold) (excludes : Bool)
    (hop : s.op = .idle) : Session (s.disconnect hold excludes) := by
  cases hold with
  | none =>
    refine session_closed h (t := { s with activeEngine := none, mux := none })
      (.of_eq rfl) (fun _ ↦ rfl) rfl (by simp [hop]) rfl rfl
      (.of_eq rfl) rfl ?_ ?_ rfl rfl
    · simp [Manager.disconnect, hop]
    · intro k hk
      refine ⟨?_, rfl⟩
      simpa [Manager.disconnect] using hk
  | forHandover =>
    exact session_exclude (t := { s with activeEngine := none }) h
      (sameSession_of_eq rfl rfl) hop rfl excludes
  | forBlocking =>
    exact session_exclude (t := { s with activeEngine := none }) h
      (sameSession_of_eq rfl rfl) hop rfl excludes

theorem sameSession_beginBlocking (s : Manager) : SameSession s s.beginBlocking := by
  unfold Manager.beginBlocking
  split_ifs
  · exact SameSession.refl s
  · split
    · exact SameSession.refl s
    · exact sameSession_of_eq rfl rfl

theorem session_beginBlocking {s : Manager} (h : Session s) (hop : s.op = .idle) :
    Session s.beginBlocking := by
  unfold Manager.beginBlocking
  split_ifs with hup
  · exact h
  · split
    · exact h
    · rename_i k hhost
      refine session_quiet h (sameSession_of_eq rfl rfl)
        (Or.inr ⟨by rw [hop]; rfl, rfl⟩) (fun _ ↦ Or.inr ?_) fun _ ↦ by simp [hhost]
      have hdown : s.tunnelUp = false ∧ s.mux = none := by simpa using hup
      exact hdown.2

theorem sameSession_holdForBlocking (s : Manager) (excludes : Bool) :
    SameSession s (s.holdForBlocking excludes) := by
  unfold Manager.holdForBlocking
  split_ifs
  · exact SameSession.refl s
  · exact (sameSession_unheld s).trans (sameSession_exclude _ _ excludes)

theorem session_holdForBlocking {s : Manager} (h : Session s) (excludes : Bool)
    (hop : s.op = .idle) : Session (s.holdForBlocking excludes) := by
  unfold Manager.holdForBlocking
  split_ifs
  · exact h
  · exact session_exclude h (sameSession_unheld s) hop rfl excludes

theorem session_establishFailed {s : Manager} (h : Session s) {r : Request}
    (hop : s.op = .requesting r) : Session (s.establishFailed r) := by
  have hcalm : s.op.calm = true := by
    rw [hop]
    rfl
  have hheld : Session (s.finishHold r) :=
    session_settled h (sameSession_finishHold s r) hcalm (by rw [finishHold_op]; rfl)
      (by rw [finishHold_op]; rfl) (by simp)
  cases r with
  | first engine | replace engine =>
    exact session_settled h (sameSession_of_eq rfl rfl) hcalm rfl rfl
      (by simp [Manager.establishFailed])
  | blocking =>
    have hmux : s.mux = none := h.link.raising (by rw [hop]; rfl)
    refine session_closed h (SameTuns.refl s) (fun _ ↦ rfl) hmux (by simp [hop]) rfl rfl
      (.of_eq rfl) rfl rfl ?_ rfl rfl
    intro k hk
    refine ⟨?_, rfl⟩
    simpa [Manager.establishFailed] using hk
  | excludeForHandover | excludeForBlocking | excludeConverted => exact hheld

theorem session_established {s : Manager} (h : Session s) {r : Request} {k : HostId}
    (hop : s.op = .requesting r) (hhost : s.host = some k) :
    Session { s.establish k with op := .notifying r (s.generations + 1) } := by
  have hsame : SameTuns (s.establish k)
      { s.establish k with op := .notifying r (s.generations + 1) } :=
    .of_eq rfl
  exact ⟨link_establish h.link h.ledger ⟨hsame, establish_listening s k, rfl, rfl, rfl, rfl,
    Or.inr ⟨⟨r, hop, rfl⟩, hhost, rfl⟩⟩, (ledger_establish h.ledger k).congr hsame⟩

/-- A notification of the attached host that is newer than all before it. -/
theorem onTunReplaced_fresh {s : Manager} {k : HostId} {g : ℕ} (hhost : s.host = some k)
    (hlt : s.appliedGeneration < g) :
    s.onTunReplaced k g =
      Manager.releasePreviousTun { s with
        appliedGeneration := g
        mux := s.mux.map fun mux ↦ { mux with tun := g }
        tunnelUp := true } k g := by
  simp [Manager.onTunReplaced, hhost, Nat.not_le_of_lt hlt]

/-- A notification of a host that is not attached, or one that is not newer than another before it.
-/
theorem onTunReplaced_stale {s : Manager} {k : HostId} {g : ℕ}
    (hstale : s.host ≠ some k ∨ g ≤ s.appliedGeneration) :
    s.onTunReplaced k g = s.releasePreviousTun k g := by
  unfold Manager.onTunReplaced
  split_ifs with hhost hle
  · rfl
  · rfl
  · exact absurd hstale (by simp [hle, not_not.mp hhost])

/-- What the thread in the monitor has done after its own notification. -/
theorem sameSession_notified {s : Manager} (r : Request) (g : ℕ) (hup : s.tunnelUp = true) :
    SameSession s (s.notified r g) := by
  cases r with
  | first engine | blocking =>
    exact sameSession_of_eq rfl (by simp [Manager.notified, hup])
  | replace engine => exact sameSession_of_eq rfl rfl
  | excludeForHandover => exact sameSession_finishHold s .excludeForHandover
  | excludeForBlocking => exact sameSession_finishHold s .excludeForBlocking
  | excludeConverted => exact sameSession_finishHold s .excludeConverted

/-- Where the thread in the monitor is after its own notification. -/
theorem notified_op (s : Manager) (r : Request) (g : ℕ) :
    (s.notified r g).op.calm = true ∧ (s.notified r g).op.raising = false ∨
      (s.notified r g).op = .starting r g ∧ (Op.notifying r g).raising = true := by
  cases r with
  | first engine | blocking => exact Or.inr ⟨rfl, rfl⟩
  | replace engine | excludeForHandover | excludeForBlocking | excludeConverted =>
    exact Or.inl ⟨rfl, rfl⟩

/-- The packet path moves onto the TUN of the thread in the monitor. -/
theorem session_moved {s s' : Manager} (h : Session s) {r : Request} {k : HostId} {g : ℕ}
    (hop : s.op = .notifying r g) (hhost : s.host = some k)
    (hsame : SameSession (Manager.releasePreviousTun { s with
      appliedGeneration := g
      mux := s.mux.map fun mux ↦ { mux with tun := g }
      tunnelUp := true } k g) s')
    (hplace : s'.op.calm = true ∧ s'.op.raising = false ∨
      s'.op = .starting r g ∧ (Op.notifying r g).raising = true) : Session s' := by
  obtain ⟨-, howner, -⟩ := h.link.notifying r g k hop hhost
  obtain ⟨htuns₀, hlistening, hhost', hmux, hup, happlied, hflight⟩ := hsame
  have htuns : SameTuns (s.releasePreviousTun k g) s' :=
    ⟨htuns₀.live, htuns₀.superseded, htuns₀.closed, htuns₀.owner, htuns₀.generations⟩
  have hnotifying : ∀ r' x, s'.op ≠ .notifying r' x := by
    intro r' x hr'
    rcases hplace with ⟨hcalm, -⟩ | ⟨hstarting, -⟩
    · rw [hr'] at hcalm
      cases hcalm
    · rw [hr'] at hstarting
      cases hstarting
  have hstarting : ∀ r' x, s'.op = .starting r' x → x = g := by
    intro r' x hr'
    rcases hplace with ⟨hcalm, -⟩ | ⟨hstarting, -⟩
    · rw [hr'] at hcalm
      cases hcalm
    · rw [hr'] at hstarting
      exact (Op.starting.inj hstarting).2
  refine ⟨link_moved h.link h.ledger howner hhost htuns (fun j ↦ ?_) hhost' happlied hmux hup
    (fun hr ↦ ?_) ?_ ?_ hnotifying hstarting ?_,
    (ledger_releasePrevious h.ledger k g).congr htuns⟩
  · rw [hlistening]
    exact releasePrevious_listening s k j g
  · rcases hplace with ⟨-, hcalm⟩ | ⟨-, hraising⟩
    · rw [hcalm] at hr
      cases hr
    · exact h.link.raising (by rw [hop]; exact hraising)
  · rw [hflight]
    exact List.Sublist.refl _
  · rintro j x (⟨n, hn, hnj, hnx⟩ | ⟨r', hr', hj⟩) hne
    · exact Or.inl ⟨n, by rw [hflight]; exact hn, hnj, hnx⟩
    · rw [hop] at hr'
      obtain ⟨-, rfl⟩ := Op.notifying.inj hr'
      exact absurd ⟨Option.some.inj (hj.symm.trans hhost), rfl⟩ hne
  · intro f hf
    refine ⟨?_, g, Nat.le_refl g, Or.inr (Or.inl ⟨r, hop⟩)⟩
    rcases hf with ⟨-, rfl⟩ | ⟨r', hr'⟩ | ⟨r', hr'⟩
    · exact happlied
    · exact absurd hr' (hnotifying r' f)
    · exact hstarting r' f hr'

/-- The thread in the monitor makes its own notification, which is always the newest that the
manager has seen. -/
theorem session_notified {s : Manager} (h : Session s) {r : Request} {g : ℕ} {k : HostId}
    (hop : s.op = .notifying r g) (hhost : s.host = some k) :
    Session ((s.onTunReplaced k g).notified r g) := by
  obtain ⟨hlt, -, -⟩ := h.link.notifying r g k hop hhost
  rw [onTunReplaced_fresh hhost hlt]
  exact session_moved h hop hhost (sameSession_notified r g rfl) (notified_op _ r g)

theorem session_muxStarted {s : Manager} (h : Session s) {r : Request} {g : ℕ}
    (hop : s.op = .starting r g) (started : Bool) : Session (s.muxStarted r g started) := by
  unfold Manager.muxStarted
  split_ifs
  · refine ⟨link_started h.link (.of_eq rfl) hop ?_ (fun _ ↦ rfl)
      rfl rfl rfl rfl ?_ rfl, h.ledger.congr (.of_eq rfl)⟩
    · cases r <;> rfl
    · cases r <;> rfl
  · have hmux : s.mux = none := h.link.raising (by rw [hop]; rfl)
    refine session_closed h (SameTuns.refl s) (fun _ ↦ rfl) hmux (by simp [hop]) rfl rfl
      (.of_eq rfl) rfl rfl ?_ rfl rfl
    intro k hk
    refine ⟨?_, rfl⟩
    simpa using hk

theorem session_requestTun {s : Manager} (h : Session s) (k : HostId) :
    Session { s.establish k with inFlight := ⟨k, s.generations + 1, false⟩ :: s.inFlight } := by
  have hsame : SameTuns (s.establish k)
      { s.establish k with inFlight := ⟨k, s.generations + 1, false⟩ :: s.inFlight } :=
    .of_eq rfl
  exact ⟨link_establish h.link h.ledger ⟨hsame, establish_listening s k, rfl, rfl, rfl, rfl,
    Or.inl ⟨rfl, rfl⟩⟩, (ledger_establish h.ledger k).congr hsame⟩

/-- A notification that moves nothing and closes what its TUN superseded. -/
theorem session_stale {s : Manager} (h : Session s) {n : Notification}
    (hstale : s.host ≠ some n.host ∨ n.tun ≤ s.appliedGeneration) :
    Session { s.releasePreviousTun n.host n.tun with inFlight := s.inFlight.erase n } := by
  have hsame : SameTuns (s.releasePreviousTun n.host n.tun)
      { s.releasePreviousTun n.host n.tun with inFlight := s.inFlight.erase n } :=
    .of_eq rfl
  exact ⟨link_stale h.link h.ledger hstale hsame
    (fun j ↦ releasePrevious_listening s n.host j n.tun) rfl rfl rfl rfl rfl rfl,
    (ledger_releasePrevious h.ledger n.host n.tun).congr hsame⟩

theorem session_delivered {s : Manager} (h : Session s) {n : Notification}
    (hmem : n ∈ s.inFlight) (hop : s.op = .idle) :
    Session { s.onTunReplaced n.host n.tun with inFlight := s.inFlight.erase n } := by
  by_cases hstale : s.host ≠ some n.host ∨ n.tun ≤ s.appliedGeneration
  · rw [onTunReplaced_stale hstale]
    exact session_stale h hstale
  · obtain ⟨hhost, hlt⟩ : s.host = some n.host ∧ s.appliedGeneration < n.tun := by
      simpa using hstale
    rw [onTunReplaced_fresh hhost hlt]
    have howner := h.link.flight_owner n hmem
    have hsame : SameTuns (s.releasePreviousTun n.host n.tun)
        { Manager.releasePreviousTun { s with
            appliedGeneration := n.tun
            mux := s.mux.map fun mux ↦ { mux with tun := n.tun }
            tunnelUp := true } n.host n.tun with inFlight := s.inFlight.erase n } :=
      .of_eq rfl
    refine ⟨link_moved h.link h.ledger howner hhost hsame
      (fun j ↦ releasePrevious_listening s n.host j n.tun) rfl rfl rfl rfl ?_ List.erase_sublist
      ?_ ?_ ?_ ?_, (ledger_releasePrevious h.ledger n.host n.tun).congr hsame⟩
    · intro hr
      exact h.link.raising hr
    · rintro j x (⟨m, hm, rfl, rfl⟩ | ⟨r, hr, -⟩) hne
      · refine Or.inl ⟨m, ?_, rfl, rfl⟩
        exact (List.mem_erase_of_ne fun heq ↦ hne (by rw [heq]; exact ⟨rfl, rfl⟩)).mpr hm
      · rw [hop] at hr
        cases hr
    · intro r x hr
      exact absurd (hop.symm.trans hr) (by simp)
    · intro r x hr
      exact absurd (hop.symm.trans hr) (by simp)
    · rintro f (⟨hmux, rfl⟩ | ⟨r, hr⟩ | ⟨r, hr⟩)
      · refine ⟨rfl, s.appliedGeneration, Nat.le_of_lt hlt, Or.inl ⟨?_, rfl⟩⟩
        simpa [Manager.releasePreviousTun] using hmux
      · exact absurd (hop.symm.trans hr) (by simp)
      · exact absurd (hop.symm.trans hr) (by simp)

/-- Every step keeps the invariant, if a host is attached only while there is no mux. -/
theorem session_step {s s' : Manager} {a : Action} (h : Session s)
    (hattach : ∀ k, a = .attachHost k → s.mux = none) (hstep : step s a = some s') :
    Session s' := by
  cases step_move hstep with
  | @attachHost k hop =>
    refine ⟨link_attachHost h.link k hop (hattach k rfl), h.ledger.congr ?_⟩
    refine ⟨fun j ↦ ?_, fun j ↦ ?_, rfl, rfl, rfl⟩ <;>
      simp only [Manager.attachHost, Manager.setHost, Function.update_apply] <;>
      split_ifs with hj <;> first | rw [hj] | rfl
  | detachHost hop => exact session_detachHost h _ hop
  | connect hop => exact session_connect h _ _ hop
  | disconnect hop => exact session_disconnect h _ _ hop
  | revoked hop => exact session_onRevoked h hop
  | released hop => exact session_releaseHeldTunnel h hop
  | beginBlocking hop => exact session_beginBlocking h hop
  | holdForBlocking hop => exact session_holdForBlocking h _ hop
  | established hop hhost => exact session_established h hop hhost
  | establishFailed hop => exact session_establishFailed h hop
  | notified hop hhost => exact session_notified h hop hhost
  | muxStarted hop => exact session_muxStarted h hop _
  | attached hop =>
    exact session_settled h (sameSession_of_eq rfl rfl) (by rw [hop]; rfl) rfl rfl (by simp)
  | requestTun => exact session_requestTun h _
  | listened hmem => exact ⟨link_readListener h.link hmem, h.ledger.congr (.of_eq rfl)⟩
  | @unheard n _ _ hlistening =>
    exact session_stale h (Or.inl fun hhost ↦ hlistening (h.link.listening n.host hhost))
  | delivered hmem _ hop => exact session_delivered h hmem hop
  | @destroyed k hother =>
    exact ⟨link_destroy h.link h.ledger hother rfl, ledger_releaseTun h.ledger k⟩
  | startedTask =>
    exact session_quiet h (sameSession_of_eq rfl rfl) (Or.inl rfl) Or.inl h.link.op_host
  | @expired t blocking _ hop =>
    have hexpired := session_onHoldExpired h blocking hop
    exact session_quiet hexpired (sameSession_of_eq rfl rfl) (Or.inl rfl) Or.inl
      hexpired.link.op_host

theorem session_initial : Session Manager.initial := by
  refine ⟨?_, ?_⟩
  · constructor <;> simp [Manager.initial, Host.fresh, Op.raising]
  · constructor <;> simp [Manager.initial, Host.fresh]

end WindscribeVpn.Tunnel.TunnelManager
