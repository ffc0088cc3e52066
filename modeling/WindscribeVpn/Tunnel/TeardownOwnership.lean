import WindscribeVpn.Tunnel.DeferredTeardown

/-!
# What a teardown may touch

A deferred teardown has to stop what it was handed and nothing else. `Sound` says so of one state:
the teardown thread stops no run and closes no descriptor but those of its task, the mux of the
session is not a stopped one, the active engine is running, and once the tasks are through, so are
the runs they were taken from.

An engine object does not remember which run it was asked to stop, so all of this rests on
`Drained`: no engine is started while a task still holds it. The proof goes bottom up. `exec_only`
and `Steady` are about one thread at an object that nobody else touches, `Held` says that an object
is always in the hands of one thread at most and what it has in it then, and `Muxes` is the same for
the muxes. `sound_of_drained` puts them together, and `not_sound_restarted` is what happens without
the condition.
-/

set_option autoImplicit false
set_option relaxedAutoImplicit false

namespace WindscribeVpn.Tunnel.DeferredTeardown

open Foundations.Runs
open TunnelManager (Engine)

/-- The run a task was taken from. -/
def Task.run (task : Task) : Option ℕ := task.engine.map Prod.snd

/-- What a deferred teardown promises in a state. -/
structure Sound (s : Process) : Prop where
  /-- The teardown thread stops no run but that of its task. -/
  own_run : ∀ w s', s.worker = some w → step s .work = some s' → ∀ e r,
    (s.engines e).native = some r → (s'.engines e).native ≠ some r → w.task.run = some r
  /-- It closes no descriptor but that of its task's run. -/
  own_fd : ∀ w s', s.worker = some w → step s .work = some s' → ∀ r ∈ s'.closed, r ∉ s.closed →
    w.task.run = some r
  /-- The mux of the session is not a stopped one. -/
  own_mux : ∀ x, s.mux = some x → x ∉ s.stopped
  /-- While the monitor is free, the active engine is running on an open descriptor. -/
  active_running : s.monitor = .idle → ∀ e r, s.active = some (e, r) →
    (s.engines e).native = some r ∧ r ∉ s.closed
  /-- Once every task has run, so that none is left, the runs they were taken from are stopped. -/
  drained : s.queue = [] → s.worker = none → ∀ r ∈ s.taken, ∀ e, (s.engines e).native ≠ some r

/-- The engine a phase of the teardown is at. -/
def Phase.holder : Phase → List (Engine × ℕ)
  | .revoking t | .stopping t => [(t.engine, t.run)]
  | .mux => []

/-- The engines that tasks still hold, with their runs. -/
def Process.tasksHold (s : Process) : List (Engine × ℕ) :=
  (s.worker.map fun w ↦ w.phase.holder).getD [] ++ s.queue.filterMap Task.engine

/-- No engine is started while a task still holds it. -/
def Drained (s : Process) : Action → Prop
  | .start =>
    match s.monitor with
    | .ready e => e ∉ s.tasksHold.map Prod.fst
    | _ => True
  | _ => True

instance decidableDrained (s : Process) (a : Action) : Decidable (Drained s a) := by
  unfold Drained
  split
  · split <;> infer_instance
  · infer_instance

/-! ### One thread -/

/-- An engine object that only one run has left anything in. -/
structure Only (r : ℕ) (e : EngineObject) : Prop where
  handle : ∀ x, e.handle = some x → x = r
  engineFd : ∀ x, e.engineFd = some x → x = r
  native : ∀ x, e.native = some x → x = r

/-- The run an instruction names, if it names one, is this one. -/
def Instr.About (r : ℕ) : Instr → Prop
  | .setHandle x | .setFd x | .turnOn x | .closeOwn x => x = r
  | _ => True

/-- A thread and the object it is at know one run only. -/
structure Steady (t : Thread) (e : EngineObject) : Prop where
  only : Only t.run e
  loaded : ∀ x, t.loaded = some x → x = t.run
  code : ∀ i ∈ t.code, i.About t.run

/-- An instruction about a run leaves only that run behind and closes only its descriptor. -/
theorem exec_only {r : ℕ} {i : Instr} {e : EngineObject} {loaded : Option ℕ} (hi : i.About r)
    (honly : Only r e) (hloaded : ∀ x, loaded = some x → x = r) :
    Only r (i.exec e loaded).object ∧ (∀ x, (i.exec e loaded).loaded = some x → x = r) ∧
      ∀ x ∈ (i.exec e loaded).closes, x = r := by
  obtain ⟨hhandle, hfd, hnative⟩ := honly
  have hsame : Only r e := ⟨hhandle, hfd, hnative⟩
  cases i with
  | load => exact ⟨hsame, hhandle, by simp [Instr.exec]⟩
  | returnIfNull | returnUnlessCurrent => exact ⟨hsame, hloaded, by simp [Instr.exec]⟩
  | clearHandle => exact ⟨⟨by simp [Instr.exec], hfd, hnative⟩, hloaded, by simp [Instr.exec]⟩
  | turnOff =>
    refine ⟨⟨hhandle, hfd, by simp [Instr.exec]⟩, hloaded, fun x hx ↦ hnative x ?_⟩
    exact Option.mem_toList.mp hx
  | stopNative => exact ⟨⟨hhandle, hfd, by simp [Instr.exec]⟩, hloaded, by simp [Instr.exec]⟩
  | stopNativeIfLoaded =>
    refine ⟨?_, hloaded, by simp [Instr.exec]⟩
    simp only [Instr.exec]
    split_ifs
    · exact ⟨hhandle, hfd, by simp⟩
    · exact hsame
  | closeFd => exact ⟨hsame, hloaded, fun x hx ↦ hfd x (Option.mem_toList.mp hx)⟩
  | clearFd => exact ⟨⟨hhandle, by simp [Instr.exec], hnative⟩, hloaded, by simp [Instr.exec]⟩
  | setHandle x =>
    exact ⟨⟨by simpa [Instr.exec, Instr.About] using hi, hfd, hnative⟩, hloaded,
      by simp [Instr.exec]⟩
  | setFd x =>
    exact ⟨⟨hhandle, by simpa [Instr.exec, Instr.About] using hi, hnative⟩, hloaded,
      by simp [Instr.exec]⟩
  | turnOn x =>
    exact ⟨⟨hhandle, hfd, by simpa [Instr.exec, Instr.About] using hi⟩, hloaded,
      by simp [Instr.exec]⟩
  | closeOwn x => exact ⟨hsame, hloaded, by simpa [Instr.exec, Instr.About] using hi⟩

/-- What a thread leaves behind and closes when nobody else touches its object. -/
def solo : List Instr → EngineObject → Option ℕ → EngineObject × List ℕ
  | [], e, _ => (e, [])
  | i :: rest, e, loaded =>
    let effect := i.exec e loaded
    let last :=
      if effect.returns then (effect.object, []) else solo rest effect.object effect.loaded
    (last.1, effect.closes ++ last.2)

/-- The object of a run that is up. -/
def intact (r : ℕ) : Engine → EngineObject
  | .wireGuard => ⟨some r, none, some r⟩
  | .openVpn => ⟨some r, some r, some r⟩
  | .ikev2 => ⟨none, some r, some r⟩

theorem only_clean (r : ℕ) : Only r EngineObject.clean := by
  constructor <;> simp [EngineObject.clean]

theorem only_intact (r : ℕ) (e : Engine) : Only r (intact r e) := by
  cases e <;> constructor <;> simp [intact]

theorem intact_native (r : ℕ) (e : Engine) : (intact r e).native = some r := by
  cases e <;> rfl

theorem about_stop (r : ℕ) (e : Engine) : ∀ i ∈ stop e, i.About r := by
  cases e <;> simp [stop, Instr.About]

theorem about_onRevoked (r : ℕ) (e : Engine) : ∀ i ∈ onRevoked e, i.About r := by
  cases e <;> simp [onRevoked, Instr.About]

theorem about_start (r : ℕ) (e : Engine) : ∀ i ∈ start r e, i.About r := by
  cases e <;> simp [start, Instr.About]

theorem about_startFailed (r : ℕ) (e : Engine) : ∀ i ∈ startFailed r e, i.About r := by
  cases e <;> simp [startFailed, Instr.About]

/-- `stop` takes a run that is up down. -/
theorem solo_stop_intact (r : ℕ) (e : Engine) : (solo (stop e) (intact r e) none).1 = .clean := by
  cases e <;> simp [solo, stop, intact, Instr.exec, EngineObject.clean]

/-- `stop` does nothing to an object with nothing in it. -/
theorem solo_stop_clean (e : Engine) : (solo (stop e) .clean none).1 = .clean := by
  cases e <;> simp [solo, stop, Instr.exec, EngineObject.clean]

/-- `onRevoked` takes a run that is up down. -/
theorem solo_onRevoked_intact (r : ℕ) (e : Engine) :
    (solo (onRevoked e) (intact r e) none).1 = .clean := by
  cases e <;> simp [solo, onRevoked, intact, Instr.exec, EngineObject.clean]

/-- `start` brings a run up on an object with nothing in it, and closes nothing. -/
theorem solo_start_clean (r : ℕ) (e : Engine) :
    solo (start r e) .clean none = (intact r e, []) := by
  cases e <;> simp [solo, start, intact, Instr.exec, EngineObject.clean]

/-- The `catch` of `start` leaves nothing behind. -/
theorem solo_startFailed (r : ℕ) (e : Engine) :
    (solo (startFailed r e)
      (solo ((start r e).takeWhile (· ≠ .turnOn r)) .clean none).1 none).1 = .clean := by
  cases e <;> simp [solo, startFailed, start, Instr.exec, EngineObject.clean]

section Exec

variable {s : Process} {t : Thread} {i : Instr} {rest : List Instr}

theorem exec_self :
    (s.exec t i rest).1.engines t.engine = (i.exec (s.engines t.engine) t.loaded).object := by
  simp [Process.exec]

theorem exec_other {e : Engine} (he : e ≠ t.engine) :
    (s.exec t i rest).1.engines e = s.engines e := by
  simp [Process.exec, he]

theorem mem_exec_closed {x : ℕ} : x ∈ (s.exec t i rest).1.closed ↔
    x ∈ (i.exec (s.engines t.engine) t.loaded).closes ∨ x ∈ s.closed := by
  simp [Process.exec]

theorem steady_exec (h : Steady t (s.engines t.engine)) (hcode : t.code = i :: rest) :
    Steady (s.exec t i rest).2 ((s.exec t i rest).1.engines t.engine) := by
  obtain ⟨honly, hloaded, habout⟩ := h
  obtain ⟨honly', hloaded', -⟩ := exec_only (habout i (by simp [hcode])) honly hloaded
  refine ⟨by rw [exec_self]; exact honly', hloaded', fun j hj ↦ habout j ?_⟩
  have hrest : j ∈ rest := by
    have hmem : j ∈ if (i.exec (s.engines t.engine) t.loaded).returns then [] else rest := hj
    split_ifs at hmem
    · cases hmem
    · exact hmem
  exact hcode ▸ List.mem_cons_of_mem i hrest

/-- A thread closes only the descriptor of its own run. -/
theorem closed_exec (h : Steady t (s.engines t.engine)) (hcode : t.code = i :: rest) {x : ℕ}
    (hx : x ∈ (s.exec t i rest).1.closed) : x = t.run ∨ x ∈ s.closed := by
  obtain ⟨honly, hloaded, habout⟩ := h
  obtain ⟨-, -, hcloses⟩ := exec_only (habout i (by simp [hcode])) honly hloaded
  exact (mem_exec_closed.mp hx).imp_left (hcloses x)

/-- A thread that nobody disturbs is on its way to the same end after each instruction. -/
theorem solo_exec (hcode : t.code = i :: rest) :
    solo t.code (s.engines t.engine) t.loaded =
      ((solo (s.exec t i rest).2.code ((s.exec t i rest).1.engines t.engine)
          (s.exec t i rest).2.loaded).1,
        (i.exec (s.engines t.engine) t.loaded).closes ++
          (solo (s.exec t i rest).2.code ((s.exec t i rest).1.engines t.engine)
            (s.exec t i rest).2.loaded).2) := by
  rw [hcode, exec_self]
  by_cases hreturns : (i.exec (s.engines t.engine) t.loaded).returns = true
  · simp [solo, Process.exec, hreturns]
  · simp [solo, Process.exec, hreturns]

end Exec

/-- A thread that is stopping a run. -/
structure Stopping (t : Thread) (e : EngineObject) : Prop extends Steady t e where
  ends : (solo t.code e t.loaded).1 = .clean

/-- A thread that is revoking a run, and stops it afterwards. -/
structure Revoking (t : Thread) (e : EngineObject) : Prop extends Steady t e where
  ends : (solo (stop t.engine) (solo t.code e t.loaded).1 none).1 = .clean

/-- A thread that is starting a run: it brings the run up, and leaves nothing behind if the native
backend refuses. -/
structure Starting (t : Thread) (e : EngineObject) : Prop extends Steady t e where
  ends : solo t.code e t.loaded = (intact t.run t.engine, [])
  once : t.code.count (.turnOn t.run) ≤ 1
  fails : .turnOn t.run ∈ t.code →
    (solo (startFailed t.run t.engine)
      (solo (t.code.takeWhile (· ≠ .turnOn t.run)) e t.loaded).1 none).1 = .clean

theorem stopping_exec {s : Process} {t : Thread} {i : Instr} {rest : List Instr}
    (h : Stopping t (s.engines t.engine)) (hcode : t.code = i :: rest) :
    Stopping (s.exec t i rest).2 ((s.exec t i rest).1.engines t.engine) := by
  refine ⟨steady_exec h.toSteady hcode, ?_⟩
  have hends := h.ends
  rw [solo_exec hcode] at hends
  exact hends

theorem revoking_exec {s : Process} {t : Thread} {i : Instr} {rest : List Instr}
    (h : Revoking t (s.engines t.engine)) (hcode : t.code = i :: rest) :
    Revoking (s.exec t i rest).2 ((s.exec t i rest).1.engines t.engine) := by
  refine ⟨steady_exec h.toSteady hcode, ?_⟩
  have hends := h.ends
  rw [solo_exec hcode] at hends
  exact hends

theorem starting_exec {s : Process} {t : Thread} {i : Instr} {rest : List Instr}
    (h : Starting t (s.engines t.engine)) (hcode : t.code = i :: rest) :
    Starting (s.exec t i rest).2 ((s.exec t i rest).1.engines t.engine) ∧
      (s.exec t i rest).1.closed = s.closed := by
  have hends := h.ends
  rw [solo_exec hcode, Prod.mk.injEq, List.append_eq_nil_iff] at hends
  obtain ⟨hlast, hcloses, hrest⟩ := hends
  have hcount := h.once
  rw [hcode, List.count_cons] at hcount
  have hcode' : (s.exec t i rest).2.code = [] ∨
      (s.exec t i rest).2.code = rest ∧
        (i.exec (s.engines t.engine) t.loaded).returns = false := by
    simp only [Process.exec]
    split_ifs with hreturns
    · exact Or.inl rfl
    · exact Or.inr ⟨rfl, by simpa using hreturns⟩
  refine ⟨⟨steady_exec h.toSteady hcode, Prod.ext hlast hrest, ?_, fun hmem ↦ ?_⟩, ?_⟩
  · rcases hcode' with hnil | ⟨hsame, -⟩
    · rw [hnil]
      exact Nat.zero_le _
    · rw [hsame]
      exact Nat.le_trans (Nat.le_add_right _ _) hcount
  · rcases hcode' with hnil | ⟨hsame, hreturns⟩
    · rw [hnil] at hmem
      cases hmem
    · rw [hsame] at hmem ⊢
      have hpos : 0 < rest.count (.turnOn t.run) := List.count_pos_iff.mpr hmem
      have hne : i ≠ .turnOn t.run := by
        rintro rfl
        simp only [BEq.rfl, if_true] at hcount
        omega
      have hfails := h.fails (by rw [hcode]; exact List.mem_cons_of_mem _ hmem)
      rw [hcode, List.takeWhile_cons_of_pos (by simpa using hne)] at hfails
      rw [exec_self]
      simp only [solo, hreturns, Bool.false_eq_true, if_false] at hfails
      exact hfails
  · simp [Process.exec, hcloses]

/-! ### Who holds an engine -/

/-- The engine the thread in the monitor, or the manager itself, holds. -/
def Process.managerHolds (s : Process) : List (Engine × ℕ) :=
  match s.monitor with
  | .idle | .ready _ => s.active.toList
  | .stopping t _ | .starting t | .failing t => [(t.engine, t.run)]

/-- What is known of the engine the manager holds. -/
def ManagerOk (s : Process) : Prop :=
  match s.monitor with
  | .idle => ∀ e r, s.active = some (e, r) → s.engines e = intact r e ∧ r ∉ s.closed
  | .ready _ => s.active = none
  | .stopping t _ => s.active = none ∧ Stopping t (s.engines t.engine)
  | .starting t => s.active = some (t.engine, t.run) ∧ Starting t (s.engines t.engine) ∧
      t.run ∉ s.closed
  | .failing t => Stopping t (s.engines t.engine)

/-- What is known of the engine the teardown thread holds. -/
def PhaseOk (s : Process) : Phase → Prop
  | .revoking t => Revoking t (s.engines t.engine)
  | .stopping t => Stopping t (s.engines t.engine)
  | .mux => True

/-- Every engine has one holder at most, and an engine that nobody holds has nothing in it. -/
structure Held (s : Process) : Prop where
  engines_nodup : ((s.managerHolds ++ s.tasksHold).map Prod.fst).Nodup
  runs_nodup : ((s.managerHolds ++ s.tasksHold).map Prod.snd).Nodup
  bound : ∀ x ∈ s.managerHolds ++ s.tasksHold, x.2 < s.nextRun
  free : ∀ e, e ∉ (s.managerHolds ++ s.tasksHold).map Prod.fst → s.engines e = .clean
  manager : ManagerOk s
  worker : ∀ w, s.worker = some w → PhaseOk s w.phase
  phase : ∀ w, s.worker = some w → ∀ x ∈ w.phase.holder, w.task.engine = some x
  queue : ∀ task ∈ s.queue, ∀ e r, task.engine = some (e, r) → s.engines e = intact r e
  closed : ∀ r ∈ s.closed, r < s.nextRun
  taken : ∀ r ∈ s.taken, r < s.nextRun ∧ r ∉ s.managerHolds.map Prod.snd

/-- The muxes of the tasks are not the current one. -/
structure Muxes (s : Process) : Prop where
  current : ∀ x, s.mux = some x → x < s.nextMux ∧ x ∉ s.stopped
  stopped : ∀ x ∈ s.stopped, x < s.nextMux
  worker : ∀ w x, s.worker = some w → w.task.mux = some x → x < s.nextMux ∧ s.mux ≠ some x
  queue : ∀ task ∈ s.queue, ∀ x, task.mux = some x → x < s.nextMux ∧ s.mux ≠ some x

/-- Two states that agree on who holds what, and on the objects and descriptors that are held by the
manager. -/
theorem managerOk_congr {s s' : Process} (h : ManagerOk s) (hmonitor : s'.monitor = s.monitor)
    (hactive : s'.active = s.active)
    (hengines : ∀ x ∈ s.managerHolds, s'.engines x.1 = s.engines x.1)
    (hclosed : ∀ x ∈ s.managerHolds, x.2 ∈ s'.closed → x.2 ∈ s.closed) : ManagerOk s' := by
  unfold ManagerOk at h ⊢
  unfold Process.managerHolds at hengines hclosed
  rw [hmonitor]
  split at h
  · rename_i hidle
    simp only [hidle] at hengines hclosed
    rw [hactive]
    intro e r hr
    have hmem : (e, r) ∈ s.active.toList := by simp [hr]
    rw [hengines _ hmem]
    exact ⟨(h e r hr).1, fun hgone ↦ (h e r hr).2 (hclosed _ hmem hgone)⟩
  · exact hactive.trans h
  · rename_i t next hstopping
    simp only [hstopping] at hengines
    rw [hactive, hengines (t.engine, t.run) (by simp)]
    exact h
  · rename_i t hstarting
    simp only [hstarting] at hengines hclosed
    rw [hactive, hengines (t.engine, t.run) (by simp)]
    exact ⟨h.1, h.2.1, fun hgone ↦ h.2.2 (hclosed (t.engine, t.run) (by simp) hgone)⟩
  · rename_i t hfailing
    simp only [hfailing] at hengines
    rw [hengines (t.engine, t.run) (by simp)]
    exact h

theorem phaseOk_congr {s s' : Process} {p : Phase} (h : PhaseOk s p)
    (hengines : ∀ x ∈ p.holder, s'.engines x.1 = s.engines x.1) : PhaseOk s' p := by
  cases p with
  | revoking t | stopping t =>
    have hsame := hengines (t.engine, t.run) (by simp [Phase.holder])
    unfold PhaseOk at h ⊢
    dsimp only at hsame ⊢
    rw [hsame]
    exact h
  | mux => trivial

/-! ### Steps -/

/-- What the manager holds and what a task holds are different engines and different runs. -/
theorem Held.apart {s : Process} (h : Held s) {x y : Engine × ℕ} (hx : x ∈ s.managerHolds)
    (hy : y ∈ s.tasksHold) : y.1 ≠ x.1 ∧ y.2 ≠ x.2 := by
  have hengines := h.engines_nodup
  have hruns := h.runs_nodup
  rw [List.map_append] at hengines hruns
  refine ⟨fun heq ↦ ?_, fun heq ↦ ?_⟩
  · exact (List.disjoint_of_nodup_append hengines) (List.mem_map_of_mem hx)
      (heq ▸ List.mem_map_of_mem hy)
  · exact (List.disjoint_of_nodup_append hruns) (List.mem_map_of_mem hx)
      (heq ▸ List.mem_map_of_mem hy)

theorem mem_tasksHold_of_phase {s : Process} {w : Worker} (hw : s.worker = some w)
    {x : Engine × ℕ} (hx : x ∈ w.phase.holder) : x ∈ s.tasksHold := by
  unfold Process.tasksHold
  rw [hw]
  exact List.mem_append_left _ hx

theorem mem_tasksHold_of_queue {s : Process} {task : Task} (htask : task ∈ s.queue)
    {x : Engine × ℕ} (hx : task.engine = some x) : x ∈ s.tasksHold :=
  List.mem_append_right _ (List.mem_filterMap.mpr ⟨task, htask, hx⟩)

/-- A step that changes nothing but the place of the thread in the monitor. -/
theorem held_moved {s s' : Process} (h : Held s) (hholds : s'.managerHolds = s.managerHolds)
    (hmanager : ManagerOk s')
    (hrest : (s'.engines, s'.closed, s'.nextRun, s'.queue, s'.worker, s'.taken) =
      (s.engines, s.closed, s.nextRun, s.queue, s.worker, s.taken)) : Held s' := by
  simp only [Prod.mk.injEq] at hrest
  obtain ⟨hengines, hclosed, hnext, hqueue, hworker, htaken⟩ := hrest
  have htasks : s'.tasksHold = s.tasksHold := by
    simp only [Process.tasksHold, hworker, hqueue]
  obtain ⟨hen, hrn, hbo, hfr, -, hwo, hph, hqu, hcl, hta⟩ := h
  exact
    { engines_nodup := by
        rw [hholds, htasks]
        exact hen
      runs_nodup := by
        rw [hholds, htasks]
        exact hrn
      bound := by
        rw [hholds, htasks, hnext]
        exact hbo
      free := by
        rw [hholds, htasks, hengines]
        exact hfr
      manager := hmanager
      worker := by
        rw [hworker]
        exact fun w hw ↦ phaseOk_congr (hwo w hw) fun x _ ↦ by rw [hengines]
      phase := by
        rw [hworker]
        exact hph
      queue := by
        rw [hqueue, hengines]
        exact hqu
      closed := by
        rw [hclosed, hnext]
        exact hcl
      taken := by
        rw [htaken, hnext, hholds]
        exact hta }

/-- The thread in the monitor executes an instruction on the engine it holds. -/
theorem held_managerExec {s : Process} {t : Thread} {i : Instr} {rest : List Instr} {m : Monitor}
    (h : Held s) (hholds : s.managerHolds = [(t.engine, t.run)]) (hcode : t.code = i :: rest)
    (hsteady : Steady t (s.engines t.engine))
    (hholds' : Process.managerHolds { (s.exec t i rest).1 with monitor := m } =
      [(t.engine, t.run)])
    (hmanager : ManagerOk { (s.exec t i rest).1 with monitor := m }) :
    Held { (s.exec t i rest).1 with monitor := m } := by
  have hmine : (t.engine, t.run) ∈ s.managerHolds := by rw [hholds]; simp
  have hframe : ∀ e, e ≠ t.engine → (s.exec t i rest).1.engines e = s.engines e :=
    fun e he ↦ exec_other he
  have hothers : ∀ x ∈ s.tasksHold, (s.exec t i rest).1.engines x.1 = s.engines x.1 :=
    fun x hx ↦ hframe x.1 (h.apart hmine hx).1
  have hsame : Process.managerHolds { (s.exec t i rest).1 with monitor := m } = s.managerHolds := by
    rw [hholds', hholds]
  exact
    { engines_nodup := by
        rw [hsame]
        exact h.engines_nodup
      runs_nodup := by
        rw [hsame]
        exact h.runs_nodup
      bound := by
        rw [hsame]
        exact h.bound
      free := by
        rw [hsame]
        intro e he
        have hne : e ≠ t.engine := by
          rintro rfl
          exact he (List.mem_map_of_mem (List.mem_append_left _ hmine))
        exact (hframe e hne).trans (h.free e he)
      manager := hmanager
      worker := fun w hw ↦ phaseOk_congr (h.worker w hw) fun x hx ↦
        hothers x (mem_tasksHold_of_phase hw hx)
      phase := h.phase
      queue := by
        intro task htask e r hr
        exact (hothers (e, r) (mem_tasksHold_of_queue htask hr)).trans (h.queue task htask e r hr)
      closed := by
        intro r hr
        rcases closed_exec hsteady hcode hr with rfl | hold
        · exact h.bound _ (List.mem_append_left _ hmine)
        · exact h.closed r hold
      taken := by
        rw [hsame]
        exact h.taken }

/-- The teardown thread executes an instruction on the engine its task holds. -/
theorem held_workerExec {s : Process} {t : Thread} {i : Instr} {rest : List Instr} {w w' : Worker}
    (h : Held s) (hw : s.worker = some w) (hholder : w.phase.holder = [(t.engine, t.run)])
    (hholder' : w'.phase.holder = [(t.engine, t.run)]) (htask : w'.task = w.task)
    (hcode : t.code = i :: rest) (hsteady : Steady t (s.engines t.engine))
    (hphase : PhaseOk { (s.exec t i rest).1 with worker := some w' } w'.phase) :
    Held { (s.exec t i rest).1 with worker := some w' } := by
  have hmine : (t.engine, t.run) ∈ s.tasksHold := mem_tasksHold_of_phase hw (by rw [hholder]; simp)
  have hsame : Process.tasksHold { (s.exec t i rest).1 with worker := some w' } = s.tasksHold := by
    simp only [Process.tasksHold, hw, Option.map_some, Option.getD_some, hholder, hholder']
    rfl
  have hframe : ∀ e, e ≠ t.engine → (s.exec t i rest).1.engines e = s.engines e :=
    fun e he ↦ exec_other he
  have hothers : ∀ x ∈ s.managerHolds, (s.exec t i rest).1.engines x.1 = s.engines x.1 :=
    fun x hx ↦ hframe x.1 (h.apart hx hmine).1.symm
  have hqueue : ∀ task ∈ s.queue, ∀ x, task.engine = some x → x.1 ≠ t.engine := by
    intro task htask x hx
    have hnodup := h.engines_nodup
    rw [List.map_append] at hnodup
    have htasks := hnodup.of_append_right
    simp only [Process.tasksHold, hw, Option.map_some, Option.getD_some, hholder,
      List.singleton_append, List.map_cons, List.nodup_cons] at htasks
    rintro heq
    exact htasks.1 (heq ▸ List.mem_map_of_mem (List.mem_filterMap.mpr ⟨task, htask, hx⟩))
  exact
    { engines_nodup := by
        rw [hsame]
        exact h.engines_nodup
      runs_nodup := by
        rw [hsame]
        exact h.runs_nodup
      bound := by
        rw [hsame]
        exact h.bound
      free := by
        rw [hsame]
        intro e he
        have hne : e ≠ t.engine := by
          rintro rfl
          exact he (List.mem_map_of_mem (List.mem_append_right _ hmine))
        exact (hframe e hne).trans (h.free e he)
      manager := by
        refine managerOk_congr h.manager rfl rfl hothers fun x hx hgone ↦ ?_
        rcases closed_exec hsteady hcode hgone with hrun | hold
        · exact absurd hrun (h.apart hx hmine).2.symm
        · exact hold
      worker := by
        intro w₁ hw₁
        obtain rfl := Option.some.inj hw₁
        exact hphase
      phase := by
        intro w₁ hw₁ x hx
        obtain rfl := Option.some.inj hw₁
        rw [htask]
        exact h.phase w hw x (by rw [hholder, ← hholder']; exact hx)
      queue := by
        intro task htask' e r hr
        exact (hframe e (hqueue task htask' (e, r) hr)).trans (h.queue task htask' e r hr)
      closed := by
        intro r hr
        rcases closed_exec hsteady hcode hr with rfl | hold
        · exact h.bound _ (List.mem_append_right _ hmine)
        · exact h.closed r hold
      taken := h.taken }

/-- Somebody lets go of an engine it has left nothing in. -/
theorem held_released {s s' : Process} (h : Held s)
    (hmanagerHolds : s'.managerHolds.Sublist s.managerHolds)
    (htasksHold : s'.tasksHold.Sublist s.tasksHold)
    (hreleased : ∀ e, e ∈ (s.managerHolds ++ s.tasksHold).map Prod.fst →
      e ∉ (s'.managerHolds ++ s'.tasksHold).map Prod.fst → s.engines e = .clean)
    (hmanager : ManagerOk s') (hworker : ∀ w, s'.worker = some w → PhaseOk s' w.phase ∧
      ∀ x ∈ w.phase.holder, w.task.engine = some x)
    (hrest : (s'.engines, s'.closed, s'.nextRun, s'.queue, s'.taken) =
      (s.engines, s.closed, s.nextRun, s.queue, s.taken)) : Held s' := by
  simp only [Prod.mk.injEq] at hrest
  obtain ⟨hengines, hclosed, hnext, hqueue, htaken⟩ := hrest
  have hsub : (s'.managerHolds ++ s'.tasksHold).Sublist (s.managerHolds ++ s.tasksHold) :=
    hmanagerHolds.append htasksHold
  exact
    { engines_nodup := h.engines_nodup.sublist (hsub.map _)
      runs_nodup := h.runs_nodup.sublist (hsub.map _)
      bound := by
        rw [hnext]
        exact fun x hx ↦ h.bound x (hsub.subset hx)
      free := by
        intro e he
        rw [hengines]
        by_cases hheld : e ∈ (s.managerHolds ++ s.tasksHold).map Prod.fst
        · exact hreleased e hheld he
        · exact h.free e hheld
      manager := hmanager
      worker := fun w hw ↦ (hworker w hw).1
      phase := fun w hw ↦ (hworker w hw).2
      queue := by
        rw [hqueue, hengines]
        exact h.queue
      closed := by
        rw [hclosed, hnext]
        exact h.closed
      taken := by
        rw [htaken, hnext]
        intro r hr
        exact ⟨(h.taken r hr).1, fun hmem ↦ (h.taken r hr).2 ((hmanagerHolds.map _).subset hmem)⟩ }

/-- The manager lets go of an engine it has left nothing in. -/
theorem held_managerReleased {s s' : Process} (h : Held s) {t : Thread}
    (hholds : s.managerHolds = [(t.engine, t.run)]) (hclean : s.engines t.engine = .clean)
    (hnone : s'.managerHolds = []) (hmanager : ManagerOk s')
    (hrest : (s'.engines, s'.closed, s'.nextRun, s'.queue, s'.worker, s'.taken) =
      (s.engines, s.closed, s.nextRun, s.queue, s.worker, s.taken)) : Held s' := by
  simp only [Prod.mk.injEq] at hrest
  obtain ⟨hengines, hclosed, hnext, hqueue, hworker, htaken⟩ := hrest
  have htasks : s'.tasksHold = s.tasksHold := by
    simp only [Process.tasksHold, hworker, hqueue]
  refine held_released h (by rw [hnone]; exact List.nil_sublist _) (by rw [htasks])
    (fun e hheld hgone ↦ ?_) hmanager (fun w hw ↦ ?_)
    (by rw [hengines, hclosed, hnext, hqueue, htaken])
  · rw [hnone, htasks, List.nil_append] at hgone
    rw [hholds] at hheld
    rcases List.mem_cons.mp hheld with rfl | htask
    · exact hclean
    · exact absurd htask hgone
  · rw [hworker] at hw
    exact ⟨phaseOk_congr (h.worker w hw) fun x _ ↦ by rw [hengines], h.phase w hw⟩

theorem finishDisconnect_eq (s : Process) (hold : Bool) : ∃ stopped mux,
    s.finishDisconnect hold = { s with stopped := stopped, mux := mux, monitor := .idle } := by
  unfold Process.finishDisconnect
  split_ifs
  · exact ⟨s.stopped, s.mux, rfl⟩
  · exact ⟨_, none, rfl⟩

/-- `stopEngineQuietly` keeps hold of the active engine. -/
theorem held_stopEngineQuietly {s : Process} (h : Held s) (hidle : s.monitor = .idle)
    (next : Next) :
    Held (s.stopEngineQuietly next) := by
  have hholds : s.managerHolds = s.active.toList := by simp [Process.managerHolds, hidle]
  have hmanager := h.manager
  unfold ManagerOk at hmanager
  simp only [hidle] at hmanager
  unfold Process.stopEngineQuietly
  split
  · rename_i e run hactive
    refine held_moved h (by rw [hholds, hactive]; rfl) ⟨rfl, ?_⟩ rfl
    obtain ⟨hobject, -⟩ := hmanager e run hactive
    refine ⟨⟨?_, by simp, about_stop run e⟩, ?_⟩
    · rw [hobject]
      exact only_intact run e
    · dsimp only
      rw [hobject, solo_stop_intact]
  · rename_i hold hactive
    obtain ⟨stopped, mux, heq⟩ := finishDisconnect_eq s hold
    rw [heq]
    refine held_moved h (by rw [hholds, hactive]; simp [Process.managerHolds]) ?_ rfl
    simp [ManagerOk, hactive]
  · rename_i e hactive
    refine held_moved h (by rw [hholds, hactive]; simp [Process.managerHolds]) ?_ rfl
    exact hactive

/-- The session is handed over to a task. -/
theorem held_take {s : Process} (h : Held s) (hidle : s.monitor = .idle) (revoked : Bool) :
    Held (s.take revoked) := by
  have hholds : s.managerHolds = s.active.toList := by simp [Process.managerHolds, hidle]
  have hnone : (s.take revoked).managerHolds = [] := by
    simp [Process.managerHolds, Process.take, hidle]
  have htasks : (s.take revoked).tasksHold = s.tasksHold ++ s.active.toList := by
    simp only [Process.tasksHold, Process.take, List.filterMap_append, List.append_assoc]
    cases s.active <;> rfl
  have hperm : ((s.take revoked).managerHolds ++ (s.take revoked).tasksHold).Perm
      (s.managerHolds ++ s.tasksHold) := by
    rw [hnone, htasks, hholds, List.nil_append]
    exact List.perm_append_comm
  have hmanager := h.manager
  unfold ManagerOk at hmanager
  simp only [hidle] at hmanager
  exact
    { engines_nodup := (hperm.map _).nodup_iff.mpr h.engines_nodup
      runs_nodup := (hperm.map _).nodup_iff.mpr h.runs_nodup
      bound := fun x hx ↦ h.bound x (hperm.subset hx)
      free := by
        intro e he
        exact h.free e fun hmem ↦ he ((hperm.map _).symm.subset hmem)
      manager := by
        unfold ManagerOk
        simp [Process.take, hidle]
      worker := fun w hw ↦ phaseOk_congr (h.worker w hw) fun _ _ ↦ rfl
      phase := h.phase
      queue := by
        intro task htask e r hr
        rcases List.mem_append.mp htask with hold | hnew
        · exact h.queue task hold e r hr
        · obtain rfl := List.mem_singleton.mp hnew
          exact (hmanager e r hr).1
      closed := h.closed
      taken := by
        intro r hr
        refine ⟨?_, by rw [hnone]; simp⟩
        rcases List.mem_append.mp hr with hnew | hold
        · obtain ⟨x, hx, rfl⟩ := Option.map_eq_some_iff.mp (Option.mem_toList.mp hnew)
          exact h.bound x (List.mem_append_left _ (by rw [hholds]; simp [hx]))
        · exact (h.taken r hold).1 }

theorem begin_holder (task : Task) : task.begin.phase.holder = task.engine.toList := by
  unfold Task.begin
  split
  · rename_i hnone
    simp [hnone, Phase.holder]
  · rename_i e r hsome
    split_ifs <;> simp [hsome, Phase.holder]

theorem begin_task (task : Task) : task.begin.task = task := by
  unfold Task.begin
  split
  · rfl
  · split_ifs <;> rfl

/-- A task that is taken up finds its engine as it was left. -/
theorem held_dequeue {s s' : Process} (h : Held s) (hstep : step s .dequeue = some s') :
    Held s' := by
  simp only [step] at hstep
  split at hstep
  · rename_i task rest hnone hqueue
    obtain rfl := Option.some.inj hstep
    have htasks : Process.tasksHold { s with worker := some task.begin, queue := rest } =
        s.tasksHold := by
      simp only [Process.tasksHold, hnone, hqueue, Option.map_some, Option.getD_some,
        Option.map_none, Option.getD_none, begin_holder, List.nil_append]
      cases hengine : task.engine with
      | none => simp [hengine]
      | some x => simp [hengine]
    obtain ⟨hen, hrn, hbo, hfr, hma, -, -, hqu, hcl, hta⟩ := h
    refine ⟨by rw [htasks]; exact hen, by rw [htasks]; exact hrn, by rw [htasks]; exact hbo,
      by rw [htasks]; exact hfr, managerOk_congr hma rfl rfl (fun _ _ ↦ rfl) (fun _ _ hx ↦ hx),
      fun w hw ↦ ?_, fun w hw x hx ↦ ?_, fun task' htask' ↦ ?_, hcl, hta⟩
    · obtain rfl := Option.some.inj hw
      have hintact := hqu task (by rw [hqueue]; simp)
      unfold Task.begin
      split
      · trivial
      · rename_i e r hengine
        have hobject := hintact e r hengine
        split_ifs
        · refine ⟨⟨?_, by simp, about_onRevoked r e⟩, ?_⟩
          · rw [hobject]
            exact only_intact r e
          · dsimp only
            rw [hobject, solo_onRevoked_intact, solo_stop_clean]
        · refine ⟨⟨?_, by simp, about_stop r e⟩, ?_⟩
          · rw [hobject]
            exact only_intact r e
          · dsimp only
            rw [hobject, solo_stop_intact]
    · obtain rfl := Option.some.inj hw
      rw [begin_holder] at hx
      rw [begin_task]
      exact Option.mem_toList.mp hx
    · exact hqu task' (by rw [hqueue]; exact List.mem_cons_of_mem _ htask')
  · cases hstep

/-- An engine that no task holds is started. -/
theorem held_start {s s' : Process} (h : Held s) (hdrained : Drained s .start)
    (hstep : step s .start = some s') : Held s' := by
  simp only [step] at hstep
  split at hstep
  · rename_i e hready
    obtain rfl := Option.some.inj hstep
    have hactive := h.manager
    unfold ManagerOk at hactive
    simp only [hready] at hactive
    have hholds : s.managerHolds = [] := by simp [Process.managerHolds, hready, hactive]
    simp only [Drained, hready] at hdrained
    obtain ⟨hen, hrn, hbo, hfr, -, hwo, hph, hqu, hcl, hta⟩ := h
    rw [hholds, List.nil_append] at hen hrn hbo hfr
    have hclean : s.engines e = .clean := hfr e hdrained
    have hfresh : ∀ x ∈ s.tasksHold, x.2 ≠ s.nextRun := fun x hx ↦ Nat.ne_of_lt (hbo x hx)
    exact
      { engines_nodup := List.nodup_cons.mpr ⟨hdrained, hen⟩
        runs_nodup := by
          refine List.nodup_cons.mpr ⟨fun hmem ↦ ?_, hrn⟩
          obtain ⟨x, hx, heq⟩ := List.mem_map.mp hmem
          exact hfresh x hx heq
        bound := by
          intro x hx
          rcases List.mem_cons.mp hx with rfl | hx
          · exact Nat.lt_succ_self _
          · exact Nat.lt_succ_of_lt (hbo x hx)
        free := by
          intro e' he'
          exact hfr e' fun hmem ↦ he' (List.mem_cons_of_mem _ hmem)
        manager := by
          refine ⟨rfl, ⟨⟨?_, by simp, about_start _ e⟩, ?_, ?_, fun _ ↦ ?_⟩, fun hgone ↦ ?_⟩
          · dsimp only
            rw [hclean]
            exact only_clean _
          · dsimp only
            rw [hclean]
            exact solo_start_clean _ e
          · cases e <;> simp [start]
          · dsimp only
            rw [hclean]
            exact solo_startFailed _ e
          · exact Nat.lt_irrefl _ (hcl _ hgone)
        worker := fun w hw ↦ phaseOk_congr (hwo w hw) fun _ _ ↦ rfl
        phase := hph
        queue := hqu
        closed := fun r hr ↦ Nat.lt_succ_of_lt (hcl r hr)
        taken := by
          intro r hr
          refine ⟨Nat.lt_succ_of_lt (hta r hr).1, ?_⟩
          simpa [Process.managerHolds] using Nat.ne_of_lt (hta r hr).1 }
  · cases hstep

theorem solo_startFailed_loaded (r : ℕ) (e : Engine) (o : EngineObject) (loaded : Option ℕ) :
    (solo (startFailed r e) o loaded).1 = (solo (startFailed r e) o none).1 := by
  cases e <;> rfl

theorem held_startFails {s s' : Process} (h : Held s) (hstep : step s .startFails = some s') :
    Held s' := by
  simp only [step] at hstep
  split at hstep
  · rename_i t hstarting
    split at hstep
    · rename_i run rest hcode
      obtain rfl := Option.some.inj hstep
      have hmanager := h.manager
      unfold ManagerOk at hmanager
      simp only [hstarting] at hmanager
      obtain ⟨-, hstart, -⟩ := hmanager
      obtain rfl : run = t.run := hstart.code (.turnOn run) (by simp [hcode])
      refine held_moved h (by simp [Process.managerHolds, hstarting]) ?_ rfl
      refine ⟨⟨hstart.only, hstart.loaded, about_startFailed t.run t.engine⟩, ?_⟩
      have hfails := hstart.fails (by simp [hcode])
      rw [hcode, List.takeWhile_cons_of_neg (by simp)] at hfails
      dsimp only
      rw [solo_startFailed_loaded]
      exact hfails
    · cases hstep
  · cases hstep

theorem held_advance {s s' : Process} (h : Held s) (hstep : s.advance = some s') : Held s' := by
  have hmanager := h.manager
  unfold ManagerOk at hmanager
  unfold Process.advance at hstep
  split at hstep
  · cases hstep
  · cases hstep
  · rename_i t next hstopping
    simp only [hstopping] at hmanager
    have hholds : s.managerHolds = [(t.engine, t.run)] := by simp [Process.managerHolds, hstopping]
    split at hstep
    · rename_i i rest hcode
      obtain rfl := Option.some.inj hstep
      exact held_managerExec h hholds hcode hmanager.2.toSteady rfl
        ⟨hmanager.1, stopping_exec hmanager.2 hcode⟩
    · rename_i hcode
      have hclean : s.engines t.engine = .clean := by
        have hends := hmanager.2.ends
        rwa [hcode] at hends
      split at hstep
      · obtain rfl := Option.some.inj hstep
        exact held_managerReleased h hholds hclean
          (by simp [Process.managerHolds, hmanager.1]) hmanager.1 rfl
      · rename_i hold
        obtain rfl := Option.some.inj hstep
        obtain ⟨stopped, mux, heq⟩ := finishDisconnect_eq s hold
        rw [heq]
        exact held_managerReleased h hholds hclean
          (by simp [Process.managerHolds, hmanager.1]) (by simp [ManagerOk, hmanager.1]) rfl
  · rename_i t hstarting
    simp only [hstarting] at hmanager
    have hholds : s.managerHolds = [(t.engine, t.run)] := by simp [Process.managerHolds, hstarting]
    split at hstep
    · rename_i i rest hcode
      obtain rfl := Option.some.inj hstep
      obtain ⟨hnext, hclosed⟩ := starting_exec hmanager.2.1 hcode
      refine held_managerExec h hholds hcode hmanager.2.1.toSteady rfl
        ⟨hmanager.1, hnext, ?_⟩
      dsimp only
      rw [hclosed]
      exact hmanager.2.2
    · rename_i hcode
      obtain rfl := Option.some.inj hstep
      refine held_moved h (by simp [Process.managerHolds, hstarting, hmanager.1]) ?_ rfl
      unfold ManagerOk
      intro e r hr
      obtain ⟨rfl, rfl⟩ := Prod.mk.inj (Option.some.inj (hmanager.1.symm.trans hr))
      have hends := hmanager.2.1.ends
      rw [hcode] at hends
      exact ⟨(Prod.mk.inj hends).1, hmanager.2.2⟩
  · rename_i t hfailing
    simp only [hfailing] at hmanager
    have hholds : s.managerHolds = [(t.engine, t.run)] := by simp [Process.managerHolds, hfailing]
    split at hstep
    · rename_i i rest hcode
      obtain rfl := Option.some.inj hstep
      exact held_managerExec h hholds hcode hmanager.toSteady rfl (stopping_exec hmanager hcode)
    · rename_i hcode
      have hclean : s.engines t.engine = .clean := by
        have hends := hmanager.ends
        rwa [hcode] at hends
      obtain rfl := Option.some.inj hstep
      exact held_managerReleased h hholds hclean
        (by simp [Process.managerHolds]) (by simp [ManagerOk]) rfl

theorem held_work {s s' : Process} (h : Held s) (hstep : s.work = some s') : Held s' := by
  unfold Process.work at hstep
  split at hstep
  · cases hstep
  · rename_i task t hw
    have hphase : Revoking t (s.engines t.engine) := h.worker _ hw
    split at hstep
    · rename_i i rest hcode
      obtain rfl := Option.some.inj hstep
      exact held_workerExec h hw rfl rfl rfl hcode hphase.toSteady (revoking_exec hphase hcode)
    · rename_i hcode
      obtain rfl := Option.some.inj hstep
      have htasks : Process.tasksHold { s with
          worker := some ⟨task, .stopping ⟨t.engine, t.run, stop t.engine, none⟩⟩ } =
          s.tasksHold := by
        simp [Process.tasksHold, hw, Phase.holder]
      refine held_released h (List.Sublist.refl _) (by rw [htasks])
        (fun e hheld hgone ↦ absurd hheld (by rw [htasks] at hgone; exact hgone))
        (managerOk_congr h.manager rfl rfl (fun _ _ ↦ rfl) fun _ _ hx ↦ hx) (fun w hw' ↦ ?_) rfl
      obtain rfl := Option.some.inj hw'
      refine ⟨⟨⟨hphase.only, by simp, about_stop t.run t.engine⟩, ?_⟩,
        fun x hx ↦ h.phase _ hw x hx⟩
      have hends := hphase.ends
      rw [hcode] at hends
      exact hends
  · rename_i task t hw
    have hphase : Stopping t (s.engines t.engine) := h.worker _ hw
    split at hstep
    · rename_i i rest hcode
      obtain rfl := Option.some.inj hstep
      exact held_workerExec h hw rfl rfl rfl hcode hphase.toSteady (stopping_exec hphase hcode)
    · rename_i hcode
      obtain rfl := Option.some.inj hstep
      have htasks : s.tasksHold = (t.engine, t.run) ::
          Process.tasksHold { s with worker := some ⟨task, .mux⟩ } := by
        simp [Process.tasksHold, hw, Phase.holder]
      refine held_released h (List.Sublist.refl _)
        (by rw [htasks]; exact List.sublist_cons_self _ _) (fun e hheld hgone ↦ ?_)
        (managerOk_congr h.manager rfl rfl (fun _ _ ↦ rfl) fun _ _ hx ↦ hx) (fun w hw' ↦ ?_) rfl
      · have he : e = t.engine := by
          rw [htasks, List.map_append, List.map_cons, List.mem_append, List.mem_cons] at hheld
          rw [List.map_append, List.mem_append] at hgone
          tauto
        have hends := hphase.ends
        rw [hcode] at hends
        rw [he]
        exact hends
      · obtain rfl := Option.some.inj hw'
        exact ⟨trivial, by simp [Phase.holder]⟩
  · rename_i task hw
    obtain rfl := Option.some.inj hstep
    have htasks : Process.tasksHold { s with
        stopped := task.mux.toList ++ s.stopped, worker := none } = s.tasksHold := by
      simp [Process.tasksHold, hw, Phase.holder]
    exact held_released h (List.Sublist.refl _) (by rw [htasks])
      (fun e hheld hgone ↦ absurd hheld (by rw [htasks] at hgone; exact hgone))
      (managerOk_congr h.manager rfl rfl (fun _ _ ↦ rfl) fun _ _ hx ↦ hx) (by simp) rfl

theorem held_step {s s' : Process} {a : Action} (h : Held s) (hdrained : Drained s a)
    (hstep : step s a = some s') : Held s' := by
  cases a with
  | attachHost k =>
    simp only [step] at hstep
    split_ifs at hstep
    obtain rfl := Option.some.inj hstep
    exact held_moved h rfl
      (managerOk_congr h.manager rfl rfl (fun _ _ ↦ rfl) fun _ _ hx ↦ hx) rfl
  | detachHost k =>
    simp only [step] at hstep
    split_ifs at hstep with hidle hhost
    · obtain rfl := Option.some.inj hstep
      have htaken := held_take h hidle false
      exact held_moved htaken rfl
        (managerOk_congr htaken.manager rfl rfl (fun _ _ ↦ rfl) fun _ _ hx ↦ hx) rfl
    · obtain rfl := Option.some.inj hstep
      exact h
  | onRevoked =>
    simp only [step] at hstep
    split_ifs at hstep with hidle
    obtain rfl := Option.some.inj hstep
    exact held_take h hidle true
  | connect e =>
    simp only [step] at hstep
    split_ifs at hstep with hready
    obtain rfl := Option.some.inj hstep
    have hensured : Held s.ensureTunnel ∧ s.ensureTunnel.monitor = .idle := by
      unfold Process.ensureTunnel
      split
      · exact ⟨h, hready.1⟩
      · exact ⟨held_moved h rfl
          (managerOk_congr h.manager rfl rfl (fun _ _ ↦ rfl) fun _ _ hx ↦ hx) rfl, hready.1⟩
    exact held_stopEngineQuietly hensured.1 hensured.2 _
  | disconnect hold =>
    simp only [step] at hstep
    split_ifs at hstep with hidle
    obtain rfl := Option.some.inj hstep
    exact held_stopEngineQuietly h hidle _
  | attachFails =>
    simp only [step] at hstep
    split at hstep
    · rename_i e hready
      obtain rfl := Option.some.inj hstep
      have hactive := h.manager
      unfold ManagerOk at hactive
      simp only [hready] at hactive
      exact held_moved h (by simp [Process.managerHolds, hready])
        (by simp [ManagerOk, hactive]) rfl
    · cases hstep
  | start => exact held_start h hdrained hstep
  | startFails => exact held_startFails h hstep
  | advance => exact held_advance h hstep
  | dequeue => exact held_dequeue h hstep
  | work => exact held_work h hstep

theorem held_initial : Held Process.initial := by
  constructor <;> simp [Process.initial, Process.managerHolds, Process.tasksHold, ManagerOk]

/-! ### The muxes -/

/-- A step that leaves the muxes and the tasks alone. -/
theorem muxes_same {s s' : Process} (h : Muxes s)
    (hworker : s'.worker.map Worker.task = s.worker.map Worker.task)
    (hrest : (s'.mux, s'.nextMux, s'.stopped, s'.queue) =
      (s.mux, s.nextMux, s.stopped, s.queue)) : Muxes s' := by
  simp only [Prod.mk.injEq] at hrest
  obtain ⟨hmux, hnext, hstopped, hqueue⟩ := hrest
  refine ⟨?_, ?_, fun w x hw hx ↦ ?_, ?_⟩
  · rw [hmux, hnext, hstopped]
    exact h.current
  · rw [hstopped, hnext]
    exact h.stopped
  · have htask : s.worker.map Worker.task = some w.task := by rw [← hworker, hw]; rfl
    obtain ⟨w₀, hw₀, htask₀⟩ := Option.map_eq_some_iff.mp htask
    rw [hnext, hmux]
    exact h.worker w₀ x hw₀ (by rw [htask₀]; exact hx)
  · rw [hqueue, hnext, hmux]
    exact h.queue

theorem muxes_finishDisconnect {s : Process} (h : Muxes s) (hold : Bool) :
    Muxes (s.finishDisconnect hold) := by
  unfold Process.finishDisconnect
  split_ifs
  · exact muxes_same h rfl rfl
  · refine ⟨by simp, fun x hx ↦ ?_, fun w x hw hx ↦ ⟨(h.worker w x hw hx).1, by simp⟩,
      fun task htask x hx ↦ ⟨(h.queue task htask x hx).1, by simp⟩⟩
    rcases List.mem_append.mp hx with hcurrent | hold
    · exact (h.current x (Option.mem_toList.mp hcurrent)).1
    · exact h.stopped x hold

theorem muxes_stopEngineQuietly {s : Process} (h : Muxes s) (next : Next) :
    Muxes (s.stopEngineQuietly next) := by
  unfold Process.stopEngineQuietly
  split
  · exact muxes_same h rfl rfl
  · exact muxes_finishDisconnect h _
  · exact muxes_same h rfl rfl

theorem muxes_ensureTunnel {s : Process} (h : Muxes s) : Muxes s.ensureTunnel := by
  unfold Process.ensureTunnel
  split
  · exact h
  · have hfresh : ∀ x, x < s.nextMux → (some s.nextMux : Option ℕ) ≠ some x := by
      intro x hx heq
      exact Nat.lt_irrefl _ (Option.some.inj heq ▸ hx)
    refine ⟨fun x hx ↦ ?_, fun x hx ↦ Nat.lt_succ_of_lt (h.stopped x hx), fun w x hw hx ↦ ?_,
      fun task htask x hx ↦ ?_⟩
    · obtain rfl := Option.some.inj hx
      exact ⟨Nat.lt_succ_self _, fun hgone ↦ Nat.lt_irrefl _ (h.stopped _ hgone)⟩
    · have hlt := (h.worker w x hw hx).1
      exact ⟨Nat.lt_succ_of_lt hlt, hfresh x hlt⟩
    · have hlt := (h.queue task htask x hx).1
      exact ⟨Nat.lt_succ_of_lt hlt, hfresh x hlt⟩

theorem muxes_take {s : Process} (h : Muxes s) (revoked : Bool) : Muxes (s.take revoked) := by
  refine ⟨by simp [Process.take], h.stopped, fun w x hw hx ↦ ⟨(h.worker w x hw hx).1, by
    simp [Process.take]⟩, fun task htask x hx ↦ ⟨?_, by simp [Process.take]⟩⟩
  rcases List.mem_append.mp htask with hold | hnew
  · exact (h.queue task hold x hx).1
  · obtain rfl := List.mem_singleton.mp hnew
    exact (h.current x hx).1

theorem muxes_advance {s s' : Process} (h : Muxes s) (hstep : s.advance = some s') : Muxes s' := by
  unfold Process.advance at hstep
  split at hstep
  · cases hstep
  · cases hstep
  · split at hstep
    · obtain rfl := Option.some.inj hstep
      exact muxes_same h rfl rfl
    · split at hstep
      · obtain rfl := Option.some.inj hstep
        exact muxes_same h rfl rfl
      · obtain rfl := Option.some.inj hstep
        exact muxes_finishDisconnect h _
  · split at hstep <;> obtain rfl := Option.some.inj hstep <;>
      exact muxes_same h rfl rfl
  · split at hstep <;> obtain rfl := Option.some.inj hstep <;>
      exact muxes_same h rfl rfl

/-- The teardown thread stops the mux of its task, which is not the current one. -/
theorem muxes_work {s s' : Process} (h : Muxes s) (hstep : s.work = some s') : Muxes s' := by
  unfold Process.work at hstep
  split at hstep
  · cases hstep
  · rename_i task t hw
    split at hstep <;> obtain rfl := Option.some.inj hstep <;>
      exact muxes_same h (by simp [hw]) rfl
  · rename_i task t hw
    split at hstep <;> obtain rfl := Option.some.inj hstep <;>
      exact muxes_same h (by simp [hw]) rfl
  · rename_i task hw
    obtain rfl := Option.some.inj hstep
    refine ⟨fun x hx ↦ ⟨(h.current x hx).1, fun hgone ↦ ?_⟩, fun x hx ↦ ?_, by simp, h.queue⟩
    · rcases List.mem_append.mp hgone with htask | hold
      · exact (h.worker _ x hw (Option.mem_toList.mp htask)).2 hx
      · exact (h.current x hx).2 hold
    · rcases List.mem_append.mp hx with htask | hold
      · exact (h.worker _ x hw (Option.mem_toList.mp htask)).1
      · exact h.stopped x hold

theorem muxes_step {s s' : Process} {a : Action} (h : Muxes s) (hstep : step s a = some s') :
    Muxes s' := by
  cases a with
  | attachHost k =>
    simp only [step] at hstep
    split_ifs at hstep
    obtain rfl := Option.some.inj hstep
    exact muxes_same h rfl rfl
  | detachHost k =>
    simp only [step] at hstep
    split_ifs at hstep
    · obtain rfl := Option.some.inj hstep
      exact muxes_same (muxes_take h false) rfl rfl
    · obtain rfl := Option.some.inj hstep
      exact h
  | onRevoked =>
    simp only [step] at hstep
    split_ifs at hstep
    obtain rfl := Option.some.inj hstep
    exact muxes_take h true
  | connect e =>
    simp only [step] at hstep
    split_ifs at hstep
    obtain rfl := Option.some.inj hstep
    exact muxes_stopEngineQuietly (muxes_ensureTunnel h) _
  | disconnect hold =>
    simp only [step] at hstep
    split_ifs at hstep
    obtain rfl := Option.some.inj hstep
    exact muxes_stopEngineQuietly h _
  | attachFails | start =>
    simp only [step] at hstep
    split at hstep
    · obtain rfl := Option.some.inj hstep
      exact muxes_same h rfl rfl
    · cases hstep
  | startFails =>
    simp only [step] at hstep
    split at hstep
    · split at hstep
      · obtain rfl := Option.some.inj hstep
        exact muxes_same h rfl rfl
      · cases hstep
    · cases hstep
  | advance => exact muxes_advance h hstep
  | dequeue =>
    simp only [step] at hstep
    split at hstep
    · rename_i task rest hnone hqueue
      obtain rfl := Option.some.inj hstep
      refine ⟨h.current, h.stopped, fun w x hw hx ↦ ?_, fun task' htask' ↦ ?_⟩
      · obtain rfl := Option.some.inj hw
        rw [begin_task] at hx
        exact h.queue task (by rw [hqueue]; simp) x hx
      · exact h.queue task' (by rw [hqueue]; exact List.mem_cons_of_mem _ htask')
    · cases hstep
  | work => exact muxes_work h hstep

theorem muxes_initial : Muxes Process.initial := by
  constructor <;> simp [Process.initial]

/-! ### The promise -/

/-- An instruction of the teardown thread touches the run of its task only. -/
theorem exec_own {s : Process} {t : Thread} {i : Instr} {rest : List Instr} {w : Worker}
    (hsteady : Steady t (s.engines t.engine)) (hcode : t.code = i :: rest)
    (htask : w.task.engine = some (t.engine, t.run)) :
    (∀ e r, (s.engines e).native = some r → ((s.exec t i rest).1.engines e).native ≠ some r →
      w.task.run = some r) ∧
      ∀ r ∈ (s.exec t i rest).1.closed, r ∉ s.closed → w.task.run = some r := by
  have hrun : w.task.run = some t.run := by simp [Task.run, htask]
  refine ⟨fun e r hbefore hafter ↦ ?_, fun r hr hopen ↦ ?_⟩
  · by_cases he : e = t.engine
    · rw [hrun, hsteady.only.native r (he ▸ hbefore)]
    · rw [exec_other he] at hafter
      exact absurd hbefore hafter
  · rcases closed_exec hsteady hcode hr with rfl | hold
    · exact hrun
    · exact absurd hold hopen

/-- A step of the teardown thread touches the run of its task only. -/
theorem work_own {s s' : Process} (h : Held s) {w : Worker} (hw : s.worker = some w)
    (hstep : s.work = some s') :
    (∀ e r, (s.engines e).native = some r → (s'.engines e).native ≠ some r →
      w.task.run = some r) ∧ ∀ r ∈ s'.closed, r ∉ s.closed → w.task.run = some r := by
  have hphase := h.worker w hw
  have htask := h.phase w hw
  unfold Process.work at hstep
  rw [hw] at hstep
  split at hstep
  · rename_i hnone
    cases hnone
  · rename_i task t hsame
    obtain rfl := Option.some.inj hsame
    split at hstep
    · rename_i i rest hcode
      obtain rfl := Option.some.inj hstep
      exact exec_own hphase.toSteady hcode (htask _ (by simp [Phase.holder]))
    · obtain rfl := Option.some.inj hstep
      exact ⟨fun _ _ hbefore hafter ↦ absurd hbefore hafter, fun _ hr hopen ↦ absurd hr hopen⟩
  · rename_i task t hsame
    obtain rfl := Option.some.inj hsame
    split at hstep
    · rename_i i rest hcode
      obtain rfl := Option.some.inj hstep
      exact exec_own hphase.toSteady hcode (htask _ (by simp [Phase.holder]))
    · obtain rfl := Option.some.inj hstep
      exact ⟨fun _ _ hbefore hafter ↦ absurd hbefore hafter, fun _ hr hopen ↦ absurd hr hopen⟩
  · obtain rfl := Option.some.inj hstep
    exact ⟨fun _ _ hbefore hafter ↦ absurd hbefore hafter, fun _ hr hopen ↦ absurd hr hopen⟩

/-- The run that is current in an engine the manager holds is the one it holds it for. -/
theorem ManagerOk.only {s : Process} (h : ManagerOk s) {x : Engine × ℕ} (hx : x ∈ s.managerHolds) :
    Only x.2 (s.engines x.1) := by
  unfold ManagerOk at h
  unfold Process.managerHolds at hx
  split at h
  · rename_i hidle
    simp only [hidle] at hx
    rw [(h x.1 x.2 (Option.mem_toList.mp hx)).1]
    exact only_intact x.2 x.1
  · rename_i hready
    simp [hready, h] at hx
  · rename_i t next hstopping
    simp only [hstopping, List.mem_singleton] at hx
    subst hx
    exact h.2.only
  · rename_i t hstarting
    simp only [hstarting, List.mem_singleton] at hx
    subst hx
    exact h.2.1.only
  · rename_i t hfailing
    simp only [hfailing, List.mem_singleton] at hx
    subst hx
    exact h.only

/-- Once no task is left, no run that was taken is current anywhere. -/
theorem Held.drained {s : Process} (h : Held s) (hqueue : s.queue = []) (hworker : s.worker = none)
    {r : ℕ} (hr : r ∈ s.taken) (e : Engine) : (s.engines e).native ≠ some r := by
  intro hnative
  have htasks : s.tasksHold = [] := by simp [Process.tasksHold, hqueue, hworker]
  by_cases hheld : e ∈ (s.managerHolds ++ s.tasksHold).map Prod.fst
  · rw [htasks, List.append_nil] at hheld
    obtain ⟨x, hx, rfl⟩ := List.mem_map.mp hheld
    have hrun := (h.manager.only hx).native r hnative
    exact (h.taken r hr).2 (hrun ▸ List.mem_map_of_mem hx)
  · rw [h.free e hheld] at hnative
    cases hnative

/-- **The deferred teardown.** In every run in which no engine is started while a task still holds
it, a task touches only the run and the mux of the session it was taken from, the active engine
keeps running, and once the tasks are done the runs they were taken from are stopped. -/
theorem sound_of_drained {s : Process} (hreach : Reaches step Drained Process.initial s) :
    Sound s := by
  have hboth : Held s ∧ Muxes s := by
    refine hreach.invariant (fun x ↦ Held x ∧ Muxes x) ?_ ⟨held_initial, muxes_initial⟩
    exact fun a x y hx hdrained hstep ↦ ⟨held_step hx.1 hdrained hstep, muxes_step hx.2 hstep⟩
  obtain ⟨h, hmuxes⟩ := hboth
  refine ⟨fun w s' hw hstep ↦ (work_own h hw hstep).1, fun w s' hw hstep ↦ (work_own h hw hstep).2,
    fun x hx ↦ (hmuxes.current x hx).2, fun hidle e r hr ↦ ?_,
    fun hqueue hworker r hr e ↦ h.drained hqueue hworker hr e⟩
  have hmanager := h.manager
  unfold ManagerOk at hmanager
  simp only [hidle] at hmanager
  obtain ⟨hobject, hopen⟩ := hmanager e r hr
  exact ⟨by rw [hobject, intact_native], hopen⟩

/-- The thread in the monitor brings an engine up. -/
def startRun (host : ℕ) (e : Engine) : List Action :=
  List.flatten [[.attachHost host, .connect e, .start], List.replicate (start 0 e).length .advance,
    [.advance]]

/-- A session is detached and torn down before the next host connects with the same protocol. -/
def drainedRun : List Action :=
  List.flatten [startRun 0 .wireGuard, [.detachHost 0, .dequeue], List.replicate 7 .work,
    startRun 1 .wireGuard]

/-- After `drainedRun` the second run is up, the first one is stopped and its mux with it. -/
theorem sound_of_drained_restarted :
    ∃ s, Reaches step Drained Process.initial s ∧ s.active = some (.wireGuard, 1) ∧
      (s.engines .wireGuard).native = some 1 ∧ 1 ∉ s.closed ∧ 0 ∈ s.taken ∧
      (∀ e, (s.engines e).native ≠ some 0) ∧ s.mux = some 1 ∧ 1 ∉ s.stopped := by
  obtain ⟨s, hreach, hcheck⟩ := exists_reaches_of_run step Drained Process.initial drainedRun
    (fun s ↦ decide (s.monitor = .idle ∧ s.active = some (.wireGuard, 1) ∧ s.queue = [] ∧
      s.worker = none ∧ 0 ∈ s.taken ∧ s.mux = some 1)) (by decide)
  obtain ⟨hidle, hactive, hqueue, hworker, htaken, hmux⟩ := of_decide_eq_true hcheck
  have hsound := sound_of_drained hreach
  obtain ⟨hnative, hopen⟩ := hsound.active_running hidle _ _ hactive
  exact ⟨s, hreach, hactive, hnative, hopen, htaken, hsound.drained hqueue hworker 0 htaken, hmux,
    hsound.own_mux 1 hmux⟩

/-- The next host connects with the same protocol before the task is taken up. -/
def restartedRun : List Action :=
  List.flatten [startRun 0 .wireGuard, [.detachHost 0], startRun 1 .wireGuard, [.dequeue],
    List.replicate 7 .work]

/-- The teardown of the first session stops the run of the second, which stays the active one. -/
theorem not_sound_restarted : ¬ ∀ s, Reaches step Always Process.initial s → Sound s := by
  intro hall
  obtain ⟨s, hreach, hcheck⟩ := exists_reaches_of_run step Always Process.initial restartedRun
    (fun s ↦ decide (s.monitor = .idle ∧ s.active = some (.wireGuard, 1) ∧
      (s.engines .wireGuard).native = none)) (by decide)
  obtain ⟨hidle, hactive, hnative⟩ := of_decide_eq_true hcheck
  obtain ⟨hrunning, -⟩ := (hall s hreach).active_running hidle _ _ hactive
  rw [hnative] at hrunning
  cases hrunning

end WindscribeVpn.Tunnel.DeferredTeardown
