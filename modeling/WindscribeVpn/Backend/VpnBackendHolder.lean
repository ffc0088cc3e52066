import WindscribeVpn.Foundations.Runs
import Mathlib.Data.Fintype.Basic
import Mathlib.Data.Nat.Notation
import Mathlib.Logic.Function.Basic
import Mathlib.Tactic.SplitIfs

/-!
# The holder of the active backend

`VpnBackendHolder.kt` keeps the backend of the session in `activeBackend`. `connect` there launches
a coroutine that writes the field, reads it again and activates what it read; `disconnect` reads the
field, disconnects what it read and then clears the field whatever it holds. Around it stands
`WindVpnController.kt`: a connect builds a profile, perhaps after a disconnect of its own, and hands
over to the holder at once or when the permission is granted, and a disconnect cancels and joins the
connect in `connectJob` before it turns to the holder. All of this runs on an application scope of
several threads, so `step` interleaves it freely, one shared access at a time.

`Known` is the promise: an active backend is the one the holder refers to, and once a disconnect has
returned with no connect issued after it, no backend is active. `not_known_pending` and
`not_known_cleared` are runs that break either half. `Ordered` is the condition under which none
does, and `known_of_ordered` proves the promise for every run whose steps all meet it. Of a backend
the model keeps its `active` flag: `activate` sets it and the end of its `disconnect` clears it.
-/

set_option autoImplicit false
set_option relaxedAutoImplicit false

namespace WindscribeVpn.Backend.VpnBackendHolder

open Foundations.Runs

/-- The protocols a connect may name. -/
inductive Protocol
  | udp
  | tcp
  | stealth
  | wsTunnel
  | ikev2
  | wireGuard
  /-- A name that no constant has. -/
  | other
  deriving DecidableEq, Repr

/-- The backends, one object for each. -/
inductive VpnBackend
  | openVpn
  | ikev2
  | wireGuard
  deriving DecidableEq, Repr

instance fintypeVpnBackend : Fintype VpnBackend where
  elems := {.openVpn, .ikev2, .wireGuard}
  complete b := by cases b <;> decide

/-- `backendFor`. -/
def backendFor : Protocol → Option VpnBackend
  | .udp | .tcp | .stealth | .wsTunnel => some .openVpn
  | .ikev2 => some .ikev2
  | .wireGuard => some .wireGuard
  | .other => none

/-- Where a connect is, up to the end of the coroutine that activates its backend. -/
inductive ConnectPc
  /-- About to read `activeBackend`. -/
  | entered
  /-- About to read `active` of the backend it found there. -/
  | looking (backend : VpnBackend)
  /-- In the disconnect of a reconnect. -/
  | reconnecting (disconnect : ℕ)
  /-- Building the profile. -/
  | building
  /-- In the disconnect that follows a failure to build it. -/
  | failing (disconnect : ℕ)
  /-- The permission activity is shown. -/
  | permission
  /-- About to call `connect` of the holder, from the permission activity when `granted`. -/
  | handing (granted : Bool)
  /-- The activating coroutine is launched. -/
  | launched
  /-- It has written `activeBackend`. -/
  | assigned
  /-- It has read `activeBackend` again. -/
  | activating (backend : VpnBackend)
  | over
  deriving DecidableEq, Repr

/-- A connect. `cancelled` says that its coroutine was, and `unstored` that `connectAsync` has not
written it to `connectJob` yet. -/
structure Connect where
  pc : ConnectPc
  protocol : Protocol
  cancelled : Bool
  unstored : Bool
  deriving DecidableEq, Repr

/-- The coroutine of the connect itself has ended. -/
def ConnectPc.ended : ConnectPc → Bool
  | .entered | .looking _ | .reconnecting _ | .building | .failing _ => false
  | .handing granted => granted
  | .permission | .launched | .assigned | .activating _ | .over => true

/-- The activating coroutine is launched and not through. -/
def ConnectPc.pending : ConnectPc → Bool
  | .launched | .assigned | .activating _ => true
  | _ => false

/-- Where a disconnect is. -/
inductive DisconnectPc
  /-- About to look at `connectJob`. -/
  | entered
  /-- About to clear `connectJob` and cancel the connect it found there. -/
  | preparing (connect : ℕ)
  | joining (connect : ℕ)
  /-- About to read `activeBackend`. -/
  | sampling
  /-- In the `disconnect` of a backend. -/
  | stopping (backend : VpnBackend)
  /-- In the `finally`, with an exception under way when `failed`. -/
  | clearing (failed : Bool)
  /-- Through with the holder. -/
  | finishing
  | returned
  | thrown
  deriving DecidableEq, Repr

/-- A disconnect. `caller` is the connect it is called from, if any, `reconnecting` says that this
connect goes on afterwards, and `followed` that a connect goes on or was issued after it. -/
structure Disconnect where
  pc : DisconnectPc
  caller : Option ℕ
  reconnecting : Bool
  followed : Bool
  deriving DecidableEq, Repr

/-- The disconnect has read `activeBackend`, and nothing was thrown since. -/
def DisconnectPc.sampled : DisconnectPc → Bool
  | .entered | .preparing _ | .joining _ | .sampling | .thrown => false
  | .clearing failed => !failed
  | .stopping _ | .finishing | .returned => true

/-- The controller and the holder. Connects below `issued` were issued, disconnects below `called`
were called, and `launching` calls of `connectAsync` are between their `cancel` and their `launch`.
-/
structure Holder where
  activeBackend : Option VpnBackend
  active : VpnBackend → Bool
  activeConnectionId : Option ℕ
  connectJob : Option ℕ
  connects : ℕ → Connect
  issued : ℕ
  launching : ℕ
  disconnects : ℕ → Disconnect
  called : ℕ

/-- The start of the process. -/
def Holder.initial : Holder where
  activeBackend := none
  active := fun _ ↦ false
  activeConnectionId := none
  connectJob := none
  connects := fun _ ↦ ⟨.over, .other, false, false⟩
  issued := 0
  launching := 0
  disconnects := fun _ ↦ ⟨.entered, none, false, true⟩
  called := 0

/-- An action of one of the coroutines. -/
inductive Action
  /-- `connectAsync` cancels the connect in `connectJob`. -/
  | connectAsync
  /-- `connect` is called, in the coroutine that a `connectAsync` launches when `async`. -/
  | connect (protocol : Protocol) (async : Bool)
  /-- `connectAsync` writes `connectJob`. -/
  | store (k : ℕ)
  /-- `launchVPNService` is called with a profile of its own, as the emergency connect does. -/
  | launchVpnService (protocol : Protocol)
  /-- A connect reads `activeBackend`. -/
  | enter (k : ℕ)
  /-- A connect reads `active` of the backend it found. -/
  | look (k : ℕ)
  /-- The disconnect of a reconnect has returned. -/
  | resume (k : ℕ)
  /-- A connect reaches `launchVPNService`, with the permission or without. -/
  | launch (k : ℕ) (permitted : Bool)
  /-- `connectWithGrantedPermission` compares the connection ids. -/
  | grant (k : ℕ)
  /-- `connect` of the holder is called. -/
  | handOver (k : ℕ)
  /-- A connect ends without having reached the holder. -/
  | abandon (k : ℕ)
  /-- The activating coroutine writes `activeBackend`. -/
  | assign (k : ℕ)
  /-- The activating coroutine reads `activeBackend`. -/
  | read (k : ℕ)
  /-- The activating coroutine activates the backend it read. -/
  | activate (k : ℕ)
  /-- `WindVpnController.disconnect` is called, by a connect that failed or by anybody. -/
  | disconnect (caller : Option ℕ)
  /-- A disconnect takes its next step. -/
  | proceed (d : ℕ)
  /-- The `join` of a disconnect throws, its coroutine being cancelled. -/
  | joinThrows (d : ℕ)
  /-- The `disconnect` of the backend throws before it deactivates it, or the `delay` of a reconnect
  does. -/
  | throws (d : ℕ)
  /-- A backend disconnects on its own. -/
  | backendDisconnect (b : VpnBackend)
  deriving DecidableEq, Repr

/-! ### Steps of the controller and the holder -/

/-- Moves one connect. -/
def Holder.setConnect (s : Holder) (k : ℕ) (pc : ConnectPc) : Holder :=
  { s with connects := Function.update s.connects k { s.connects k with pc := pc } }

/-- Moves one disconnect. -/
def Holder.setDisconnect (s : Holder) (d : ℕ) (pc : DisconnectPc) : Holder :=
  { s with disconnects := Function.update s.disconnects d { s.disconnects d with pc := pc } }

/-- The coroutine of a connect is cancelled. -/
def Holder.cancelConnect (s : Holder) (k : ℕ) : Holder :=
  { s with connects := Function.update s.connects k { s.connects k with cancelled := true } }

/-- `connectJob?.cancel()`. -/
def Holder.cancelConnectJob (s : Holder) : Holder :=
  match s.connectJob with
  | none => s
  | some k => s.cancelConnect k

/-- A connect is issued. -/
def Holder.issue (s : Holder) (protocol : Protocol) (async : Bool) : Holder :=
  { s with
    connects := Function.update s.connects s.issued ⟨.entered, protocol, false, async⟩
    issued := s.issued + 1
    disconnects := fun d ↦ { s.disconnects d with followed := true } }

/-- The rest of `connectAsync`. -/
def Holder.store (s : Holder) (k : ℕ) : Holder :=
  { s with
    connects := Function.update s.connects k { s.connects k with unstored := false }
    connectJob := some k }

/-- A disconnect is called. -/
def Holder.call (s : Holder) (caller : Option ℕ) (reconnecting : Bool) : Holder :=
  { s with
    disconnects :=
      Function.update s.disconnects s.called ⟨.entered, caller, reconnecting, reconnecting⟩
    called := s.called + 1 }

/-- The start of `createProfileAndLaunchService`. -/
def Holder.createProfile (s : Holder) (k : ℕ) : Holder :=
  { s.setConnect k .building with activeConnectionId := some k }

/-- `connect`, up to the profile: the connect with the backend it found active reconnects. -/
def Holder.look (s : Holder) (k : ℕ) (b : VpnBackend) : Holder :=
  if s.active b then (s.call (some k) true).setConnect k (.reconnecting s.called)
  else s.createProfile k

/-- A connect may end: nothing is left of it but to give up. -/
def Holder.abandons (s : Holder) (k : ℕ) : Bool :=
  match (s.connects k).pc with
  | .entered | .building => true
  | .reconnecting d => (s.disconnects d).pc = .thrown
  | .failing d => (s.disconnects d).pc = .thrown ∨ (s.disconnects d).pc = .returned
  | _ => false

/-- `WindVpnController.disconnect` and `VpnBackendHolder.disconnect`. -/
def Holder.proceed (s : Holder) (d : ℕ) : Option Holder :=
  let disconnect := s.disconnects d
  match disconnect.pc with
  | .entered =>
    match s.connectJob with
    | none => some (s.setDisconnect d .sampling)
    | some k =>
      if disconnect.caller = some k then some (s.setDisconnect d .sampling)
      else some (s.setDisconnect d (.preparing k))
  | .preparing k =>
    some { (s.cancelConnect k).setDisconnect d (.joining k) with connectJob := none }
  | .joining k =>
    if (s.connects k).pc.ended then some (s.setDisconnect d .sampling) else none
  | .sampling =>
    match s.activeBackend with
    | none => some (s.setDisconnect d .finishing)
    | some b => some (s.setDisconnect d (.stopping b))
  | .stopping b =>
    some ({ s with active := Function.update s.active b false }.setDisconnect d (.clearing false))
  | .clearing failed =>
    some ({ s with activeBackend := none }.setDisconnect d (if failed then .thrown else .finishing))
  | .finishing =>
    some { s.setDisconnect d .returned with
      activeConnectionId := if disconnect.reconnecting then s.activeConnectionId else none }
  | .returned | .thrown => none

/-- A disconnect is interrupted by an exception. -/
def Holder.throws (s : Holder) (d : ℕ) : Option Holder :=
  match (s.disconnects d).pc with
  | .stopping _ => some (s.setDisconnect d (.clearing true))
  | .finishing =>
    if (s.disconnects d).reconnecting then some (s.setDisconnect d .thrown) else none
  | _ => none

/-- One step of the controller and the holder. -/
def step (s : Holder) : Action → Option Holder
  | .connectAsync => some { s.cancelConnectJob with launching := s.launching + 1 }
  | .connect protocol async =>
    if async then
      if 0 < s.launching then
        some { s.issue protocol true with launching := s.launching - 1 }
      else none
    else some (s.issue protocol false)
  | .store k => if (s.connects k).unstored then some (s.store k) else none
  | .launchVpnService protocol =>
    some ((s.issue protocol false).setConnect s.issued .building)
  | .enter k =>
    if (s.connects k).pc = .entered then
      match s.activeBackend with
      | none => some (s.createProfile k)
      | some b => some (s.setConnect k (.looking b))
    else none
  | .look k =>
    match (s.connects k).pc with
    | .looking b => some (s.look k b)
    | _ => none
  | .resume k =>
    match (s.connects k).pc with
    | .reconnecting d =>
      if (s.disconnects d).pc = .returned then some (s.createProfile k) else none
    | _ => none
  | .launch k permitted =>
    if (s.connects k).pc = .building then
      some { s.setConnect k (if permitted then .handing false else .permission) with
        activeConnectionId := some k }
    else none
  | .grant k =>
    if (s.connects k).pc = .permission then
      some (s.setConnect k (if s.activeConnectionId = some k then .handing true else .over))
    else none
  | .handOver k =>
    match (s.connects k).pc with
    | .handing _ => some (s.setConnect k .launched)
    | _ => none
  | .abandon k => if s.abandons k then some (s.setConnect k .over) else none
  | .assign k =>
    if (s.connects k).pc = .launched then
      some { s.setConnect k .assigned with activeBackend := backendFor (s.connects k).protocol }
    else none
  | .read k =>
    if (s.connects k).pc = .assigned then
      match s.activeBackend with
      | none => some (s.setConnect k .over)
      | some b => some (s.setConnect k (.activating b))
    else none
  | .activate k =>
    match (s.connects k).pc with
    | .activating b => some { s.setConnect k .over with active := Function.update s.active b true }
    | _ => none
  | .disconnect none => some (s.call none false)
  | .disconnect (some k) =>
    if (s.connects k).pc = .building then
      some ((s.call (some k) false).setConnect k (.failing s.called))
    else none
  | .proceed d => if d < s.called then s.proceed d else none
  | .joinThrows d =>
    match (s.disconnects d).pc with
    | .joining _ => some (s.setDisconnect d .sampling)
    | _ => none
  | .throws d => s.throws d
  | .backendDisconnect b => some { s with active := Function.update s.active b false }

/-! ### What the holder promises -/

/-- The holder refers to the backend that is active, and a disconnect that has returned with no
connect after it leaves none active. -/
structure Known (s : Holder) : Prop where
  referred : ∀ b, s.active b = true → s.activeBackend = some b
  final : ∀ d < s.called, (s.disconnects d).pc = .returned → (s.disconnects d).followed = false →
    ∀ b, s.active b = false

/-- No disconnect that no connect followed has read `activeBackend` yet. -/
def Unsampled (s : Holder) : Prop :=
  ∀ d < s.called, (s.disconnects d).pc.sampled = true → (s.disconnects d).followed = true

instance decidableUnsampled (s : Holder) : Decidable (Unsampled s) :=
  inferInstanceAs (Decidable (∀ d < s.called, _))

/-- The condition of the holder. A connect hands over to the holder before a later disconnect has
read `activeBackend`, and its activating coroutine is through by then; that coroutine does not write
over an active backend, and the field is still as it read it when it activates what it read; and a
disconnect does not clear the field of an active backend. -/
def Ordered (s : Holder) : Action → Prop
  | .handOver _ => Unsampled s
  | .assign k => ∀ b, s.active b = true → backendFor (s.connects k).protocol = some b
  | .activate k => ∀ b, (s.connects k).pc = .activating b → s.activeBackend = some b
  | .proceed d =>
    ((s.disconnects d).pc = .sampling → (s.disconnects d).followed = false →
      ∀ k < s.issued, (s.connects k).pc.pending = false) ∧
      ∀ failed, (s.disconnects d).pc = .clearing failed → ∀ b, s.active b = false
  | _ => True

instance decidableOrdered (s : Holder) : (a : Action) → Decidable (Ordered s a)
  | .handOver _ => inferInstanceAs (Decidable (Unsampled s))
  | .assign k => inferInstanceAs (Decidable
      (∀ b, s.active b = true → backendFor (s.connects k).protocol = some b))
  | .activate k => inferInstanceAs (Decidable
      (∀ b, (s.connects k).pc = .activating b → s.activeBackend = some b))
  | .proceed d => inferInstanceAs (Decidable
      (((s.disconnects d).pc = .sampling → (s.disconnects d).followed = false →
        ∀ k < s.issued, (s.connects k).pc.pending = false) ∧
        ∀ failed, (s.disconnects d).pc = .clearing failed → ∀ b, s.active b = false))
  | .connectAsync | .connect _ _ | .store _ | .launchVpnService _ | .enter _ | .look _ | .resume _
  | .launch _ _ | .grant _ | .abandon _ | .read _ | .disconnect _ | .joinThrows _ | .throws _
  | .backendDisconnect _ => inferInstanceAs (Decidable True)

/-- The invariant: besides the promise, a disconnect that no connect followed and that has read
`activeBackend` has no activation to fear and no active backend but the one it is stopping. -/
structure Inv (s : Holder) : Prop where
  referred : ∀ b, s.active b = true → s.activeBackend = some b
  unissued : ∀ k, s.issued ≤ k → (s.connects k).pc = .over
  quiet : ∀ d < s.called, (s.disconnects d).pc.sampled = true → (s.disconnects d).followed = false →
    ∀ k, (s.connects k).pc.pending = false
  stopping : ∀ d < s.called, (s.disconnects d).pc.sampled = true →
    (s.disconnects d).followed = false → ∀ b, s.active b = true → (s.disconnects d).pc = .stopping b

/-- While an activation is pending, no disconnect that no connect followed has read the field. -/
theorem Inv.unsampled_of_pending {s : Holder} (h : Inv s) {k : ℕ}
    (hpending : (s.connects k).pc.pending = true) : Unsampled s := by
  intro d hd hsampled
  by_contra hfollowed
  rw [h.quiet d hd hsampled (by simpa using hfollowed) k] at hpending
  cases hpending

/-- A connect that is not over was issued. -/
theorem Inv.issued_of_ne {s : Holder} (h : Inv s) {k : ℕ} (hk : (s.connects k).pc ≠ .over) :
    k < s.issued := by
  by_contra hle
  exact hk (h.unissued k (Nat.le_of_not_lt hle))

/-! ### What keeps the invariant -/

/-- A state in which every disconnect that has read the field is followed by a connect. -/
theorem inv_of_unsampled {s : Holder}
    (hreferred : ∀ b, s.active b = true → s.activeBackend = some b)
    (hunissued : ∀ k, s.issued ≤ k → (s.connects k).pc = .over) (hunsampled : Unsampled s) :
    Inv s := by
  refine ⟨hreferred, hunissued, fun d hd hsampled hfollowed ↦ ?_,
    fun d hd hsampled hfollowed ↦ ?_⟩
  · rw [hunsampled d hd hsampled] at hfollowed
    cases hfollowed
  · rw [hunsampled d hd hsampled] at hfollowed
    cases hfollowed

/-- The identifiers the controller keeps are no part of the invariant. -/
theorem Inv.withIds {s : Holder} (h : Inv s) (activeConnectionId connectJob : Option ℕ)
    (launching : ℕ) :
    Inv { s with
      activeConnectionId := activeConnectionId
      connectJob := connectJob
      launching := launching } :=
  ⟨h.referred, h.unissued, h.quiet, h.stopping⟩

/-- The connects change without an activation being launched. -/
theorem Inv.withConnects {s : Holder} (h : Inv s) (connects : ℕ → Connect)
    (hunissued : ∀ k, s.issued ≤ k → (connects k).pc = .over)
    (hpending : ∀ k, (connects k).pc.pending = true → (s.connects k).pc.pending = true) :
    Inv { s with connects := connects } := by
  refine ⟨h.referred, hunissued, fun d hd hsampled hfollowed k ↦ ?_, h.stopping⟩
  rw [Bool.eq_false_iff]
  intro hk
  have hnone := h.quiet d hd hsampled hfollowed k
  rw [hpending k hk] at hnone
  cases hnone

theorem setConnect_unissued {s : Holder} (h : Inv s) {k : ℕ} (hk : k < s.issued) (pc : ConnectPc)
    (j : ℕ) (hj : s.issued ≤ j) : ((s.setConnect k pc).connects j).pc = .over := by
  have hne : j ≠ k := by omega
  simpa [Holder.setConnect, hne] using h.unissued j hj

/-- An issued connect moves without an activation being launched. -/
theorem inv_setConnect {s : Holder} (h : Inv s) {k : ℕ} (hk : (s.connects k).pc ≠ .over)
    {pc : ConnectPc} (hpc : pc.pending = true → (s.connects k).pc.pending = true) :
    Inv (s.setConnect k pc) := by
  refine h.withConnects _ (setConnect_unissued h (h.issued_of_ne hk) pc) fun j hj ↦ ?_
  by_cases hjk : j = k
  · subst hjk
    rw [Function.update_self] at hj
    exact hpc hj
  · rwa [Function.update_of_ne hjk] at hj

/-- The connects change without any of them moving. -/
theorem inv_samePc {s : Holder} (h : Inv s) {connects : ℕ → Connect}
    (hpc : ∀ j, (connects j).pc = (s.connects j).pc) : Inv { s with connects := connects } :=
  h.withConnects _ (fun j hj ↦ (hpc j).trans (h.unissued j hj)) fun j hj ↦ hpc j ▸ hj

/-- An update of one connect that leaves it where it is. -/
theorem update_samePc {connects : ℕ → Connect} {k : ℕ} {connect : Connect}
    (hpc : connect.pc = (connects k).pc) (j : ℕ) :
    (Function.update connects k connect j).pc = (connects j).pc := by
  by_cases hj : j = k
  · rw [hj, Function.update_self, hpc]
  · rw [Function.update_of_ne hj]

theorem inv_cancelConnect {s : Holder} (h : Inv s) (k : ℕ) : Inv (s.cancelConnect k) :=
  inv_samePc h (update_samePc rfl)

theorem inv_cancelConnectJob {s : Holder} (h : Inv s) : Inv s.cancelConnectJob := by
  unfold Holder.cancelConnectJob
  split
  · exact h
  · exact inv_cancelConnect h _

theorem inv_store {s : Holder} (h : Inv s) (k : ℕ) : Inv (s.store k) := by
  have hpc : ∀ j, (Function.update s.connects k { s.connects k with unstored := false } j).pc =
      (s.connects j).pc := update_samePc rfl
  exact (inv_samePc h hpc).withIds _ (some k) _

theorem issue_unissued {s : Holder} (h : Inv s) (protocol : Protocol) (async : Bool) (k : ℕ)
    (hk : s.issued + 1 ≤ k) : ((s.issue protocol async).connects k).pc = .over := by
  have hne : k ≠ s.issued := by omega
  simpa [Holder.issue, hne] using h.unissued k (by omega)

theorem inv_issue {s : Holder} (h : Inv s) (protocol : Protocol) (async : Bool) :
    Inv (s.issue protocol async) :=
  inv_of_unsampled h.referred (issue_unissued h protocol async) fun _ _ _ ↦ rfl

/-- A disconnect that is called has not read the field. -/
theorem inv_call {s : Holder} (h : Inv s) (caller : Option ℕ) (reconnecting : Bool) :
    Inv (s.call caller reconnecting) := by
  have hsame : ∀ d < s.called + 1, ((s.call caller reconnecting).disconnects d).pc.sampled = true →
      d < s.called ∧ (s.call caller reconnecting).disconnects d = s.disconnects d := by
    intro d hd hsampled
    by_cases hnew : d = s.called
    · rw [hnew] at hsampled
      simp [Holder.call, DisconnectPc.sampled] at hsampled
    · exact ⟨by omega, Function.update_of_ne hnew _ _⟩
  refine ⟨h.referred, h.unissued, fun d hd hsampled hfollowed ↦ ?_,
    fun d hd hsampled hfollowed ↦ ?_⟩
  · obtain ⟨hlt, heq⟩ := hsame d hd hsampled
    rw [heq] at hsampled hfollowed
    exact h.quiet d hlt hsampled hfollowed
  · obtain ⟨hlt, heq⟩ := hsame d hd hsampled
    rw [heq] at hsampled hfollowed ⊢
    exact h.stopping d hlt hsampled hfollowed

/-- A disconnect moves. -/
theorem inv_setDisconnect {s : Holder} (h : Inv s) {d : ℕ} {pc : DisconnectPc}
    (hpc : d < s.called → pc.sampled = true → (s.disconnects d).followed = false →
      (∀ k, (s.connects k).pc.pending = false) ∧ ∀ b, s.active b = true → pc = .stopping b) :
    Inv (s.setDisconnect d pc) := by
  refine ⟨h.referred, h.unissued, fun e he hsampled hfollowed ↦ ?_,
    fun e he hsampled hfollowed ↦ ?_⟩ <;> by_cases hed : e = d
  · subst hed
    simp only [Holder.setDisconnect, Function.update_self] at hsampled hfollowed
    exact (hpc he hsampled hfollowed).1
  · simp only [Holder.setDisconnect, Function.update_of_ne hed] at hsampled hfollowed
    exact h.quiet e he hsampled hfollowed
  · subst hed
    simp only [Holder.setDisconnect, Function.update_self] at hsampled hfollowed ⊢
    exact (hpc he hsampled hfollowed).2
  · simp only [Holder.setDisconnect, Function.update_of_ne hed] at hsampled hfollowed ⊢
    exact h.stopping e he hsampled hfollowed

/-- A disconnect moves to a place where it has not read the field, or has thrown. -/
theorem inv_setDisconnect_unsampled {s : Holder} (h : Inv s) {d : ℕ} {pc : DisconnectPc}
    (hpc : pc.sampled = false) : Inv (s.setDisconnect d pc) := by
  refine inv_setDisconnect h fun _ hsampled ↦ ?_
  rw [hpc] at hsampled
  cases hsampled

/-- A backend that was deactivated is not active, and the others are as they were. -/
theorem active_of_deactivated {s : Holder} {b c : VpnBackend}
    (hc : Function.update s.active b false c = true) : c ≠ b ∧ s.active c = true := by
  by_cases hcb : c = b
  · rw [hcb, Function.update_self] at hc
    cases hc
  · rw [Function.update_of_ne hcb] at hc
    exact ⟨hcb, hc⟩

theorem inv_deactivate {s : Holder} (h : Inv s) (b : VpnBackend) :
    Inv { s with active := Function.update s.active b false } :=
  ⟨fun c hc ↦ h.referred c (active_of_deactivated hc).2, h.unissued, h.quiet,
    fun d hd hsampled hfollowed c hc ↦
      h.stopping d hd hsampled hfollowed c (active_of_deactivated hc).2⟩

/-! ### One step -/

theorem inv_createProfile {s : Holder} (h : Inv s) {k : ℕ} (hk : (s.connects k).pc ≠ .over) :
    Inv (s.createProfile k) := by
  have hbuilding : Inv (s.setConnect k .building) := inv_setConnect h hk nofun
  exact hbuilding.withIds (some k) _ _

theorem inv_look {s : Holder} (h : Inv s) {k : ℕ} (hk : (s.connects k).pc ≠ .over)
    (b : VpnBackend) : Inv (s.look k b) := by
  unfold Holder.look
  split_ifs
  · exact inv_setConnect (inv_call h (some k) true) hk nofun
  · exact inv_createProfile h hk

/-- The activating coroutine writes the field. -/
theorem inv_assign {s : Holder} (h : Inv s) {k : ℕ} (hpc : (s.connects k).pc = .launched)
    {backend : Option VpnBackend} (hactive : ∀ b, s.active b = true → backend = some b) :
    Inv { s.setConnect k .assigned with activeBackend := backend } := by
  have hissued : k < s.issued := h.issued_of_ne (by simp [hpc])
  have hunsampled : Unsampled s :=
    h.unsampled_of_pending (k := k) (by simp [hpc, ConnectPc.pending])
  exact inv_of_unsampled hactive (setConnect_unissued h hissued _) hunsampled

/-- The activating coroutine activates the backend the field still refers to. -/
theorem inv_activate {s : Holder} (h : Inv s) {k : ℕ} {b : VpnBackend}
    (hpc : (s.connects k).pc = .activating b) (hbackend : s.activeBackend = some b) :
    Inv { s.setConnect k .over with active := Function.update s.active b true } := by
  have hissued : k < s.issued := h.issued_of_ne (by simp [hpc])
  have hunsampled : Unsampled s :=
    h.unsampled_of_pending (k := k) (by simp [hpc, ConnectPc.pending])
  refine inv_of_unsampled (fun c hc ↦ ?_) (setConnect_unissued h hissued _) hunsampled
  by_cases hcb : c = b
  · rw [hcb]
    exact hbackend
  · exact h.referred c (by simpa [Function.update_of_ne hcb] using hc)

/-- A disconnect reads the field while no activation is pending, or before a connect. -/
theorem inv_sample {s : Holder} (h : Inv s) {d : ℕ}
    (hpending : (s.disconnects d).followed = false → ∀ k < s.issued,
      (s.connects k).pc.pending = false) {pc : DisconnectPc}
    (hpc : ∀ b, s.activeBackend = some b → pc = .stopping b) : Inv (s.setDisconnect d pc) := by
  refine inv_setDisconnect h fun _ _ hfollowed ↦ ⟨fun k ↦ ?_, fun b hb ↦ hpc b (h.referred b hb)⟩
  by_cases hk : k < s.issued
  · exact hpending hfollowed k hk
  · rw [h.unissued k (Nat.le_of_not_lt hk)]
    rfl

/-- A disconnect that has read the field, and is not stopping a backend any more, goes on. -/
theorem inv_leave {s : Holder} (h : Inv s) {d : ℕ} {pc : DisconnectPc}
    (hsampled : pc.sampled = true → (s.disconnects d).pc.sampled = true)
    (hstopping : ∀ b, (s.disconnects d).pc ≠ .stopping b) : Inv (s.setDisconnect d pc) := by
  refine inv_setDisconnect h fun hd hpc hfollowed ↦ ?_
  refine ⟨h.quiet d hd (hsampled hpc) hfollowed, fun b hb ↦ ?_⟩
  exact absurd (h.stopping d hd (hsampled hpc) hfollowed b hb) (hstopping b)

/-- The backend a disconnect is stopping is deactivated. -/
theorem inv_stop {s : Holder} (h : Inv s) {d : ℕ} {b : VpnBackend}
    (hpc : (s.disconnects d).pc = .stopping b) :
    Inv ({ s with active := Function.update s.active b false }.setDisconnect d
      (.clearing false)) := by
  have hsampled : (s.disconnects d).pc.sampled = true := by simp [hpc, DisconnectPc.sampled]
  refine inv_setDisconnect (inv_deactivate h b) fun hd _ hfollowed ↦ ?_
  refine ⟨h.quiet d hd hsampled hfollowed, fun c hc ↦ ?_⟩
  obtain ⟨hne, hactive⟩ := active_of_deactivated hc
  have hsame := h.stopping d hd hsampled hfollowed c hactive
  rw [hpc, DisconnectPc.stopping.injEq] at hsame
  exact absurd hsame.symm hne

/-- The `finally` clears the field while no backend is active. -/
theorem inv_clear {s : Holder} (h : Inv s) {d : ℕ} {failed : Bool}
    (hpc : (s.disconnects d).pc = .clearing failed) (hactive : ∀ b, s.active b = false) :
    Inv ({ s with activeBackend := none }.setDisconnect d
      (if failed then .thrown else .finishing)) := by
  have hcleared : Inv { s with activeBackend := none } :=
    ⟨fun b hb ↦ absurd hb (by simp [hactive b]), h.unissued, h.quiet, h.stopping⟩
  refine inv_leave hcleared ?_ (by simp [hpc])
  cases failed <;> simp [hpc, DisconnectPc.sampled]

theorem inv_proceed {s s' : Holder} {d : ℕ} (h : Inv s) (hordered : Ordered s (.proceed d))
    (hstep : s.proceed d = some s') : Inv s' := by
  obtain ⟨hsampling, hclearing⟩ := hordered
  unfold Holder.proceed at hstep
  cases hpc : (s.disconnects d).pc with
  | entered =>
    simp only [hpc] at hstep
    split at hstep
    · cases hstep
      exact inv_setDisconnect_unsampled h rfl
    · split_ifs at hstep <;> cases hstep <;> exact inv_setDisconnect_unsampled h rfl
  | preparing k =>
    simp only [hpc, Option.some.injEq] at hstep
    subst hstep
    have hjoining : Inv ((s.cancelConnect k).setDisconnect d (.joining k)) :=
      inv_setDisconnect_unsampled (inv_cancelConnect h k) rfl
    exact hjoining.withIds _ none _
  | joining k =>
    simp only [hpc] at hstep
    split_ifs at hstep
    cases hstep
    exact inv_setDisconnect_unsampled h rfl
  | sampling =>
    simp only [hpc] at hstep
    split at hstep <;> rename_i hbackend <;> cases hstep
    · exact inv_sample h (hsampling hpc) (by simp [hbackend])
    · exact inv_sample h (hsampling hpc) (by simp [hbackend])
  | stopping b =>
    simp only [hpc, Option.some.injEq] at hstep
    exact hstep ▸ inv_stop h hpc
  | clearing failed =>
    simp only [hpc, Option.some.injEq] at hstep
    exact hstep ▸ inv_clear h hpc (hclearing failed hpc)
  | finishing =>
    simp only [hpc, Option.some.injEq] at hstep
    subst hstep
    have hleft : Inv (s.setDisconnect d .returned) :=
      inv_leave h (by simp [hpc, DisconnectPc.sampled]) (by simp [hpc])
    exact hleft.withIds _ _ _
  | returned | thrown =>
    simp only [hpc] at hstep
    cases hstep

theorem inv_throws {s s' : Holder} {d : ℕ} (h : Inv s) (hstep : s.throws d = some s') : Inv s' := by
  unfold Holder.throws at hstep
  split at hstep
  · cases hstep
    exact inv_setDisconnect_unsampled h rfl
  · split_ifs at hstep
    cases hstep
    exact inv_setDisconnect_unsampled h rfl
  · cases hstep

/-- A connect that gives up was issued. -/
theorem ne_over_of_abandons {s : Holder} {k : ℕ} (h : s.abandons k = true) :
    (s.connects k).pc ≠ .over := by
  intro hover
  simp [Holder.abandons, hover] at h

theorem inv_issueStep {s s' : Holder} {protocol : Protocol} {async : Bool} (h : Inv s)
    (hstep : step s (.connect protocol async) = some s') : Inv s' := by
  simp only [step] at hstep
  split_ifs at hstep
  · cases hstep
    exact (inv_issue h protocol true).withIds _ _ (s.launching - 1)
  · cases hstep
    exact inv_issue h protocol false

theorem inv_launchVpnService {s : Holder} (h : Inv s) (protocol : Protocol) :
    Inv ((s.issue protocol false).setConnect s.issued .building) :=
  inv_setConnect (inv_issue h protocol false) (by simp [Holder.issue]) nofun

theorem inv_enter {s s' : Holder} {k : ℕ} (h : Inv s) (hstep : step s (.enter k) = some s') :
    Inv s' := by
  simp only [step] at hstep
  split_ifs at hstep with hpc
  have hk : (s.connects k).pc ≠ .over := by simp [hpc]
  split at hstep <;> cases hstep
  · exact inv_createProfile h hk
  · exact inv_setConnect h hk nofun

theorem inv_resume {s s' : Holder} {k : ℕ} (h : Inv s) (hstep : step s (.resume k) = some s') :
    Inv s' := by
  simp only [step] at hstep
  split at hstep <;> rename_i hpc
  · split_ifs at hstep
    cases hstep
    exact inv_createProfile h (by simp [hpc])
  · cases hstep

theorem inv_launch {s s' : Holder} {k : ℕ} {permitted : Bool} (h : Inv s)
    (hstep : step s (.launch k permitted) = some s') : Inv s' := by
  simp only [step] at hstep
  split_ifs at hstep with hpc hpermitted <;> cases hstep
  · have hhanding : Inv (s.setConnect k (.handing false)) :=
      inv_setConnect h (by simp [hpc]) nofun
    exact hhanding.withIds (some k) _ _
  · have hpermission : Inv (s.setConnect k .permission) := inv_setConnect h (by simp [hpc]) nofun
    exact hpermission.withIds (some k) _ _

theorem inv_grant {s s' : Holder} {k : ℕ} (h : Inv s) (hstep : step s (.grant k) = some s') :
    Inv s' := by
  simp only [step] at hstep
  split_ifs at hstep with hpc <;> cases hstep <;>
    exact inv_setConnect h (by simp [hpc]) nofun

/-- A connect hands over before a later disconnect has read the field. -/
theorem inv_handOver {s s' : Holder} {k : ℕ} (h : Inv s) (hunsampled : Unsampled s)
    (hstep : step s (.handOver k) = some s') : Inv s' := by
  simp only [step] at hstep
  split at hstep <;> rename_i hpc <;> cases hstep
  exact inv_of_unsampled h.referred
    (setConnect_unissued h (h.issued_of_ne (k := k) (by simp [hpc])) _) hunsampled

theorem inv_read {s s' : Holder} {k : ℕ} (h : Inv s) (hstep : step s (.read k) = some s') :
    Inv s' := by
  simp only [step] at hstep
  split_ifs at hstep with hpc
  split at hstep <;> cases hstep <;>
    exact inv_setConnect h (by simp [hpc]) (by simp [hpc, ConnectPc.pending])

theorem inv_disconnect {s s' : Holder} {caller : Option ℕ} (h : Inv s)
    (hstep : step s (.disconnect caller) = some s') : Inv s' := by
  cases caller with
  | none =>
    cases hstep
    exact inv_call h none false
  | some k =>
    simp only [step] at hstep
    split_ifs at hstep with hpc
    cases hstep
    exact inv_setConnect (inv_call h (some k) false) (k := k) (by simp [Holder.call, hpc]) nofun

/-- Every ordered step keeps the invariant. -/
theorem inv_step {s s' : Holder} {a : Action} (h : Inv s) (hordered : Ordered s a)
    (hstep : step s a = some s') : Inv s' := by
  cases a with
  | connectAsync =>
    cases hstep
    exact (inv_cancelConnectJob h).withIds _ _ (s.launching + 1)
  | connect protocol async => exact inv_issueStep h hstep
  | store k =>
    simp only [step] at hstep
    split_ifs at hstep
    cases hstep
    exact inv_store h k
  | launchVpnService protocol =>
    cases hstep
    exact inv_launchVpnService h protocol
  | enter k => exact inv_enter h hstep
  | look k =>
    simp only [step] at hstep
    split at hstep <;> rename_i hpc <;> cases hstep
    exact inv_look h (by simp [hpc]) _
  | resume k => exact inv_resume h hstep
  | launch k permitted => exact inv_launch h hstep
  | grant k => exact inv_grant h hstep
  | handOver k => exact inv_handOver h hordered hstep
  | abandon k =>
    simp only [step] at hstep
    split_ifs at hstep with habandons
    cases hstep
    exact inv_setConnect h (ne_over_of_abandons habandons) nofun
  | assign k =>
    simp only [step] at hstep
    split_ifs at hstep with hpc
    cases hstep
    exact inv_assign h hpc hordered
  | read k => exact inv_read h hstep
  | activate k =>
    simp only [step] at hstep
    split at hstep <;> rename_i hpc <;> cases hstep
    exact inv_activate h hpc (hordered _ hpc)
  | disconnect caller => exact inv_disconnect h hstep
  | proceed d =>
    simp only [step] at hstep
    split_ifs at hstep
    exact inv_proceed h hordered hstep
  | joinThrows d =>
    simp only [step] at hstep
    split at hstep <;> cases hstep
    exact inv_setDisconnect_unsampled h rfl
  | throws d => exact inv_throws h hstep
  | backendDisconnect b =>
    cases hstep
    exact inv_deactivate h b

theorem inv_initial : Inv Holder.initial := by
  constructor <;> simp [Holder.initial]

/-! ### The promise -/

/-- **The holder knows the active backend.** In every run whose steps are all ordered, an active
backend is the one the holder refers to, and a disconnect that has returned with no connect after it
leaves none active. -/
theorem known_of_ordered {s : Holder} (hreach : Reaches step Ordered Holder.initial s) :
    Known s := by
  have h : Inv s :=
    hreach.invariant Inv (fun _ _ _ hx hordered hstep ↦ inv_step hx hordered hstep) inv_initial
  refine ⟨h.referred, fun d hd hreturned hfollowed b ↦ ?_⟩
  rw [Bool.eq_false_iff]
  intro hb
  have hstopping := h.stopping d hd (by simp [hreturned, DisconnectPc.sampled]) hfollowed b hb
  rw [hreturned] at hstopping
  cases hstopping

/-- A connect reaches the holder. -/
def connects (k : ℕ) : List Action := [.enter k, .launch k true, .handOver k]

/-- The coroutine the holder launches for a connect. -/
def activates (k : ℕ) : List Action := [.assign k, .read k, .activate k]

/-- A disconnect takes several steps. -/
def proceeds (d n : ℕ) : List Action := List.replicate n (.proceed d)

/-- A connect activates WireGuard, a second one moves the session to IKEv2, and then the user
disconnects. -/
def orderedRun : List Action :=
  List.flatten [[.connectAsync, .connect .wireGuard true, .store 0], connects 0, activates 0,
    [.connect .ikev2 false, .enter 1, .look 1], proceeds 0 7,
    [.resume 1, .launch 1 true, .handOver 1], activates 1, [.disconnect none], proceeds 1 5]

/-- After `orderedRun` no backend is active. -/
theorem known_of_ordered_disconnected :
    ∃ s, Reaches step Ordered Holder.initial s ∧ (s.disconnects 1).pc = .returned ∧
      ∀ b, s.active b = false := by
  obtain ⟨s, hreach, hcheck⟩ := exists_reaches_of_run step Ordered Holder.initial orderedRun
    (fun s ↦ decide (1 < s.called ∧ (s.disconnects 1).pc = .returned ∧
      (s.disconnects 1).followed = false)) (by decide)
  obtain ⟨hcalled, hreturned, hfollowed⟩ := of_decide_eq_true hcheck
  exact ⟨s, hreach, hreturned, (known_of_ordered hreach).final 1 hcalled hreturned hfollowed⟩

/-! ### Two runs in which a backend is left active -/

/-- The user disconnects after a connect was handed over and before its coroutine ran. -/
def pendingRun : List Action :=
  List.flatten [[.connectAsync, .connect .wireGuard true, .store 0], connects 0, [.disconnect none],
    proceeds 0 5, activates 0]

/-- A backend is active although a disconnect has returned and no connect came after it. -/
theorem not_known_pending :
    ¬ ∀ s, Reaches step Always Holder.initial s → Known s := by
  intro hall
  obtain ⟨s, hreach, hbad⟩ := exists_reaches_of_run step Always Holder.initial pendingRun
    (fun s ↦ decide (0 < s.called ∧ (s.disconnects 0).pc = .returned ∧
      (s.disconnects 0).followed = false ∧ s.active .wireGuard = true)) (by decide)
  obtain ⟨hcalled, hreturned, hfollowed, hactive⟩ := of_decide_eq_true hbad
  have hnone := (hall s hreach).final 0 hcalled hreturned hfollowed .wireGuard
  rw [hactive] at hnone
  cases hnone

/-- WireGuard has disconnected on its own, and the user connects again while a disconnect is still
in the teardown of that backend. -/
def clearedRun : List Action :=
  List.flatten [[.connect .wireGuard false], connects 0, activates 0,
    [.backendDisconnect .wireGuard, .disconnect none], proceeds 0 2,
    [.connect .ikev2 false, .enter 1, .look 1, .launch 1 true, .handOver 1], activates 1,
    proceeds 0 2]

/-- The disconnect clears the field that refers to the backend of the second connect. -/
theorem not_known_cleared :
    ¬ ∀ s, Reaches step Always Holder.initial s → Known s := by
  intro hall
  obtain ⟨s, hreach, hbad⟩ := exists_reaches_of_run step Always Holder.initial clearedRun
    (fun s ↦ decide (s.active .ikev2 = true ∧ s.activeBackend = none)) (by decide)
  obtain ⟨hactive, hcleared⟩ := of_decide_eq_true hbad
  have hreferred := (hall s hreach).referred .ikev2 hactive
  rw [hcleared] at hreferred
  cases hreferred

end WindscribeVpn.Backend.VpnBackendHolder
