import WindscribeVpn.Backend.VPNState
import WindscribeVpn.Foundations.Runs
import Mathlib.Data.List.Nodup
import Mathlib.Data.List.Perm.Subperm
import Mathlib.Data.List.Sort
import Mathlib.Tactic.SplitIfs

/-!
# The failover walk

When an attempt to connect fails, `AutoConnectionManager.kt` marks its protocol `Failed` and offers
the next one of `listOfProtocols`, until none is `Disconnected` and every protocol has failed. The
list is written by others meanwhile. The collector of the connection state sets the protocol of
every `Disconnected` state it handles back to `Disconnected`, at a time of its own; `reset` rebuilds
the list; the user may select any entry. This module follows one walk from its start, one write of
the list at a time, through every order of these.

An attempt is the walk's try of one protocol: what `connectionAttempt` retries before it returns
(another node, refreshed credentials, new keys) belongs to it.

`TriesOnce` is the promise: no protocol is attempted again after the walk marked it, and a walk
makes no more attempts than there are protocols and ends. `not_triesOnce_collected` is a run that
breaks it: the collector handles the failure after the walk did and undoes the mark.
`Undisturbed` is the condition that nobody undoes a mark and no marked protocol is selected, and
`triesOnce_of_undisturbed` proves the promise for every run whose steps all meet it.
-/

set_option autoImplicit false
set_option relaxedAutoImplicit false

namespace WindscribeVpn.AutoConnection.ProtocolWalk

open Backend Foundations.Runs

/-! ### The list of protocols -/

/-- `ProtocolConnectionStatus`, in the order of its entries. -/
inductive ProtocolConnectionStatus
  | disconnected
  | nextUp
  | connected
  | failed
  deriving DecidableEq, Repr

/-- The place of a status in its enumeration, by which Kotlin compares. -/
def ProtocolConnectionStatus.ordinal : ProtocolConnectionStatus → ℕ
  | .disconnected => 0
  | .nextUp => 1
  | .connected => 2
  | .failed => 3

/-- An entry of `listOfProtocols`. -/
structure Listed extends ProtocolInformation where
  type : ProtocolConnectionStatus
  deriving DecidableEq, Repr

/-- The protocols of a list. -/
def names (protocols : List Listed) : List String := protocols.map fun e ↦ e.protocol

/-- `listOfProtocols.firstOrNull { picked }?.type = type`. -/
def setFirstType (picked : Listed → Bool) (type : ProtocolConnectionStatus) :
    List Listed → List Listed
  | [] => []
  | e :: rest =>
    if picked e then { e with type } :: rest else e :: setFirstType picked type rest

/-- `listOfProtocols.sortBy { it.type }`, which is stable. -/
def sortByType (protocols : List Listed) : List Listed :=
  protocols.insertionSort fun a b ↦ a.type.ordinal ≤ b.type.ordinal

/-- The loop that makes every `NextUp` of the list `Disconnected`. -/
def clearNextUp (protocols : List Listed) : List Listed :=
  protocols.map fun e ↦ if e.type = .nextUp then { e with type := .disconnected } else e

/-- `moveProtocolToTop` for the entry of a protocol, when there is one. -/
def moveProtocolToTop (protocol : String) (protocols : List Listed) : List Listed :=
  match protocols.find? fun e ↦ e.protocol = protocol with
  | none => protocols
  | some e => e :: protocols.eraseP fun e ↦ e.protocol = protocol

/-- The list of `reloadProtocols` after `reset` cleared the old one: `Disconnected` throughout, and
the first entry `NextUp`. The order depends on the preferences and on the network. -/
def reloadProtocols : List ProtocolInformation → List Listed
  | [] => []
  | first :: rest =>
    { first with type := .nextUp } :: rest.map fun e ↦ { e with type := .disconnected }

/-- The protocol that is tried without a choice of the user: the first `NextUp`, else the first
entry. -/
def nextInLine (protocols : List Listed) : Option Listed :=
  (protocols.find? fun e ↦ e.type = .nextUp).or protocols.head?

/-- The protocol of `getProtocolInformationToConnect`, with its default for a list that is not ready
yet. -/
def getProtocolInformationToConnect (protocols : List Listed) : String :=
  ((nextInLine protocols).map fun e ↦ e.protocol).getD "wg"

/-- The entry of a published protocol, which the collector finds by protocol and port. -/
def sameEntry (info : ProtocolInformation) (e : Listed) : Bool :=
  e.protocol = info.protocol ∧ e.port = info.port

/-- What the collector writes for one state. -/
def collectState (state : VPNState) (protocols : List Listed) : List Listed :=
  match state.protocolInformation with
  | none => protocols
  | some info =>
    if state.status = .disconnected then
      setFirstType (sameEntry info) .disconnected protocols
    else if state.status = .connected ∧ protocols.any (sameEntry info) then
      setFirstType (sameEntry info) .connected
        (setFirstType (fun e ↦ e.type = .connected) .disconnected protocols)
    else protocols

/-! ### The walk -/

/-- Which callback makes an attempt. -/
inductive Kind
  /-- `connectInForeground`. -/
  | foreground
  /-- The dialog of `changeProtocolInForeground`. -/
  | changed
  /-- The dialog of a failed connection, or its countdown. -/
  | selected
  deriving DecidableEq, Repr

/-- Where a walk is. -/
inductive Phase
  /-- The dialog for a change of protocol is open. -/
  | changing
  | attempting (kind : Kind) (protocol : String)
  /-- The attempt failed and the `NextUp` entry is put back; its protocol is not marked yet. -/
  | returned (protocol : String)
  /-- The protocol is marked and `engageAutomaticMode` is called. -/
  | engaging
  /-- `engageAutomaticMode` sorted the list. -/
  | sorted
  /-- The next protocol is offered. -/
  | choosing
  /-- No protocol was left, and the outcome is reported. -/
  | allProtocolFailed
  /-- Driving stopped in another way. -/
  | stopped
  deriving DecidableEq, Repr

/-- The walk still drives. -/
def Phase.running : Phase → Bool
  | .allProtocolFailed => false
  | .stopped => false
  | _ => true

/-- The protocol of an attempt that is not marked yet. -/
def Phase.current : Phase → List String
  | .attempting _ protocol => [protocol]
  | .returned protocol => [protocol]
  | _ => []

/-- What a walk finds when it starts. `state` is the published state, `unseen` says that the
collector has not taken it, and `hand` is the state it has taken and not handled. -/
structure Manager where
  listOfProtocols : List Listed
  selectedProtocol : String
  state : VPNState
  unseen : Bool
  hand : Option VPNState
  deriving DecidableEq, Repr

/-- An attempt of a walk, and whether the walk had marked its protocol. -/
structure Attempt where
  protocol : String
  again : Bool
  deriving DecidableEq, Repr

/-- A walk. The last three fields record its attempts and the protocols it marked, both latest
first, and how many steps of its own it took. -/
structure Walk extends Manager where
  phase : Phase
  attempts : List Attempt
  failed : List String
  ownSteps : ℕ
  deriving DecidableEq, Repr

/-- A step of the walk or of its surroundings. -/
inductive Action
  | publish (state : VPNState)
  /-- The collector takes the published state. -/
  | observe
  /-- The collector handles the state it has taken. -/
  | collect
  /-- `reset` from outside, with the order of the new list. -/
  | reset (order : List ProtocolInformation)
  /-- An attempt of the failure dialog failed: its `NextUp` entry is put back. -/
  | putBack
  /-- A failed attempt is marked. -/
  | mark
  | sort
  /-- `engageAutomaticMode` offers the next protocol, or resets the list when none is left. -/
  | pick (order : List ProtocolInformation)
  /-- Nobody intervenes, or there is no dialog. -/
  | countdown
  /-- The user selects an entry. -/
  | select (i : ℕ)
  /-- The user cancels the dialog of a failed connection. -/
  | cancel
  /-- Driving stops for another reason. -/
  | leave
  deriving DecidableEq, Repr

/-- `connectionAttempt` for one protocol. -/
def Walk.attempt (w : Walk) (kind : Kind) (protocol : String) : Walk :=
  { w with
    selectedProtocol := protocol
    phase := .attempting kind protocol
    attempts := ⟨protocol, decide (protocol ∈ w.failed)⟩ :: w.attempts }

/-- The failure of a protocol is marked. -/
def Walk.markFailed (w : Walk) (protocol : String) : Walk :=
  { w with
    listOfProtocols := setFirstType (fun e ↦ e.protocol = protocol) .failed w.listOfProtocols
    phase := .engaging
    failed := protocol :: w.failed }

/-- One step of its own is counted. -/
def Walk.counted (w : Walk) : Walk := { w with ownSteps := w.ownSteps + 1 }

/-- An order for a new list: the protocols stay the same. -/
def Reorders (protocols : List Listed) (order : List ProtocolInformation) : Prop :=
  (order.map fun e ↦ e.protocol).Perm (names protocols)

instance decidableReorders (protocols : List Listed) (order : List ProtocolInformation) :
    Decidable (Reorders protocols order) :=
  inferInstanceAs (Decidable (List.Perm _ _))

/-- The walk starts with the attempt of `connectInForeground`. -/
def connectInForeground (m : Manager) : Walk :=
  (Walk.attempt ⟨m, .changing, [], [], 0⟩ .foreground
    (getProtocolInformationToConnect m.listOfProtocols)).counted

/-- The walk starts with `changeProtocolInForeground`. -/
def changeProtocolInForeground (m : Manager) : Walk :=
  let listed :=
    if m.state.status = .connected then
      setFirstType (fun e ↦ e.protocol = m.selectedProtocol) .connected m.listOfProtocols
    else m.listOfProtocols
  ⟨{ m with listOfProtocols := clearNextUp listed }, .changing, [], [], 0⟩

/-- The two ways to start a walk. -/
def Started (m : Manager) (w : Walk) : Prop :=
  w = connectInForeground m ∨ w = changeProtocolInForeground m

/-- What `Util.getAppSupportedProtocolList` promises of the list: it is not empty, and names no
protocol twice. -/
def Supported (protocols : List Listed) : Prop :=
  protocols ≠ [] ∧ (names protocols).Nodup

/-- The kind of the attempt that a selection leads to. -/
def Phase.selects : Phase → Option Kind
  | .changing => some .changed
  | .choosing => some .selected
  | _ => none

/-- One step, or nothing when it cannot be taken now. -/
def step (w : Walk) : Action → Option Walk
  | .publish state => some { w with state, unseen := true }
  | .observe =>
    if w.unseen ∧ w.hand = none then some { w with unseen := false, hand := some w.state }
    else none
  | .collect =>
    w.hand.map fun state ↦
      { w with
        listOfProtocols := collectState state w.listOfProtocols
        hand := none
        phase := if state.status = .connected ∧ w.phase.running then .stopped else w.phase }
  | .reset order =>
    if Reorders w.listOfProtocols order then
      some { w with listOfProtocols := reloadProtocols order }
    else none
  | .putBack =>
    match w.phase with
    | .attempting .selected protocol =>
      some <| Walk.counted { w with
        listOfProtocols :=
          setFirstType (fun e ↦ e.type = .nextUp) .disconnected w.listOfProtocols
        phase := .returned protocol }
    | _ => none
  | .mark =>
    match w.phase with
    | .attempting .foreground _ => some (w.markFailed w.selectedProtocol).counted
    | .attempting .changed protocol => some (w.markFailed protocol).counted
    | .returned protocol => some (w.markFailed protocol).counted
    | _ => none
  | .sort =>
    if w.phase = .engaging then
      some <| Walk.counted { w with
        listOfProtocols := sortByType w.listOfProtocols
        phase := .sorted }
    else none
  | .pick order =>
    if w.phase = .sorted then
      if w.listOfProtocols.any fun e ↦ e.type = .disconnected then
        some <| Walk.counted { w with
          listOfProtocols :=
            setFirstType (fun e ↦ e.type = .disconnected) .nextUp w.listOfProtocols
          phase := .choosing }
      else if Reorders w.listOfProtocols order then
        some <| Walk.counted { w with
          listOfProtocols := reloadProtocols order
          phase := .allProtocolFailed }
      else none
    else none
  | .countdown =>
    if w.phase = .choosing then
      (nextInLine w.listOfProtocols).map fun e ↦ (w.attempt .selected e.protocol).counted
    else none
  | .select i => do
    let kind ← w.phase.selects
    let e ← w.listOfProtocols[i]?
    return (w.attempt kind e.protocol).counted
  | .cancel =>
    if w.phase = .choosing then
      some { w with
        listOfProtocols := moveProtocolToTop w.selectedProtocol
          (setFirstType (fun e ↦ e.protocol = w.selectedProtocol) .nextUp w.listOfProtocols)
        phase := .stopped }
    else none
  | .leave => if w.phase.running then some { w with phase := .stopped } else none

/-! ### The promise -/

/-- The actions of the walk itself and of the user who drives it. -/
def Action.own : Action → Bool
  | .putBack => true
  | .mark => true
  | .sort => true
  | .pick _ => true
  | .countdown => true
  | .select _ => true
  | _ => false

/-- The steps at which no mark of the walk is undone and no marked protocol is selected: the
collector handles no `Disconnected` of a marked protocol, the list is not reset once a protocol is
marked, the user selects no marked protocol, and a countdown that finds no `NextUp` finds no marked
protocol at the head of the list. -/
def Undisturbed (w : Walk) : Action → Prop
  | .collect =>
    ∀ state ∈ w.hand, state.status = .disconnected → ∀ info ∈ state.protocolInformation,
      ∀ e ∈ w.listOfProtocols.find? (sameEntry info), e.protocol ∉ w.failed
  | .reset _ => w.failed = []
  | .select i => ∀ e ∈ w.listOfProtocols[i]?, e.protocol ∉ w.failed
  | .countdown =>
    (w.listOfProtocols.any fun e ↦ e.type = .nextUp) = true ∨
      ∀ e ∈ w.listOfProtocols.head?, e.protocol ∉ w.failed
  | _ => True

instance decidableUndisturbed (w : Walk) : (action : Action) → Decidable (Undisturbed w action)
  | .publish _ => inferInstanceAs (Decidable True)
  | .observe => inferInstanceAs (Decidable True)
  | .collect =>
    inferInstanceAs (Decidable
      (∀ state ∈ w.hand, state.status = .disconnected → ∀ info ∈ state.protocolInformation,
        ∀ e ∈ w.listOfProtocols.find? (sameEntry info), e.protocol ∉ w.failed))
  | .reset _ => inferInstanceAs (Decidable (_ = _))
  | .putBack => inferInstanceAs (Decidable True)
  | .mark => inferInstanceAs (Decidable True)
  | .sort => inferInstanceAs (Decidable True)
  | .pick _ => inferInstanceAs (Decidable True)
  | .countdown =>
    inferInstanceAs (Decidable
      ((w.listOfProtocols.any fun e ↦ e.type = .nextUp) = true ∨
        ∀ e ∈ w.listOfProtocols.head?, e.protocol ∉ w.failed))
  | .select i =>
    inferInstanceAs (Decidable (∀ e ∈ w.listOfProtocols[i]?, e.protocol ∉ w.failed))
  | .cancel => inferInstanceAs (Decidable True)
  | .leave => inferInstanceAs (Decidable True)

/-- A step of the walk's own that meets the condition. -/
def OwnUndisturbed (w : Walk) (action : Action) : Prop :=
  action.own = true ∧ Undisturbed w action

/-- The promise of a walk. -/
structure TriesOnce (w : Walk) : Prop where
  /-- No protocol is attempted after the walk marked it. -/
  once : ∀ a ∈ w.attempts, a.again = false
  /-- There are at most as many attempts as protocols. -/
  bounded : w.attempts.length ≤ w.listOfProtocols.length
  /-- The walk takes a bounded number of steps of its own, in whatever order others come between. -/
  ends : w.ownSteps ≤ 5 * w.listOfProtocols.length
  /-- While it runs, its own steps lead to the report that every protocol failed, after at most as
  many attempts as there are protocols. -/
  reports : w.phase.running = true →
    ∃ u, Reaches step OwnUndisturbed w u ∧ u.phase = .allProtocolFailed ∧
      u.attempts.length ≤ w.listOfProtocols.length

/-! ### Writes of the list -/

theorem names_setFirstType (picked : Listed → Bool) (type : ProtocolConnectionStatus)
    (protocols : List Listed) : names (setFirstType picked type protocols) = names protocols := by
  induction protocols with
  | nil => rfl
  | cons e rest ih =>
    unfold setFirstType
    split_ifs
    · rfl
    · exact congrArg (e.protocol :: ·) ih

/-- A write changes at most the entry it picks. -/
theorem mem_setFirstType {picked : Listed → Bool} {type : ProtocolConnectionStatus}
    {protocols : List Listed} {e : Listed} (hmem : e ∈ setFirstType picked type protocols) :
    e ∈ protocols ∨ ∃ o, protocols.find? picked = some o ∧ e = { o with type } := by
  induction protocols with
  | nil => exact Or.inl hmem
  | cons head rest ih =>
    unfold setFirstType at hmem
    split_ifs at hmem with hpicked
    · rcases List.mem_cons.mp hmem with heq | hrest
      · exact Or.inr ⟨head, by rw [List.find?_cons_of_pos hpicked], heq⟩
      · exact Or.inl (List.mem_cons_of_mem _ hrest)
    · rcases List.mem_cons.mp hmem with heq | hrest
      · exact Or.inl (heq ▸ List.mem_cons_self)
      · rcases ih hrest with hold | ⟨o, hfind, heq⟩
        · exact Or.inl (List.mem_cons_of_mem _ hold)
        · exact Or.inr ⟨o, by rw [List.find?_cons_of_neg hpicked]; exact hfind, heq⟩

/-- A write by name reaches every entry of the name. -/
theorem type_of_mem_setFirstType {protocol : String} {type : ProtocolConnectionStatus}
    {protocols : List Listed} (hnodup : (names protocols).Nodup) {e : Listed}
    (hmem : e ∈ setFirstType (fun o ↦ o.protocol = protocol) type protocols)
    (hname : e.protocol = protocol) : e.type = type := by
  induction protocols with
  | nil => exact absurd hmem List.not_mem_nil
  | cons head rest ih =>
    obtain ⟨hfresh, hrestNodup⟩ := List.nodup_cons.mp hnodup
    unfold setFirstType at hmem
    split_ifs at hmem with hpicked
    · rcases List.mem_cons.mp hmem with heq | hrest
      · rw [heq]
      · have hhead : head.protocol = e.protocol := (of_decide_eq_true hpicked).trans hname.symm
        exact absurd (List.mem_map.mpr ⟨e, hrest, hhead.symm⟩) hfresh
    · rcases List.mem_cons.mp hmem with heq | hrest
      · exact absurd (decide_eq_true (heq ▸ hname)) hpicked
      · exact ih hrestNodup hrest

theorem names_clearNextUp (protocols : List Listed) :
    names (clearNextUp protocols) = names protocols := by
  unfold names clearNextUp
  rw [List.map_map]
  refine List.map_congr_left fun e _ ↦ ?_
  simp only [Function.comp_apply]
  split_ifs <;> rfl

theorem names_reloadProtocols (order : List ProtocolInformation) :
    names (reloadProtocols order) = order.map fun e ↦ e.protocol := by
  cases order with
  | nil => rfl
  | cons first rest =>
    simp [names, reloadProtocols, Function.comp_def]

theorem perm_names_sortByType (protocols : List Listed) :
    (names (sortByType protocols)).Perm (names protocols) :=
  (List.perm_insertionSort _ protocols).map _

/-- The first entry that is picked may go to the top. -/
theorem perm_cons_eraseP {picked : Listed → Bool} {protocols : List Listed} {e : Listed}
    (hfind : protocols.find? picked = some e) : (e :: protocols.eraseP picked).Perm protocols := by
  induction protocols with
  | nil => cases hfind
  | cons head rest ih =>
    by_cases hpicked : picked head = true
    · rw [List.find?_cons_of_pos hpicked] at hfind
      obtain rfl := Option.some.inj hfind
      rw [List.eraseP_cons_of_pos hpicked]
    · rw [List.find?_cons_of_neg hpicked] at hfind
      rw [List.eraseP_cons_of_neg hpicked]
      exact (List.Perm.swap head e _).trans ((ih hfind).cons head)

theorem perm_names_moveProtocolToTop (protocol : String) (protocols : List Listed) :
    (names (moveProtocolToTop protocol protocols)).Perm (names protocols) := by
  unfold moveProtocolToTop
  split
  · exact List.Perm.refl _
  · rename_i e hfind
    exact (perm_cons_eraseP hfind).map _

theorem names_collectState (state : VPNState) (protocols : List Listed) :
    names (collectState state protocols) = names protocols := by
  unfold collectState
  split
  · rfl
  · split_ifs
    · exact names_setFirstType _ _ _
    · rw [names_setFirstType, names_setFirstType]
    · rfl

theorem mem_of_nextInLine {protocols : List Listed} {e : Listed}
    (hnext : nextInLine protocols = some e) : e ∈ protocols := by
  unfold nextInLine at hnext
  rcases Option.or_eq_some_iff.mp hnext with hfind | ⟨-, hhead⟩
  · exact List.mem_of_find?_eq_some hfind
  · exact List.mem_of_head? hhead

/-! ### The invariant -/

/-- How many own steps a phase still owes to the latest attempt. -/
def Phase.owed : Phase → ℕ
  | .attempting _ _ => 4
  | .returned _ => 3
  | .engaging => 2
  | .sorted => 1
  | _ => 0

/-- What an undisturbed walk keeps. -/
structure Sound (w : Walk) : Prop where
  nodup : (names w.listOfProtocols).Nodup
  once : ∀ a ∈ w.attempts, a.again = false
  distinct : (w.attempts.map fun a ↦ a.protocol).Nodup
  listed : ∀ a ∈ w.attempts, a.protocol ∈ names w.listOfProtocols
  /-- The walk has marked what it attempted, up to the attempt it is making. -/
  tried : w.phase.running = true →
    (w.attempts.map fun a ↦ a.protocol) = w.phase.current ++ w.failed
  /-- The marks stand. -/
  marked : w.phase.running = true → ∀ e ∈ w.listOfProtocols, e.protocol ∈ w.failed →
    e.type = .failed
  foreground : ∀ protocol, w.phase = .attempting .foreground protocol →
    w.selectedProtocol = protocol
  /-- A dialog for a choice offers a protocol that is not marked. -/
  offered : w.phase.selects.isSome = true → ∃ p ∈ names w.listOfProtocols, p ∉ w.failed
  budget : w.ownSteps + w.phase.owed ≤ 5 * w.attempts.length

variable {w t : Walk}

/-- A list with the same protocols whose marks stand may take the place of the old one. -/
theorem Sound.relist (hsound : Sound w) (protocols : List Listed)
    (hperm : (names protocols).Perm (names w.listOfProtocols))
    (hmarked : w.phase.running = true → ∀ e ∈ protocols, e.protocol ∈ w.failed →
      e.type = .failed) :
    Sound { w with listOfProtocols := protocols } where
  nodup := hperm.nodup_iff.mpr hsound.nodup
  once := hsound.once
  distinct := hsound.distinct
  listed := fun a ha ↦ hperm.mem_iff.mpr (hsound.listed a ha)
  tried := hsound.tried
  marked := hmarked
  foreground := hsound.foreground
  offered := fun hselects ↦ by
    obtain ⟨p, hp, hfresh⟩ := hsound.offered hselects
    exact ⟨p, hperm.mem_iff.mpr hp, hfresh⟩
  budget := hsound.budget

/-- A write that picks no marked entry, and writes no mark, leaves the marks. -/
theorem Sound.write (hsound : Sound w) (picked : Listed → Bool) (type : ProtocolConnectionStatus)
    (hpicked : w.phase.running = true → ∀ e ∈ w.listOfProtocols.find? picked,
      e.protocol ∉ w.failed) :
    Sound { w with listOfProtocols := setFirstType picked type w.listOfProtocols } := by
  refine hsound.relist _ (List.Perm.of_eq (names_setFirstType _ _ _)) ?_
  intro hrunning e he hfailed
  rcases mem_setFirstType he with hold | ⟨o, hfind, heq⟩
  · exact hsound.marked hrunning e hold hfailed
  · have hname : e.protocol = o.protocol := by rw [heq]
    exact absurd (hname ▸ hfailed) (hpicked hrunning o hfind)

/-- A write that picks by a status other than `Failed` picks no marked entry. -/
theorem Sound.write_type (hsound : Sound w) (picks type : ProtocolConnectionStatus)
    (hpicks : picks ≠ .failed) :
    Sound { w with
      listOfProtocols := setFirstType (fun e ↦ e.type = picks) type w.listOfProtocols } := by
  refine hsound.write _ type fun hrunning e he hfailed ↦ ?_
  have htype : e.type = picks := by
    simpa using List.find?_some (p := fun o : Listed ↦ decide (o.type = picks)) he
  have hmem : e ∈ w.listOfProtocols := List.mem_of_find?_eq_some he
  exact hpicks (htype ▸ hsound.marked hrunning e hmem hfailed)

/-- The walk moves on without an attempt or a mark. -/
theorem Sound.move (hsound : Sound w) (phase : Phase) (steps : ℕ)
    (hrunning : phase.running = true → w.phase.running = true ∧ phase.current = w.phase.current)
    (hforeground : ∀ protocol, phase ≠ .attempting .foreground protocol)
    (hoffered : phase.selects.isSome = true → ∃ p ∈ names w.listOfProtocols, p ∉ w.failed)
    (hbudget : steps + phase.owed ≤ w.ownSteps + w.phase.owed) :
    Sound { w with phase, ownSteps := steps } where
  nodup := hsound.nodup
  once := hsound.once
  distinct := hsound.distinct
  listed := hsound.listed
  tried := fun hrun ↦ by
    rw [hsound.tried (hrunning hrun).1]
    exact congrArg (· ++ w.failed) (hrunning hrun).2.symm
  marked := fun hrun ↦ hsound.marked (hrunning hrun).1
  foreground := fun protocol hphase ↦ absurd hphase (hforeground protocol)
  offered := hoffered
  budget := hbudget.trans hsound.budget

/-- Driving stops. -/
theorem Sound.stop (hsound : Sound w) : Sound { w with phase := .stopped } :=
  hsound.move .stopped w.ownSteps nofun nofun nofun (Nat.le_add_right _ _)

/-- An attempt of a protocol that is offered and not marked. -/
theorem Sound.attempt (hsound : Sound w) (kind : Kind) (hselects : w.phase.selects.isSome = true)
    {protocol : String} (hlisted : protocol ∈ names w.listOfProtocols)
    (hfresh : protocol ∉ w.failed) : Sound (w.attempt kind protocol).counted := by
  have hphase : w.phase.running = true ∧ w.phase.current = [] ∧ w.phase.owed = 0 := by
    revert hselects
    cases w.phase <;> simp [Phase.selects, Phase.running, Phase.current, Phase.owed]
  have htried : (w.attempts.map fun a ↦ a.protocol) = w.failed := by
    rw [hsound.tried hphase.1, hphase.2.1, List.nil_append]
  refine ⟨hsound.nodup, ?_, ?_, ?_, ?_, ?_, ?_, ?_, ?_⟩
  · intro a ha
    rcases List.mem_cons.mp ha with rfl | hold
    · exact decide_eq_false hfresh
    · exact hsound.once a hold
  · exact List.nodup_cons.mpr ⟨htried ▸ hfresh, hsound.distinct⟩
  · intro a ha
    rcases List.mem_cons.mp ha with rfl | hold
    · exact hlisted
    · exact hsound.listed a hold
  · intro _
    exact congrArg (protocol :: ·) htried
  · exact fun _ ↦ hsound.marked hphase.1
  · intro other hother
    exact (Phase.attempting.inj hother).2
  · exact nofun
  · have hbudget := hsound.budget
    simp only [Walk.counted, Walk.attempt, Phase.owed, List.length_cons]
    omega

/-- The mark of the protocol the walk attempted. -/
theorem Sound.markFailed (hsound : Sound w) {protocol : String}
    (hcurrent : w.phase.current = [protocol]) (howed : 3 ≤ w.phase.owed) :
    Sound (w.markFailed protocol).counted := by
  have hrunning : w.phase.running = true := by
    revert hcurrent
    cases w.phase <;> simp [Phase.current, Phase.running]
  have htried := hsound.tried hrunning
  rw [hcurrent, List.singleton_append] at htried
  have hnames : names (setFirstType (fun e ↦ e.protocol = protocol) .failed w.listOfProtocols) =
      names w.listOfProtocols := names_setFirstType _ _ _
  refine ⟨?_, hsound.once, hsound.distinct, ?_, ?_, ?_, nofun, nofun, ?_⟩
  · exact hnames ▸ hsound.nodup
  · exact fun a ha ↦ hnames ▸ hsound.listed a ha
  · exact fun _ ↦ htried
  · intro _ e he hfailed
    by_cases hname : e.protocol = protocol
    · exact type_of_mem_setFirstType hsound.nodup he hname
    · have hold : e.protocol ∈ w.failed := (List.mem_cons.mp hfailed).resolve_left hname
      rcases mem_setFirstType he with hmem | ⟨o, -, heq⟩
      · exact hsound.marked hrunning e hmem hold
      · rw [heq]
  · have hbudget := hsound.budget
    simp only [Walk.counted, Walk.markFailed, Phase.owed]
    omega

/-- An entry that is not `Failed` is not marked. -/
theorem Sound.unmarked (hsound : Sound w) (hrunning : w.phase.running = true) {e : Listed}
    (he : e ∈ w.listOfProtocols) (htype : e.type ≠ .failed) : e.protocol ∉ w.failed :=
  fun hfailed ↦ htype (hsound.marked hrunning e he hfailed)

/-- The collector undoes no mark. -/
theorem Sound.collect (hsound : Sound w) {state : VPNState} (hhand : w.hand = some state)
    (hadmits : Undisturbed w .collect) :
    Sound { w with
      listOfProtocols := collectState state w.listOfProtocols
      phase := if state.status = .connected ∧ w.phase.running then .stopped else w.phase } := by
  by_cases hconnected : state.status = .connected
  · -- Driving is over with a `Connected`, so the marks no longer matter.
    have hphase : (if state.status = .connected ∧ w.phase.running then .stopped
        else w.phase).running = false := by
      by_cases hrunning : w.phase.running = true
      · rw [if_pos ⟨hconnected, hrunning⟩]
        rfl
      · rw [if_neg fun h ↦ hrunning h.2]
        exact eq_false_of_ne_true hrunning
    have hmoved : Sound { w with
        phase := if state.status = .connected ∧ w.phase.running then .stopped else w.phase } := by
      split_ifs
      · exact hsound.stop
      · exact hsound
    refine hmoved.relist _ (List.Perm.of_eq (names_collectState _ _)) fun hrun ↦ ?_
    exact absurd hrun (by rw [hphase]; decide)
  · rw [if_neg fun h ↦ hconnected h.1]
    have hadmits : state.status = .disconnected → ∀ info ∈ state.protocolInformation,
        ∀ e ∈ w.listOfProtocols.find? (sameEntry info), e.protocol ∉ w.failed :=
      hadmits state hhand
    unfold collectState
    split
    · exact hsound
    · rename_i info hinfo
      split_ifs with hdisconnected hboth
      · exact hsound.write _ _ fun _ ↦ hadmits hdisconnected info hinfo
      · exact absurd hboth.1 hconnected
      · exact hsound

/-- The offer of the next protocol, or the report that none is left. -/
theorem Sound.pick (hsound : Sound w) {order : List ProtocolInformation}
    (hstep : step w (.pick order) = some t) : Sound t := by
  simp only [step] at hstep
  split_ifs at hstep with hphase hleft horder
  · obtain rfl := Option.some.inj hstep
    obtain ⟨e, he, htype⟩ := List.any_eq_true.mp hleft
    have hfresh : e.protocol ∉ w.failed :=
      hsound.unmarked (by rw [hphase]; rfl) he (by simp [of_decide_eq_true htype])
    have hwritten := hsound.write_type .disconnected .nextUp (by decide)
    refine hwritten.move .choosing (w.ownSteps + 1) ?_ nofun ?_ ?_
    · intro _
      simp [hphase, Phase.running, Phase.current]
    · intro _
      refine ⟨e.protocol, ?_, hfresh⟩
      rw [names_setFirstType]
      exact List.mem_map.mpr ⟨e, he, rfl⟩
    · simp [hphase, Phase.owed]
  · obtain rfl := Option.some.inj hstep
    have hended : Sound { w with phase := .allProtocolFailed, ownSteps := w.ownSteps + 1 } :=
      hsound.move _ _ nofun nofun nofun (by simp [hphase, Phase.owed])
    exact hended.relist _ (names_reloadProtocols order ▸ horder) nofun

/-- The countdown tries no marked protocol. -/
theorem unmarked_of_nextInLine (hsound : Sound w) (hrunning : w.phase.running = true)
    (hadmits : Undisturbed w .countdown) {e : Listed}
    (hnext : nextInLine w.listOfProtocols = some e) : e.protocol ∉ w.failed := by
  unfold nextInLine at hnext
  rcases Option.or_eq_some_iff.mp hnext with hfind | ⟨hnone, hhead⟩
  · have htype : e.type = .nextUp := by
      simpa using List.find?_some (p := fun o : Listed ↦ decide (o.type = .nextUp)) hfind
    exact hsound.unmarked hrunning (List.mem_of_find?_eq_some hfind) (by simp [htype])
  · rcases hadmits with hany | hfresh
    · obtain ⟨o, ho, htype⟩ := List.any_eq_true.mp hany
      exact absurd htype (List.find?_eq_none.mp hnone o ho)
    · exact hfresh e hhead

/-- One undisturbed step keeps the invariant. -/
theorem sound_step (action : Action) (hsound : Sound w) (hadmits : Undisturbed w action)
    (hstep : step w action = some t) : Sound t := by
  cases action with
  | publish state =>
    obtain rfl := Option.some.inj hstep
    exact ⟨hsound.nodup, hsound.once, hsound.distinct, hsound.listed, hsound.tried,
      hsound.marked, hsound.foreground, hsound.offered, hsound.budget⟩
  | observe =>
    simp only [step] at hstep
    split_ifs at hstep
    obtain rfl := Option.some.inj hstep
    exact ⟨hsound.nodup, hsound.once, hsound.distinct, hsound.listed, hsound.tried,
      hsound.marked, hsound.foreground, hsound.offered, hsound.budget⟩
  | collect =>
    obtain ⟨state, hhand, rfl⟩ := Option.map_eq_some_iff.mp hstep
    have hcollected := hsound.collect hhand hadmits
    exact ⟨hcollected.nodup, hcollected.once, hcollected.distinct, hcollected.listed,
      hcollected.tried, hcollected.marked, hcollected.foreground, hcollected.offered,
      hcollected.budget⟩
  | reset order =>
    have hfailed : w.failed = [] := hadmits
    simp only [step] at hstep
    split_ifs at hstep with horder
    obtain rfl := Option.some.inj hstep
    refine hsound.relist _ (names_reloadProtocols order ▸ horder) fun _ e _ hmem ↦ ?_
    rw [hfailed] at hmem
    exact absurd hmem List.not_mem_nil
  | putBack =>
    simp only [step] at hstep
    split at hstep
    · rename_i protocol hphase
      obtain rfl := Option.some.inj hstep
      refine (hsound.write_type .nextUp .disconnected (by decide)).move (.returned protocol)
        (w.ownSteps + 1) ?_ nofun nofun ?_
      · simp [hphase, Phase.running, Phase.current]
      · simp [hphase, Phase.owed]
    · cases hstep
  | mark =>
    simp only [step] at hstep
    split at hstep
    · rename_i protocol hphase
      obtain rfl := Option.some.inj hstep
      rw [hsound.foreground protocol hphase]
      exact hsound.markFailed (by rw [hphase]; rfl) (by simp [hphase, Phase.owed])
    · rename_i protocol hphase
      obtain rfl := Option.some.inj hstep
      exact hsound.markFailed (by rw [hphase]; rfl) (by simp [hphase, Phase.owed])
    · rename_i protocol hphase
      obtain rfl := Option.some.inj hstep
      exact hsound.markFailed (by rw [hphase]; rfl) (by simp [hphase, Phase.owed])
    · cases hstep
  | sort =>
    simp only [step] at hstep
    split_ifs at hstep with hphase
    obtain rfl := Option.some.inj hstep
    have hsorted := hsound.relist (sortByType w.listOfProtocols) (perm_names_sortByType _)
      fun hrunning e he ↦ hsound.marked hrunning e ((List.mem_insertionSort _).mp he)
    refine hsorted.move .sorted (w.ownSteps + 1) ?_ nofun nofun ?_
    · simp [hphase, Phase.running, Phase.current]
    · simp [hphase, Phase.owed]
  | pick order => exact hsound.pick hstep
  | countdown =>
    simp only [step] at hstep
    split_ifs at hstep with hphase
    obtain ⟨e, hnext, rfl⟩ := Option.map_eq_some_iff.mp hstep
    refine hsound.attempt .selected (by rw [hphase]; rfl) ?_ ?_
    · exact List.mem_map.mpr ⟨e, mem_of_nextInLine hnext, rfl⟩
    · exact unmarked_of_nextInLine hsound (by rw [hphase]; rfl) hadmits hnext
  | select i =>
    obtain ⟨kind, hselects, hrest⟩ := Option.bind_eq_some_iff.mp hstep
    obtain ⟨e, hentry, hlast⟩ := Option.bind_eq_some_iff.mp hrest
    obtain rfl := Option.some.inj hlast
    refine hsound.attempt kind (by rw [hselects]; rfl) ?_ (hadmits e hentry)
    exact List.mem_map.mpr ⟨e, List.mem_of_getElem? hentry, rfl⟩
  | cancel =>
    simp only [step] at hstep
    split_ifs at hstep
    obtain rfl := Option.some.inj hstep
    refine hsound.stop.relist _ ((perm_names_moveProtocolToTop _ _).trans ?_) nofun
    exact List.Perm.of_eq (names_setFirstType _ _ _)
  | leave =>
    simp only [step] at hstep
    split_ifs at hstep
    obtain rfl := Option.some.inj hstep
    exact hsound.stop

/-! ### Runs -/

theorem length_names (protocols : List Listed) : (names protocols).length = protocols.length :=
  List.length_map _

/-- A walk that has not attempted anything. -/
theorem sound_unstarted {m : Manager} (hsupported : Supported m.listOfProtocols) :
    Sound ⟨m, .changing, [], [], 0⟩ := by
  refine ⟨hsupported.2, nofun, List.nodup_nil, nofun, fun _ ↦ rfl, nofun, nofun, fun _ ↦ ?_, ?_⟩
  · obtain ⟨e, he⟩ := List.exists_mem_of_ne_nil _ hsupported.1
    exact ⟨e.protocol, List.mem_map.mpr ⟨e, he, rfl⟩, List.not_mem_nil⟩
  · exact Nat.le_refl 0

theorem mem_names_getProtocolInformationToConnect {protocols : List Listed}
    (hne : protocols ≠ []) : getProtocolInformationToConnect protocols ∈ names protocols := by
  obtain ⟨e, hnext⟩ : ∃ e, nextInLine protocols = some e := by
    obtain ⟨head, rest, rfl⟩ := List.exists_cons_of_ne_nil hne
    unfold nextInLine
    cases List.find? (fun e : Listed ↦ decide (e.type = .nextUp)) (head :: rest) with
    | none => exact ⟨head, rfl⟩
    | some e => exact ⟨e, rfl⟩
  unfold getProtocolInformationToConnect
  rw [hnext]
  exact List.mem_map.mpr ⟨e, mem_of_nextInLine hnext, rfl⟩

theorem sound_started {m : Manager} (hsupported : Supported m.listOfProtocols)
    (hstart : Started m w) : Sound w := by
  rcases hstart with rfl | rfl
  · exact (sound_unstarted hsupported).attempt .foreground rfl
      (mem_names_getProtocolInformationToConnect hsupported.1) List.not_mem_nil
  · refine (sound_unstarted hsupported).relist _ (List.Perm.of_eq ?_) fun _ _ _ ↦ nofun
    rw [names_clearNextUp]
    split_ifs
    · exact names_setFirstType _ _ _
    · rfl

/-- There are at most as many attempts as protocols. -/
theorem Sound.bounded (hsound : Sound w) : w.attempts.length ≤ w.listOfProtocols.length := by
  have hsubset : (w.attempts.map fun a ↦ a.protocol) ⊆ names w.listOfProtocols := by
    intro p hp
    obtain ⟨a, ha, rfl⟩ := List.mem_map.mp hp
    exact hsound.listed a ha
  calc w.attempts.length = (w.attempts.map fun a ↦ a.protocol).length := (List.length_map _).symm
    _ ≤ (names w.listOfProtocols).length :=
      (List.subperm_of_subset hsound.distinct hsubset).length_le
    _ = w.listOfProtocols.length := length_names _

/-- The walk has a next step of its own, which is undisturbed and leaves it running or reports. -/
def Advances (w : Walk) : Prop :=
  ∃ action t, OwnUndisturbed w action ∧ step w action = some t ∧ t.ownSteps = w.ownSteps + 1 ∧
    t.listOfProtocols.length = w.listOfProtocols.length ∧
    (t.phase.running = true ∨ t.phase = .allProtocolFailed)

theorem length_setFirstType (picked : Listed → Bool) (type : ProtocolConnectionStatus)
    (protocols : List Listed) : (setFirstType picked type protocols).length = protocols.length := by
  rw [← length_names, names_setFirstType, length_names]

/-- A dialog for a choice offers a protocol that may be selected. -/
theorem advances_select (hsound : Sound w) {kind : Kind} (hselects : w.phase.selects = some kind) :
    Advances w := by
  obtain ⟨p, hp, hfresh⟩ := hsound.offered (by rw [hselects]; rfl)
  obtain ⟨e, he, rfl⟩ := List.mem_map.mp hp
  obtain ⟨i, hi⟩ := List.mem_iff_getElem?.mp he
  refine ⟨.select i, (w.attempt kind e.protocol).counted, ⟨rfl, ?_⟩, ?_, rfl, rfl, Or.inl rfl⟩
  · intro o ho
    rw [hi] at ho
    exact Option.some.inj ho ▸ hfresh
  · simp only [step, hselects, hi]
    rfl

/-- A failed attempt may be marked. -/
theorem advances_mark {protocol : String}
    (hstep : step w .mark = some (w.markFailed protocol).counted) : Advances w :=
  ⟨.mark, _, ⟨rfl, trivial⟩, hstep, rfl, length_setFirstType _ _ _, Or.inl rfl⟩

/-- The sorted list has a protocol to offer, or none. -/
theorem advances_pick (hphase : w.phase = .sorted) : Advances w := by
  let order := w.listOfProtocols.map fun e ↦ e.toProtocolInformation
  have horder : Reorders w.listOfProtocols order := by
    unfold Reorders order names
    rw [List.map_map]
    exact List.Perm.refl _
  by_cases hleft : (w.listOfProtocols.any fun e ↦ e.type = .disconnected) = true
  · refine ⟨.pick order, _, ⟨rfl, trivial⟩, by simp only [step, hphase, hleft, if_true]; rfl, ?_,
      ?_, ?_⟩
    · rfl
    · exact length_setFirstType _ _ _
    · exact Or.inl rfl
  · refine ⟨.pick order, _, ⟨rfl, trivial⟩,
      by simp only [step, hphase, if_neg hleft, if_pos horder, if_true]; rfl, ?_, ?_, ?_⟩
    · rfl
    · change (reloadProtocols order).length = _
      rw [← length_names, names_reloadProtocols, List.length_map, List.length_map]
    · exact Or.inr rfl

theorem advances_of_running (hsound : Sound w) (hrunning : w.phase.running = true) :
    Advances w := by
  cases hphase : w.phase with
  | changing => exact advances_select hsound (by rw [hphase]; rfl)
  | attempting kind protocol =>
    cases kind with
    | foreground => exact advances_mark (by simp only [step, hphase]; rfl)
    | changed => exact advances_mark (by simp only [step, hphase]; rfl)
    | selected =>
      refine ⟨.putBack, _, ⟨rfl, trivial⟩, by simp only [step, hphase]; rfl, ?_, ?_, ?_⟩
      · rfl
      · exact length_setFirstType _ _ _
      · exact Or.inl rfl
  | returned protocol => exact advances_mark (by simp only [step, hphase]; rfl)
  | engaging =>
    refine ⟨.sort, _, ⟨rfl, trivial⟩, by simp only [step, hphase, if_true]; rfl, ?_, ?_, ?_⟩
    · rfl
    · exact List.length_insertionSort _ _
    · exact Or.inl rfl
  | sorted => exact advances_pick hphase
  | choosing => exact advances_select hsound (by rw [hphase]; rfl)
  | allProtocolFailed => rw [hphase] at hrunning; cases hrunning
  | stopped => rw [hphase] at hrunning; cases hrunning

/-- Left to itself, a running walk comes to report that every protocol failed. -/
theorem exists_reaches_allProtocolFailed (fuel : ℕ) :
    ∀ w : Walk, Sound w → w.phase.running = true →
      5 * w.listOfProtocols.length < w.ownSteps + fuel →
      ∃ u, Reaches step OwnUndisturbed w u ∧ Sound u ∧ u.phase = .allProtocolFailed ∧
        u.listOfProtocols.length = w.listOfProtocols.length := by
  induction fuel with
  | zero =>
    intro w hsound _ hfuel
    have hbudget := hsound.budget
    have hbounded := hsound.bounded
    omega
  | succ fuel ih =>
    intro w hsound hrunning hfuel
    obtain ⟨action, t, hown, hstep, hcount, hlength, hgoes⟩ := advances_of_running hsound hrunning
    have hnext : Sound t := sound_step action hsound hown.2 hstep
    have hfirst : Reaches step OwnUndisturbed w t :=
      Relation.ReflTransGen.single ⟨action, hown, hstep⟩
    rcases hgoes with hrunning | hended
    · obtain ⟨u, hreach, hlast, hended, hsame⟩ :=
        ih t hnext hrunning (by rw [hlength, hcount]; omega)
      exact ⟨u, hfirst.trans hreach, hlast, hended, hsame.trans hlength⟩
    · exact ⟨t, hfirst, hnext, hended, hlength⟩

theorem Sound.triesOnce (hsound : Sound w) : TriesOnce w := by
  refine ⟨hsound.once, hsound.bounded, ?_, ?_⟩
  · have hbudget := hsound.budget
    have hbounded := hsound.bounded
    omega
  · intro hrunning
    obtain ⟨u, hreach, hlast, hended, hlength⟩ :=
      exists_reaches_allProtocolFailed (5 * w.listOfProtocols.length + 1) w hsound hrunning
        (by omega)
    exact ⟨u, hreach, hended, hlength ▸ hlast.bounded⟩

/-- In every run in which no mark is undone and no marked protocol is selected, a walk attempts no
protocol again after it marked it, makes at most as many attempts as there are protocols, and comes
to report that every protocol failed. -/
theorem triesOnce_of_undisturbed {m : Manager} (hsupported : Supported m.listOfProtocols)
    (hstart : Started m w) (hreach : Reaches step Undisturbed w t) : TriesOnce t :=
  (hreach.invariant Sound (fun action _ _ hsound hadmits hstep ↦
    sound_step action hsound hadmits hstep) (sound_started hsupported hstart)).triesOnce

/-- Two protocols, of which WireGuard is next. -/
def twoProtocols : Manager :=
  { listOfProtocols := [⟨⟨"wg", "443"⟩, .nextUp⟩, ⟨⟨"ikev2", "500"⟩, .disconnected⟩]
    selectedProtocol := "wg"
    state := { status := .disconnected }
    unseen := false
    hand := none }

/-- The failure of an attempt over WireGuard, as it is published. -/
def wireguardTimeout : VPNState :=
  { status := .disconnected
    error := some { error := .timeoutError }
    protocolInformation := some ⟨"wg", "443"⟩ }

theorem supported_twoProtocols : Supported twoProtocols.listOfProtocols :=
  ⟨by decide, by decide⟩

/-- Both protocols fail, and the collector handles the first failure before the walk marks it. -/
theorem triesOnce_twoProtocols :
    ∃ t, Reaches step Undisturbed (connectInForeground twoProtocols) t ∧
      t.phase = .allProtocolFailed ∧ TriesOnce t := by
  obtain ⟨t, hreach, hphase⟩ := exists_reaches_of_run step Undisturbed
    (connectInForeground twoProtocols)
    [.publish wireguardTimeout, .observe, .collect, .mark, .sort, .pick [], .countdown, .putBack,
      .mark, .sort, .pick [⟨"wg", "443"⟩, ⟨"ikev2", "500"⟩]]
    (fun t ↦ t.phase = .allProtocolFailed) (by decide)
  exact ⟨t, hreach, of_decide_eq_true hphase,
    triesOnce_of_undisturbed supported_twoProtocols (Or.inl rfl) hreach⟩

/-- The walk marks WireGuard, the collector handles the same failure afterwards and makes the
protocol `Disconnected` again, and the walk takes it for one that is left. -/
theorem not_triesOnce_collected :
    ∃ m w t, Supported m.listOfProtocols ∧ Started m w ∧ Reaches step Always w t ∧
      ¬ TriesOnce t := by
  obtain ⟨t, hreach, hagain⟩ := exists_reaches_of_run step Always
    (connectInForeground twoProtocols)
    [.publish wireguardTimeout, .mark, .observe, .collect, .sort, .pick [], .countdown]
    (fun t ↦ t.attempts.any fun a ↦ a.again) (by decide)
  refine ⟨twoProtocols, _, t, supported_twoProtocols, Or.inl rfl, hreach, fun htries ↦ ?_⟩
  obtain ⟨a, ha, htwice⟩ := List.any_eq_true.mp hagain
  rw [htries.once a ha] at htwice
  cases htwice

end WindscribeVpn.AutoConnection.ProtocolWalk
