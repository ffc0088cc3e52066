import WindscribeVpn.Foundations.ReadModifyWrite
import Mathlib.Data.Option.Basic

/-!
# `VpnServiceGate`

The gate holds the running service in one shared value, the service together with a flag that it is
about to stop. `attach` is one write. `markStopping` and `detach` read the value and then write it,
as two accesses, and the calls come from different threads: the main thread attaches and detaches,
and the coroutine that ends a session marks. `ensureRunning` and `await` hand back the service of a
value they read while it was not stopping.

The value is a cell of `Foundations.ReadModifyWrite`, and its record of the operations that have
written says what the gate should hold. `Registered` is the instance of the last attach, unless it
was detached since, and `Unmarked` an instance that was attached after it was last marked.
`Sound` is the promise on the states, and `Kept` the promise on what one call changes.
`not_sound_lost` is a run that breaks it: the write of a `markStopping` takes an attach back.
`Undisturbed` is the condition that the write of a call is not overtaken, and
`sound_of_undisturbed` proves both promises for every run whose steps all meet it.
-/

set_option autoImplicit false
set_option relaxedAutoImplicit false

namespace WindscribeVpn.Tunnel.VpnServiceGate

open Foundations.ReadModifyWrite Foundations.Runs

/-! ### The gate -/

/-- An instance of `WindscribeVpnService`. -/
abbrev Service := ℕ

/-- `Attachment`. -/
structure Attachment where
  service : Service
  stopping : Bool
  deriving DecidableEq, Repr

/-- The calls that write. `registered` is the instance that was registered when `markStopping` was
called, which the call does not look at. -/
inductive Operation
  | attach (service : Service)
  | markStopping (registered : Option Service)
  | detach (service : Service)
  deriving DecidableEq, Repr

/-- What a call makes of the value it reads. -/
def Operation.apply : Operation → Option Attachment → Option Attachment
  | .attach service, _ => some { service, stopping := false }
  | .markStopping _, attachment => attachment.map fun a ↦ { a with stopping := true }
  | .detach service, attachment => attachment.filter fun a ↦ a.service != service

/-- The call is an `attach`. -/
def Operation.isAttach : Operation → Bool
  | .attach _ => true
  | .markStopping _ | .detach _ => false

/-- A call of `ensureRunning` or `await`. -/
inductive Reader
  | awaiting
  /-- It has read a value that is not stopping, and is about to return its service. -/
  | found (service : Service)
  deriving DecidableEq, Repr

/-- The gate with the calls under way. `returned` lists the services that were handed back, each
with the operations that had written by then. -/
structure Gate where
  cell : Cell (Option Attachment) Operation
  readers : List Reader
  returned : List (Service × List Operation)
  deriving DecidableEq, Repr

/-- A gate that no service was attached to. -/
def Gate.initial : Gate := ⟨.initial none, [], []⟩

/-- `attachment.value`. -/
def Gate.attachment (g : Gate) : Option Attachment := g.cell.value

/-- `current`. -/
def Gate.current (g : Gate) : Option Service := g.attachment.map Attachment.service

/-- `isStopping`. -/
def Gate.isStopping (g : Gate) : Bool := g.attachment.any Attachment.stopping

/-- `live`. -/
def Gate.live (g : Gate) : Option Service :=
  (g.attachment.filter fun a ↦ !a.stopping).map Attachment.service

/-- One access of one call. -/
inductive Action
  | attach (service : Service)
  /-- A call of `markStopping` reads. -/
  | markStopping
  /-- A call of `detach` reads. -/
  | detach (service : Service)
  /-- A call of `markStopping` or `detach` writes. -/
  | write (i : ℕ)
  /-- `ensureRunning` or `await` is called. Starting the service is a request to the system, which
  attaches one later or never. -/
  | ensureRunning
  /-- A reader finds a service that is not stopping, at its first look or among the values that the
  flow has later. -/
  | find (i : ℕ)
  /-- A reader returns null: the service could not be started, or none came in time. -/
  | giveUp (i : ℕ)
  /-- A reader returns what it found. -/
  | hand (i : ℕ)
  deriving DecidableEq, Repr

/-- The access to the cell that an action makes, if it makes one. -/
def Gate.access (g : Gate) : Action → Option (Access Operation)
  | .attach service => some (.atomic (.attach service))
  | .markStopping => some (.begin (.markStopping g.current))
  | .detach service => some (.begin (.detach service))
  | .write i => some (.finish i)
  | .ensureRunning | .find _ | .giveUp _ | .hand _ => none

/-- What a reader does, or nothing when it cannot now. -/
def Gate.read (g : Gate) : Action → Option Gate
  | .ensureRunning => some { g with readers := g.readers ++ [.awaiting] }
  | .find i =>
    if g.readers[i]? = some .awaiting then
      g.live.map fun service ↦ { g with readers := g.readers.set i (.found service) }
    else none
  | .giveUp i =>
    if g.readers[i]? = some .awaiting then some { g with readers := g.readers.eraseIdx i } else none
  | .hand i =>
    match g.readers[i]? with
    | some (.found service) =>
      some { g with
        readers := g.readers.eraseIdx i
        returned := (service, g.cell.done) :: g.returned }
    | _ => none
  | .attach _ | .markStopping | .detach _ | .write _ => none

/-- One access, or nothing when it cannot be made now. -/
def step (g : Gate) (a : Action) : Option Gate :=
  match g.access a with
  | some access => (g.cell.step Operation.apply access).map fun cell ↦ { g with cell }
  | none => g.read a

/-! ### The promise -/

/-- The instance of the last attach, if it was not detached since. -/
def Registered (done : List Operation) (service : Service) : Prop :=
  ∃ later earlier, done = later ++ .attach service :: earlier ∧
    (∀ other, .attach other ∉ later) ∧ .detach service ∉ later

/-- An instance that was attached, and has not been marked since it was last attached. -/
def Unmarked (done : List Operation) (service : Service) : Prop :=
  ∃ later earlier, done = later ++ .attach service :: earlier ∧
    .markStopping (some service) ∉ later

/-- The gate has the instance of the last attach that was not detached since, and what was handed
back was attached after it was last marked. -/
structure Sound (g : Gate) : Prop where
  current : ∀ service, g.current = some service ↔ Registered g.cell.done service
  returned : ∀ hand ∈ g.returned, Unmarked hand.2 hand.1

/-- What the write of a call may change. -/
structure KeptBy (g g' : Gate) (call : Call (Option Attachment) Operation) : Prop where
  /-- `markStopping` leaves the instance. -/
  instance_markStopping : ∀ registered, call.op = .markStopping registered → g'.current = g.current
  /-- `markStopping` affects only the instance that was registered when it was called. -/
  others_markStopping : ∀ registered, call.op = .markStopping registered →
    g.current ≠ registered → g'.attachment = g.attachment
  /-- `markStopping` does not undo an attach made since it was called. -/
  attach_markStopping : ∀ registered, call.op = .markStopping registered →
    (g.cell.since call).any Operation.isAttach = true → g'.attachment = g.attachment
  /-- `detach` removes no other instance. -/
  others_detach : ∀ service, call.op = .detach service →
    g.current ≠ some service → g'.attachment = g.attachment

/-- The promise on one access. -/
def Kept (g : Gate) (a : Action) (g' : Gate) : Prop :=
  ∀ i, a = .write i → ∀ call ∈ g.cell.calls[i]?, KeptBy g g' call

/-- The write of a call is not overtaken: it is the one the call would make now, and if it is that
of a `markStopping` that changes the value, no service was attached since the call and no reader is
about to return the instance it marks. -/
def Timely (g : Gate) (call : Call (Option Attachment) Operation) : Prop :=
  call.op.apply call.read = call.op.apply g.attachment ∧
    match call.op with
    | .markStopping registered =>
      call.op.apply call.read = g.attachment ∨
        (g.cell.since call).any Operation.isAttach = false ∧
          ∀ service ∈ registered, .found service ∉ g.readers
    | .attach _ | .detach _ => True

instance decidableTimely (g : Gate) :
    (call : Call (Option Attachment) Operation) → Decidable (Timely g call)
  | ⟨.markStopping _, _, _⟩ => inferInstanceAs (Decidable (_ ∧ (_ ∨ _ ∧ ∀ service ∈ _, _)))
  | ⟨.attach _, _, _⟩ | ⟨.detach _, _, _⟩ => inferInstanceAs (Decidable (_ ∧ True))

/-- The accesses at which no call is overtaken. -/
def Undisturbed (g : Gate) : Action → Prop
  | .write i => ∀ call ∈ g.cell.calls[i]?, Timely g call
  | .attach _ | .markStopping | .detach _ | .ensureRunning | .find _ | .giveUp _ | .hand _ => True

instance decidableUndisturbed (g : Gate) : (a : Action) → Decidable (Undisturbed g a)
  | .write i => inferInstanceAs (Decidable (∀ call ∈ g.cell.calls[i]?, Timely g call))
  | .attach _ | .markStopping | .detach _ | .ensureRunning | .find _ | .giveUp _ | .hand _ =>
    inferInstanceAs (Decidable True)

/-! ### What the record of the writes says -/

section Record

variable {done : List Operation} {op : Operation} {service : Service}

theorem not_registered_nil : ¬ Registered [] service := by
  rintro ⟨later, earlier, hdone, -⟩
  exact List.append_ne_nil_of_right_ne_nil later (List.cons_ne_nil _ _) hdone.symm

theorem registered_cons :
    Registered (op :: done) service ↔
      op = .attach service ∨
        Registered done service ∧ op.isAttach = false ∧ op ≠ .detach service := by
  constructor
  · rintro ⟨later, earlier, hdone, hattach, hdetach⟩
    rcases later with _ | ⟨last, later⟩
    · exact Or.inl (List.cons.inj hdone).1
    · obtain ⟨rfl, rfl⟩ := List.cons.inj hdone
      refine Or.inr ⟨⟨later, earlier, rfl, fun other hmem ↦ ?_, fun hmem ↦ ?_⟩, ?_, ?_⟩
      · exact hattach other (List.mem_cons_of_mem op hmem)
      · exact hdetach (List.mem_cons_of_mem op hmem)
      · cases op with
        | attach other => exact absurd List.mem_cons_self (hattach other)
        | markStopping _ => rfl
        | detach _ => rfl
      · rintro rfl
        exact hdetach List.mem_cons_self
  · rintro (rfl | ⟨⟨later, earlier, rfl, hattach, hdetach⟩, hop, hne⟩)
    · exact ⟨[], done, rfl, nofun, nofun⟩
    · refine ⟨op :: later, earlier, rfl, fun other hmem ↦ ?_, fun hmem ↦ ?_⟩
      · rcases List.mem_cons.mp hmem with rfl | hlater
        · cases hop
        · exact hattach other hlater
      · rcases List.mem_cons.mp hmem with rfl | hlater
        · exact hne rfl
        · exact hdetach hlater

theorem unmarked_attach : Unmarked (.attach service :: done) service := ⟨[], done, rfl, nofun⟩

theorem Unmarked.cons (hunmarked : Unmarked done service)
    (hop : op ≠ .markStopping (some service)) :
    Unmarked (op :: done) service := by
  obtain ⟨later, earlier, rfl, hlater⟩ := hunmarked
  refine ⟨op :: later, earlier, rfl, fun hmem ↦ ?_⟩
  rcases List.mem_cons.mp hmem with rfl | hmem
  · exact hop rfl
  · exact hlater hmem

/-- The writes one after the other leave the instance of the last attach, if it was not detached
since. -/
theorem service_serial_iff :
    (Cell.serial Operation.apply none done).map Attachment.service = some service ↔
      Registered done service := by
  induction done with
  | nil => exact iff_of_false nofun not_registered_nil
  | cons op done ih =>
    rw [registered_cons, ← ih]
    change (op.apply (Cell.serial Operation.apply none done)).map Attachment.service = _ ↔ _
    cases op with
    | attach other => simp [Operation.apply, Operation.isAttach]
    | markStopping registered =>
      simp [Operation.apply, Operation.isAttach, Option.map_map, Function.comp_def]
    | detach other =>
      rcases Cell.serial Operation.apply none done with _ | ⟨current, stopping⟩
      · simp [Operation.apply, Operation.isAttach]
      · by_cases hother : current = other
        · subst hother
          simp [Operation.apply, Operation.isAttach, Option.filter_some]
        · simp [Operation.apply, Operation.isAttach, Option.filter_some, hother]
          grind

/-- An instance that the writes leave live was not marked since its last attach. -/
theorem unmarked_of_serial
    (hlive : Cell.serial Operation.apply none done = some ⟨service, false⟩) :
    Unmarked done service := by
  induction done with
  | nil => cases hlive
  | cons op done ih =>
    change op.apply (Cell.serial Operation.apply none done) = _ at hlive
    cases op with
    | attach other =>
      obtain rfl : other = service := congrArg Attachment.service (Option.some.inj hlive)
      exact unmarked_attach
    | markStopping registered =>
      obtain ⟨before, -, hstopping⟩ := Option.map_eq_some_iff.mp hlive
      cases congrArg Attachment.stopping hstopping
    | detach other =>
      exact (ih (Option.filter_eq_some_iff.mp hlive).1).cons nofun

end Record

/-! ### Runs -/

variable {g g' : Gate} {a : Action}

/-- A step is an access to the cell, or one of a reader. -/
theorem step_cases (hstep : step g a = some g') :
    (∃ access, g.access a = some access ∧ ∃ cell, g.cell.step Operation.apply access = some cell ∧
      g' = { g with cell }) ∨ g.access a = none ∧ g.read a = some g' := by
  unfold step at hstep
  cases haccess : g.access a with
  | none =>
    rw [haccess] at hstep
    exact Or.inr ⟨rfl, hstep⟩
  | some access =>
    rw [haccess] at hstep
    obtain ⟨cell, hcell, rfl⟩ := Option.map_eq_some_iff.mp hstep
    exact Or.inl ⟨access, rfl, cell, hcell, rfl⟩

/-- A reader does not touch the cell. -/
theorem cell_read (hread : g.read a = some g') : g'.cell = g.cell := by
  cases a with
  | ensureRunning =>
    obtain rfl := Option.some.inj hread
    rfl
  | find i =>
    simp only [Gate.read] at hread
    split_ifs at hread
    obtain ⟨service, -, rfl⟩ := Option.map_eq_some_iff.mp hread
    rfl
  | giveUp i =>
    simp only [Gate.read] at hread
    split_ifs at hread
    obtain rfl := Option.some.inj hread
    rfl
  | hand i =>
    simp only [Gate.read] at hread
    split at hread
    · obtain rfl := Option.some.inj hread
      rfl
    · cases hread
  | attach _ => cases hread
  | markStopping => cases hread
  | detach _ => cases hread
  | write _ => cases hread

/-- The writes of calls that are not overtaken are fresh. -/
theorem fresh_of_undisturbed {access : Access Operation} (htimely : Undisturbed g a)
    (haccess : g.access a = some access) : g.cell.Fresh Operation.apply access := by
  cases a with
  | write i =>
    obtain rfl := Option.some.inj haccess
    exact fun call hcall ↦ (htimely call hcall).1
  | attach _ =>
    obtain rfl := Option.some.inj haccess
    trivial
  | markStopping =>
    obtain rfl := Option.some.inj haccess
    trivial
  | detach _ =>
    obtain rfl := Option.some.inj haccess
    trivial
  | ensureRunning => cases haccess
  | find _ => cases haccess
  | giveUp _ => cases haccess
  | hand _ => cases haccess

/-- When no call is overtaken, the gate holds what the writes give one after the other. -/
theorem attachment_eq_serial (hreach : Reaches step Undisturbed Gate.initial g) :
    g.attachment = Cell.serial Operation.apply none g.cell.done := by
  refine Cell.eq_serial_of_fresh (hreach.simulate Gate.cell fun a x y htimely hstep ↦ ?_)
  rcases step_cases hstep with ⟨access, haccess, cell, hcell, rfl⟩ | ⟨-, hread⟩
  · exact Or.inr ⟨access, fresh_of_undisturbed htimely haccess, hcell⟩
  · exact Or.inl (cell_read hread)

/-- What a run keeps of its calls and its readers. -/
structure Ledger (g : Gate) : Prop where
  registered : ∀ call ∈ g.cell.calls, ∀ registered, call.op = .markStopping registered →
    registered = call.read.map Attachment.service
  found : ∀ service, .found service ∈ g.readers → Unmarked g.cell.done service
  unstopped : ∀ service, .found service ∈ g.readers → g.attachment ≠ some ⟨service, true⟩
  returned : ∀ hand ∈ g.returned, Unmarked hand.2 hand.1

theorem ledger_attach (hledger : Ledger g) (service : Service) :
    Ledger { g with cell :=
      { g.cell with value := some ⟨service, false⟩, done := .attach service :: g.cell.done } } where
  registered := hledger.registered
  found := fun other hfound ↦ (hledger.found other hfound).cons nofun
  unstopped := fun _ _ hvalue ↦ nomatch congrArg Attachment.stopping (Option.some.inj hvalue)
  returned := hledger.returned

theorem ledger_begin (hledger : Ledger g) {op : Operation}
    (hop : ∀ registered, op = .markStopping registered → registered = g.current) :
    Ledger { g with cell :=
      { g.cell with calls := g.cell.calls ++ [⟨op, g.cell.value, g.cell.done.length⟩] } } where
  registered := by
    intro call hcall registered hmark
    rcases List.mem_append.mp hcall with hbefore | hnew
    · exact hledger.registered call hbefore registered hmark
    · obtain rfl := List.mem_singleton.mp hnew
      exact hop registered hmark
  found := hledger.found
  unstopped := hledger.unstopped
  returned := hledger.returned

/-- The write of a call that is not overtaken. -/
theorem ledger_write (hledger : Ledger g) {i : ℕ} {call : Call (Option Attachment) Operation}
    (hcall : g.cell.calls[i]? = some call) (htimely : Timely g call) :
    Ledger { g with cell :=
      { value := call.op.apply call.read
        calls := g.cell.calls.eraseIdx i
        done := call.op :: g.cell.done } } where
  registered := fun other hmem ↦ hledger.registered other (List.mem_of_mem_eraseIdx hmem)
  found := by
    intro service hfound
    refine (hledger.found service hfound).cons fun hmark ↦ ?_
    have hregistered := hledger.registered call (List.mem_of_getElem? hcall) _ hmark
    rw [Timely, hmark] at htimely
    rcases htimely.2 with hsame | ⟨-, hunobserved⟩
    · obtain ⟨⟨_, stopping⟩, hread, rfl⟩ := Option.map_eq_some_iff.mp hregistered.symm
      rw [hread] at hsame
      exact hledger.unstopped _ hfound hsame.symm
    · exact hunobserved service rfl hfound
  unstopped := by
    intro service hfound hstopping
    change call.op.apply call.read = _ at hstopping
    rw [htimely.1] at hstopping
    cases hop : call.op with
    | attach other =>
      rw [hop] at hstopping
      cases congrArg Attachment.stopping (Option.some.inj hstopping)
    | detach other =>
      rw [hop] at hstopping
      exact hledger.unstopped service hfound (Option.filter_eq_some_iff.mp hstopping).1
    | markStopping registered =>
      have hregistered := hledger.registered call (List.mem_of_getElem? hcall) _ hop
      rw [← htimely.1] at hstopping
      rw [Timely, hop] at htimely
      rw [hop] at hstopping
      rcases htimely.2 with hsame | ⟨-, hunobserved⟩
      · exact hledger.unstopped service hfound (hsame.symm.trans hstopping)
      · obtain ⟨before, hread, hafter⟩ := Option.map_eq_some_iff.mp hstopping
        refine hunobserved service ?_ hfound
        rw [hregistered, hread, Option.map_some, Option.mem_some_iff]
        exact congrArg Attachment.service hafter
  returned := hledger.returned

theorem ledger_read (hledger : Ledger g)
    (hlive : ∀ service, g.attachment = some ⟨service, false⟩ → Unmarked g.cell.done service)
    (hread : g.read a = some g') : Ledger g' := by
  cases a with
  | ensureRunning =>
    obtain rfl := Option.some.inj hread
    have hbefore : ∀ service, .found service ∈ g.readers ++ [.awaiting] →
        .found service ∈ g.readers := by
      intro service hfound
      simpa using hfound
    exact ⟨hledger.registered, fun service hfound ↦ hledger.found service (hbefore service hfound),
      fun service hfound ↦ hledger.unstopped service (hbefore service hfound), hledger.returned⟩
  | find i =>
    simp only [Gate.read] at hread
    split_ifs at hread with hawaiting
    obtain ⟨service, hservice, rfl⟩ := Option.map_eq_some_iff.mp hread
    obtain ⟨⟨_, stopping⟩, hfilter, rfl⟩ := Option.map_eq_some_iff.mp hservice
    obtain ⟨hattached, hnot⟩ := Option.filter_eq_some_iff.mp hfilter
    obtain rfl : stopping = false := by simpa using hnot
    refine ⟨hledger.registered, fun other hfound ↦ ?_, fun other hfound hstopping ↦ ?_,
      hledger.returned⟩
    · rcases List.mem_or_eq_of_mem_set hfound with hbefore | hnew
      · exact hledger.found other hbefore
      · obtain rfl := Reader.found.inj hnew
        exact hlive _ hattached
    · change g.attachment = _ at hstopping
      rw [hattached] at hstopping
      cases congrArg Attachment.stopping (Option.some.inj hstopping)
  | giveUp i =>
    simp only [Gate.read] at hread
    split_ifs at hread
    obtain rfl := Option.some.inj hread
    exact ⟨hledger.registered,
      fun service hfound ↦ hledger.found service (List.mem_of_mem_eraseIdx hfound),
      fun service hfound ↦ hledger.unstopped service (List.mem_of_mem_eraseIdx hfound),
      hledger.returned⟩
  | hand i =>
    simp only [Gate.read] at hread
    split at hread
    next service hreader =>
      obtain rfl := Option.some.inj hread
      refine ⟨hledger.registered,
        fun other hfound ↦ hledger.found other (List.mem_of_mem_eraseIdx hfound),
        fun other hfound ↦ hledger.unstopped other (List.mem_of_mem_eraseIdx hfound),
        fun hand hmem ↦ ?_⟩
      rcases List.mem_cons.mp hmem with rfl | hbefore
      · exact hledger.found service (List.mem_of_getElem? hreader)
      · exact hledger.returned hand hbefore
    next => cases hread
  | attach _ => cases hread
  | markStopping => cases hread
  | detach _ => cases hread
  | write _ => cases hread

theorem ledger_step (hledger : Ledger g)
    (hlive : ∀ service, g.attachment = some ⟨service, false⟩ → Unmarked g.cell.done service)
    (htimely : Undisturbed g a) (hstep : step g a = some g') : Ledger g' := by
  rcases step_cases hstep with ⟨access, haccess, cell, hcell, rfl⟩ | ⟨-, hread⟩
  · cases a with
    | attach service =>
      obtain rfl := Option.some.inj haccess
      obtain rfl := Option.some.inj hcell
      exact ledger_attach hledger service
    | markStopping =>
      obtain rfl := Option.some.inj haccess
      obtain rfl := Option.some.inj hcell
      refine ledger_begin hledger fun registered hmark ↦ ?_
      exact (Operation.markStopping.inj hmark).symm
    | detach service =>
      obtain rfl := Option.some.inj haccess
      obtain rfl := Option.some.inj hcell
      exact ledger_begin hledger nofun
    | write i =>
      obtain rfl := Option.some.inj haccess
      obtain ⟨call, hcall, rfl⟩ := Option.map_eq_some_iff.mp hcell
      exact ledger_write hledger hcall (htimely call hcall)
    | ensureRunning => cases haccess
    | find _ => cases haccess
    | giveUp _ => cases haccess
    | hand _ => cases haccess
  · exact ledger_read hledger hlive hread

theorem ledger_of_reaches (hreach : Reaches step Undisturbed Gate.initial g) : Ledger g := by
  refine hreach.invariant_of_reaches Ledger ?_ ⟨nofun, nofun, nofun, nofun⟩
  intro a x y hbefore hledger htimely hstep
  refine ledger_step hledger (fun service hattached ↦ ?_) htimely hstep
  exact unmarked_of_serial ((attachment_eq_serial hbefore).symm.trans hattached)

/-! ### The gate keeps its promise -/

theorem kept_write (hledger : Ledger g) {i : ℕ} {call : Call (Option Attachment) Operation}
    (hcall : g.cell.calls[i]? = some call) (htimely : Timely g call)
    (hafter : g'.attachment = call.op.apply call.read) : KeptBy g g' call where
  instance_markStopping := by
    intro registered hop
    rw [Gate.current, hafter, htimely.1, hop, Gate.current]
    simp [Operation.apply, Option.map_map, Function.comp_def]
  others_markStopping := by
    intro registered hop hother
    have hregistered := hledger.registered call (List.mem_of_getElem? hcall) _ hop
    have hsame := congrArg (Option.map Attachment.service) htimely.1
    rw [hop] at hsame
    simp only [Operation.apply, Option.map_map, Function.comp_def] at hsame
    exact absurd (hsame.symm.trans hregistered.symm) hother
  attach_markStopping := by
    intro registered hop hattach
    rw [Timely, hop] at htimely
    rcases htimely.2 with hsame | ⟨hnone, -⟩
    · rw [hafter, hop, hsame]
    · rw [hattach] at hnone
      cases hnone
  others_detach := by
    intro service hop hother
    rw [hafter, htimely.1, hop]
    rcases hattached : g.attachment with _ | attachment
    · rfl
    · have hne : attachment.service ≠ service := by
        rintro rfl
        exact hother (congrArg (Option.map Attachment.service) hattached)
      simp [Operation.apply, Option.filter_some, hne]

/-- In every run in which no call is overtaken, every state is sound, and every access keeps what
the calls promise. -/
theorem sound_of_undisturbed (hreach : Reaches step Undisturbed Gate.initial g) :
    Sound g ∧ ∀ a g', Undisturbed g a → step g a = some g' → Kept g a g' := by
  have hledger := ledger_of_reaches hreach
  refine ⟨⟨fun service ↦ ?_, hledger.returned⟩, ?_⟩
  · rw [Gate.current, attachment_eq_serial hreach]
    exact service_serial_iff
  · rintro a g' htimely hstep i rfl call hcall
    obtain ⟨access, haccess, cell, hcell, rfl⟩ | ⟨haccess, -⟩ := step_cases hstep
    · obtain rfl := Option.some.inj haccess
      obtain ⟨call', hcall', rfl⟩ := Option.map_eq_some_iff.mp hcell
      obtain rfl := Option.some.inj (hcall'.symm.trans hcall)
      exact kept_write hledger hcall (htimely _ hcall) rfl
    · cases haccess

/-- A session ends in a service while another instance attaches. The write of `markStopping` was
computed without it, and takes the attach back. -/
theorem not_sound_lost : ¬ ∀ g, Reaches step Always Gate.initial g → Sound g := by
  intro hpromise
  obtain ⟨g, hreach, hcheck⟩ := exists_reaches_of_run step Always Gate.initial
    [.attach 0, .markStopping, .attach 1, .write 0]
    (fun g ↦ decide (g.current = some 0 ∧
      g.cell.done = [.markStopping (some 0), .attach 1, .attach 0]))
    (by decide)
  obtain ⟨hcurrent, hdone⟩ := of_decide_eq_true hcheck
  have hregistered := ((hpromise g hreach).current 0).mp hcurrent
  rw [hdone, registered_cons, registered_cons] at hregistered
  rcases hregistered with hmark | ⟨hattach | ⟨-, hother, -⟩, -⟩
  · cases hmark
  · cases hattach
  · cases hother

/-- A service is marked and destroyed, and a connect waits for the one that replaces it. -/
theorem sound_of_undisturbed_replaced :
    ∃ g, Reaches step Undisturbed Gate.initial g ∧ g.current = some 1 ∧ Sound g := by
  obtain ⟨g, hreach, hcheck⟩ := exists_reaches_of_run step Undisturbed Gate.initial
    [.attach 0, .ensureRunning, .find 0, .hand 0, .markStopping, .write 0, .ensureRunning,
      .attach 1, .detach 0, .find 0, .write 0, .hand 0]
    (fun g ↦ decide (g.current = some 1 ∧ g.returned.map Prod.fst = [1, 0])) (by decide)
  exact ⟨g, hreach, (of_decide_eq_true hcheck).1, (sound_of_undisturbed hreach).1⟩

end WindscribeVpn.Tunnel.VpnServiceGate
