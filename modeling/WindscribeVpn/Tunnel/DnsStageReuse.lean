import WindscribeVpn.Tunnel.DnsStageTable

/-!
# Reuse of upstream ids in the DNS stage

An entry of the table, the timer scheduled for it and the response to its datagram are linked by the
upstream id alone. The timer of an answered query stays scheduled, and a response may arrive after
its query has expired, so both can find the entry of a later query that was given the same id.
`ReuseSafe` says that this never happens: an entry leaves the table only through the response to its
own datagram, its own timer, its own failed send, or `stop`.

`not_reuseSafe_timer` is a run in which it does happen: a query is answered, 65535 more are sent and
answered while its timer is still scheduled, the next one is given the same id, and the old timer
takes it out of the table. `reuseSafe_of_timely` is the promise for every run in which a timer
fires, and a response arrives, only while its query is the last one its id was given to.
-/

set_option autoImplicit false
set_option relaxedAutoImplicit false

namespace WindscribeVpn.Tunnel.ControlDDnsStage

open Foundations.Runs

/-! ### The promise and the condition -/

/-- The entry left through its own response, timer or send, or through `stop`. -/
def Departure.Own (d : Departure) : Prop :=
  match d.cause with
  | .response answers => answers = some d.serial
  | .timer owner | .sendFailure owner => owner = d.serial
  | .stop => True

/-- Every query that was given an id is in the table under it or has left, and every query that has
left did so by itself. -/
def ReuseSafe (s : Stage) : Prop :=
  (∀ serial id, (serial, id) ∈ s.history.assigned →
    (∃ p, s.pending.lookup id = some p ∧ p.serial = serial) ∨ Departed s serial) ∧
  ∀ d ∈ s.history.departures, d.Own

/-- The query an id was given to last. -/
def latest (s : Stage) (id : ℕ) : Option ℕ :=
  (s.history.assigned.find? fun given ↦ given.2 = id).map Prod.fst

/-- The datagram `deliver` is about to look up, with the query it answers. -/
def RxPc.delivering : RxPc → Option (List UInt8 × Option ℕ)
  | .received datagram answers => some (datagram, answers)
  | .head | .receiving | .matched _ _ | .exited => none

/-- The condition on one step: a timer fires only while its query is the last one its id was given
to, and a datagram that `deliver` looks up carries an id that was given last to the query it
answers. -/
def Timely (s : Stage) : Action → Prop
  | .expire timer => latest s timer.id = some timer.owner
  | .rx .advance => ∀ given ∈ s.rx.delivering,
    given.2.isSome = true ∧ latest s (transactionId (receivedBytes given.1)) = given.2
  | .rx (.receive _ _) | .rx .timeout | .rx .ioError | .rx .replyFailed => True
  | .offer _ | .tx _ | .stop | .onEngineAttached => True

instance decidableTimely (s : Stage) : (a : Action) → Decidable (Timely s a)
  | .expire timer => inferInstanceAs (Decidable (latest s timer.id = some timer.owner))
  | .rx .advance => inferInstanceAs (Decidable (∀ given ∈ s.rx.delivering,
      given.2.isSome = true ∧ latest s (transactionId (receivedBytes given.1)) = given.2))
  | .rx (.receive _ _) | .rx .timeout | .rx .ioError | .rx .replyFailed =>
    inferInstanceAs (Decidable True)
  | .offer _ | .tx _ | .stop | .onEngineAttached => inferInstanceAs (Decidable True)

/-! ### The invariant -/

/-- The entry under an id, and the query the transmit loop has put there, is the one the id was
given to last. -/
structure Latest (s : Stage) : Prop where
  entry : ∀ id p, s.pending.lookup id = some p → latest s id = some p.serial
  failing : ∀ id q, s.tx = .sending id q ∨ s.tx = .failing id q → latest s id = some q.serial

theorem latest_cons {s s' : Stage} {serial id : ℕ}
    (hassigned : s'.history.assigned = (serial, id) :: s.history.assigned) (other : ℕ) :
    latest s' other = if other = id then some serial else latest s other := by
  unfold latest
  rw [hassigned, List.find?_cons]
  by_cases h : id = other
  · simp [h]
  · simp [h, Ne.symm h]

/-- The transmit loop reaches a failed send only through its own put. -/
theorem failing_step {c : Codec} {a : Action} {s s' : Stage} {id : ℕ} {q : Query}
    (hstep : step c s a = some s') (htx' : s'.tx = .sending id q ∨ s'.tx = .failing id q) :
    s'.history.assigned = (q.serial, id) :: s.history.assigned ∨
      (s.tx = .sending id q ∨ s.tx = .failing id q) ∧
        s'.history.assigned = s.history.assigned := by
  by_cases htx : ∃ event, a = .tx event
  · obtain ⟨event, rfl⟩ := htx
    cases txStep_move hstep with
    | put htx =>
      rcases htx' with hsending | hfailing
      · obtain ⟨rfl, rfl⟩ := TxPc.sending.inj hsending
        exact Or.inl rfl
      · cases hfailing
    | sendFails htx =>
      rcases htx' with hsending | hfailing
      · cases hsending
      · obtain ⟨rfl, rfl⟩ := TxPc.failing.inj hfailing
        exact Or.inr ⟨Or.inl htx, rfl⟩
    | poll | exit | idle | take | pass | bypass | check | overLimit | allocate | collide | choose
    | exhaust | fail | schedule | send | interrupt => rcases htx' with htx' | htx' <;> cases htx'
  · have hsame := (tx_frame hstep fun event ha ↦ htx ⟨event, ha⟩).1
    rw [hsame] at htx'
    cases tableMove_step hstep with
    | keep _ hassigned => exact Or.inr ⟨htx', hassigned⟩
    | remove _ _ _ hassigned => exact Or.inr ⟨htx', hassigned⟩
    | clear _ _ hassigned => exact Or.inr ⟨htx', hassigned⟩
    | put hputting =>
      rw [hputting] at htx'
      rcases htx' with htx' | htx' <;> cases htx'

/-- Every step keeps entries with the query their id was given to last. -/
theorem latest_step {c : Codec} {a : Action} {s s' : Stage} (h : Latest s)
    (hstep : step c s a = some s') : Latest s' := by
  have hsame : s'.history.assigned = s.history.assigned → ∀ id, latest s' id = latest s id := by
    intro hassigned id
    simp only [latest, hassigned]
  constructor
  · intro id p hp
    cases tableMove_step hstep with
    | keep hpending hassigned =>
      rw [hsame hassigned]
      exact h.entry id p (hpending ▸ hp)
    | put htx htx' hpending hassigned =>
      rw [latest_cons hassigned]
      rw [hpending] at hp
      rcases lookup_insert_some hp with ⟨rfl, rfl⟩ | ⟨hne, hlookup⟩
      · exact if_pos rfl
      · rw [if_neg hne]
        exact h.entry id p hlookup
    | remove _ _ hpending hassigned =>
      rw [hsame hassigned]
      rw [hpending] at hp
      exact h.entry id p (lookup_erase_some hp).2
    | clear _ hpending hassigned =>
      rw [hpending, AList.lookup_empty] at hp
      cases hp
  · intro id q htx'
    rcases failing_step hstep htx' with hassigned | ⟨htx, hassigned⟩
    · rw [latest_cons hassigned]
      exact if_pos rfl
    · rw [hsame hassigned]
      exact h.failing id q htx

/-- A removal that meets the condition removes the entry of the query it belongs to. -/
theorem own_of_removes {a : Action} {s : Stage} {id : ℕ} {p : PendingQuery} {cause : Cause}
    (h : Latest s) (htimely : Timely s a) (hremoves : Removes s a id cause)
    (hlookup : s.pending.lookup id = some p) : Departure.Own ⟨p.serial, cause⟩ := by
  have hlatest := h.entry id p hlookup
  cases hremoves with
  | response hrx =>
    obtain ⟨-, hgiven⟩ := htimely _ (by rw [hrx]; rfl)
    exact hgiven.symm.trans hlatest
  | timer htimers hmem => exact Option.some.inj (Eq.trans (Eq.symm htimely) hlatest)
  | sendFailure htx => exact Option.some.inj ((h.failing _ _ (Or.inr htx)).symm.trans hlatest)

/-- A step that meets the condition makes only departures of its own. -/
theorem own_step {c : Codec} {a : Action} {s s' : Stage} (h : Latest s)
    (hown : ∀ d ∈ s.history.departures, d.Own) (htimely : Timely s a)
    (hstep : step c s a = some s') : ∀ d ∈ s'.history.departures, d.Own := by
  cases tableMove_step hstep with
  | keep _ _ hdepartures => rwa [hdepartures]
  | put _ _ _ _ hdepartures => rwa [hdepartures]
  | remove hremoves hlookup _ _ hdepartures =>
    rw [hdepartures]
    intro d hd
    rcases List.mem_cons.mp hd with rfl | hd
    · exact own_of_removes h htimely hremoves hlookup
    · exact hown d hd
  | clear _ _ _ hdepartures =>
    rw [hdepartures]
    intro d hd
    rcases List.mem_append.mp hd with hd | hd
    · obtain ⟨e, -, rfl⟩ := List.mem_map.mp hd
      trivial
    · exact hown d hd

/-- **Safe reuse.** In every run in which timers and responses come while their query is the last
one its id was given to, an entry leaves the table only by itself. -/
theorem reuseSafe_of_timely (c : Codec) (counter : BitVec 32) (s : Stage)
    (hreach : Reaches (step c) Timely (Stage.started counter) s) : ReuseSafe s := by
  have hledger := (stageOk_of_reaches hreach).ledger
  refine ⟨fun serial id hassigned ↦ ?_, ?_⟩
  · by_cases hgone : Departed s serial
    · exact Or.inr hgone
    · exact Or.inl (hledger.inFlight serial id ⟨hassigned, hgone⟩)
  · have hboth : Latest s ∧ ∀ d ∈ s.history.departures, d.Own := by
      refine hreach.invariant (fun x ↦ Latest x ∧ ∀ d ∈ x.history.departures, d.Own) ?_ ?_
      · intro a x y hx htimely hstep
        exact ⟨latest_step hx.1 hstep, own_step hx.1 hx.2 htimely hstep⟩
      · refine ⟨⟨?_, ?_⟩, ?_⟩ <;> simp [Stage.started]
    exact hboth.2

/-- A run that meets the condition: a query is answered, and then its timer fires. -/
theorem reuseSafe_of_timely_answered :
    ∃ s, Reaches (step sampleCodec) Timely (Stage.started 0) s ∧
      s.history.departures = [⟨0, .response (some 0)⟩] ∧ ReuseSafe s := by
  obtain ⟨s, hreach, hcheck⟩ := exists_reaches_of_run (step sampleCodec) Timely (Stage.started 0)
    (submit sampleRaw ++ respond (List.replicate 12 0) (some 0) ++ [Action.expire ⟨0, 0⟩])
    (fun s ↦ decide (s.history.departures = [⟨0, .response (some 0)⟩])) (by decide)
  exact ⟨s, hreach, of_decide_eq_true hcheck, reuseSafe_of_timely _ _ s hreach⟩

/-! ### An id given twice while the first timer is scheduled -/

/-- The loops are idle, no query is in flight, and these timers are scheduled. -/
structure Quiet (s : Stage) (scheduled : List Timer) : Prop where
  idle : Idle s
  pending : s.pending = ∅
  timers : s.timers = some scheduled

theorem erase_insert_empty (id : ℕ) (p : PendingQuery) :
    ((∅ : Table).insert id p).erase id = ∅ := by
  apply AList.ext
  rw [AList.insert_empty]
  exact List.kerase_cons_eq rfl

/-- A scheduled timer takes whatever entry it finds under its id out of the table. -/
theorem expire_departs (c : Codec) {s : Stage} {timer : Timer} {scheduled : List Timer}
    {p : PendingQuery} (htimers : s.timers = some scheduled) (hmem : timer ∈ scheduled)
    (hlookup : s.pending.lookup timer.id = some p) :
    ∃ s', step c s (.expire timer) = some s' ∧
      ⟨p.serial, .timer timer.owner⟩ ∈ s'.history.departures := by
  simp only [step, expire, htimers, if_pos hmem, Option.some.injEq, exists_eq_left']
  simp [Stage.removePending, hlookup]

/-- The sample query is sent and answered, and its timer stays scheduled. -/
theorem exchange_reaches {s : Stage} {scheduled : List Timer} (h : Quiet s scheduled) :
    ∃ s', Reaches (step sampleCodec) Always s s' ∧
      Quiet s' (⟨s.nextSerial, candidateId s.nextUpstreamId⟩ :: scheduled) ∧
      s'.nextUpstreamId = s.nextUpstreamId + 1 ∧ s'.nextSerial = s.nextSerial + 1 := by
  let q : Query := ⟨s.nextSerial, samplePacket, [0x12, 0x34]⟩
  let id := candidateId s.nextUpstreamId
  let datagram := writeTransactionId (List.replicate 12 0) id
  have hbytes : receivedBytes datagram = datagram := by
    simp [datagram, receivedBytes, responseBufferBytes, writeTransactionId]
  have hid : transactionId (receivedBytes datagram) = id := by
    rw [hbytes]
    exact transactionId_writeTransactionId (by simp) (candidateId_lt _)
  have hsubmit : run (step sampleCodec) s (submit sampleRaw) =
      some (s.submitted sampleCodec sampleRaw q) :=
    run_submit h.idle (queryOf_sampleRaw _) (shouldBypass_sampleCodec _ _)
      (by rw [h.pending]; decide) (by rw [h.pending]; exact AList.notMem_empty _)
  have hidle : Idle (s.submitted sampleCodec sampleRaw q) :=
    ⟨h.idle.running, h.idle.socketOpen, h.idle.inbound, h.idle.tx, h.idle.rx⟩
  have hrespond := run_respond (c := sampleCodec) (p := q.pendingQuery sampleCodec) datagram
    (some s.nextSerial) hidle (by rw [hbytes]; simp [datagram, writeTransactionId])
    (by rw [hid]; exact AList.lookup_insert _)
    (by simp [questionMatches, sampleCodec_questionName, Query.pendingQuery]) rfl
  refine ⟨_, (reaches_always_of_run hsubmit).trans (reaches_always_of_run hrespond),
    ⟨⟨h.idle.running, h.idle.socketOpen, h.idle.inbound, h.idle.tx, h.idle.rx⟩, ?_, ?_⟩, rfl, rfl⟩
  · rw [hid]
    simp only [Stage.answeredWith, Stage.submitted, h.pending]
    exact erase_insert_empty _ _
  · simp [Stage.answeredWith, Stage.submitted, h.timers, q]

/-- Any number of exchanges: the counter moves on by as many, and no timer is lost. -/
theorem exchanges_reach (n : ℕ) {s : Stage} {scheduled : List Timer} (h : Quiet s scheduled) :
    ∃ s' scheduled', Reaches (step sampleCodec) Always s s' ∧ Quiet s' scheduled' ∧
      s'.nextUpstreamId = s.nextUpstreamId + BitVec.ofNat 32 n ∧
      s'.nextSerial = s.nextSerial + n ∧ ∀ timer ∈ scheduled, timer ∈ scheduled' := by
  induction n with
  | zero =>
    refine ⟨s, scheduled, Relation.ReflTransGen.refl, h, ?_, rfl, fun timer ht ↦ ht⟩
    simp
  | succ n ih =>
    obtain ⟨middle, scheduled', hreach, hquiet, hcounter, hserial, htimers⟩ := ih
    obtain ⟨last, hlast, hquiet', hcounter', hserial'⟩ := exchange_reaches hquiet
    refine ⟨last, _, hreach.trans hlast, hquiet', ?_, ?_, fun timer ht ↦ ?_⟩
    · rw [hcounter', hcounter, BitVec.add_assoc]
      congr 1
      exact (BitVec.ofNat_add n 1).symm
    · rw [hserial', hserial, Nat.add_assoc]
    · exact List.mem_cons_of_mem _ (htimers timer ht)

/-- The timer of an answered query takes a later query with the same id out of the table. -/
theorem not_reuseSafe_timer :
    ∃ s, Reaches (step sampleCodec) Always (Stage.started 0) s ∧ ¬ ReuseSafe s := by
  have hstart : Quiet (Stage.started 0) [] := ⟨⟨rfl, rfl, rfl, rfl, rfl⟩, rfl, rfl⟩
  obtain ⟨first, hfirst, hquiet, hcounter, hserial⟩ := exchange_reaches hstart
  obtain ⟨s, scheduled, hreach, hquiet', hcounter', hserial', htimers⟩ :=
    exchanges_reach 65535 hquiet
  have hid : candidateId s.nextUpstreamId = 0 := by
    rw [hcounter', hcounter]
    decide
  let q : Query := ⟨s.nextSerial, samplePacket, [0x12, 0x34]⟩
  have hsubmit : run (step sampleCodec) s (submit sampleRaw) =
      some (s.submitted sampleCodec sampleRaw q) :=
    run_submit hquiet'.idle (queryOf_sampleRaw _) (shouldBypass_sampleCodec _ _)
      (by rw [hquiet'.pending]; decide) (by rw [hquiet'.pending]; exact AList.notMem_empty _)
  have hmem : (⟨0, 0⟩ : Timer) ∈ scheduled := htimers _ List.mem_cons_self
  have hlookup : (s.submitted sampleCodec sampleRaw q).pending.lookup 0 =
      some (q.pendingQuery sampleCodec) := by
    simp only [Stage.submitted, hid]
    exact AList.lookup_insert _
  have htimers' : (s.submitted sampleCodec sampleRaw q).timers =
      some (⟨s.nextSerial, candidateId s.nextUpstreamId⟩ :: scheduled) := by
    simp only [Stage.submitted, hquiet'.timers, Option.map_some, q]
  obtain ⟨last, hexpire, hdeparture⟩ :=
    expire_departs sampleCodec htimers' (List.mem_cons_of_mem _ hmem) hlookup
  refine ⟨last, ((hfirst.trans hreach).trans (reaches_always_of_run hsubmit)).tail
    ⟨_, trivial, hexpire⟩, fun hsafe ↦ ?_⟩
  have hown : 0 = s.nextSerial := hsafe.2 _ hdeparture
  rw [hserial', hserial] at hown
  exact absurd hown (by simp [Stage.started])

end WindscribeVpn.Tunnel.ControlDDnsStage
