import WindscribeVpn.Tunnel.ControlDDnsStage
import Mathlib.Data.Finset.Card
import Mathlib.Data.Nat.Bitwise
import Mathlib.Order.Interval.Finset.Nat

/-!
# The table of the DNS stage and the replies made from it

`StageSound` is what the DNS stage promises of every state: the upstream ids in flight are pairwise
distinct, the table keeps its limit, `allocateUpstreamId` finds an id that is not in flight, an
accepted query is answered at most once, and the answer goes back to the asker under its own
transaction id with the resolver's bytes after the first two.

`TxMove` and `RxMove` say once what a step of the two loops can do, `TableMove` what any step can do
to the table, and the invariant `StageOk` is derived from them. `Capacity` bounds the table: only
the transmit loop adds entries, so what it saw at the size check still bounds the table at the put,
and the candidates it has tried were all in the table when it began. `Lineage` keeps the order of
the queue, which makes serials unique. `Ledger` says that the table holds exactly the queries in
flight, and `Answering` that a reply is made once, from an entry that has left the table.

The receive buffer has `RESPONSE_BUFFER_BYTES` bytes and cuts a longer datagram off, so the last
part of the promise needs a condition. `stageSound_iff` gives it for a state, `stageSound_of_fits`
for runs, and `not_stageSound_truncated` is a run that breaks the promise.
-/

set_option autoImplicit false
set_option relaxedAutoImplicit false

namespace WindscribeVpn.Tunnel.ControlDDnsStage

open Foundations.Runs

/-! ### Transaction ids -/

theorem candidateId_eq (counter : BitVec 32) : candidateId counter = counter.toNat % 65536 := by
  unfold candidateId
  rw [BitVec.toNat_and]
  exact Nat.and_two_pow_sub_one_eq_mod counter.toNat 16

theorem candidateId_lt (counter : BitVec 32) : candidateId counter < 65536 := by
  rw [candidateId_eq]
  omega

theorem transactionId_cons (a b : UInt8) (rest : List UInt8) :
    transactionId (a :: b :: rest) = a.toNat * 256 + b.toNat := by
  simp only [transactionId, List.getD_cons_zero, List.getD_cons_succ]
  rw [← Nat.shiftLeft_add_eq_or_of_lt (UInt8.toNat_lt b), Nat.shiftLeft_eq]

theorem byte_shiftRight (id : ℕ) : (id >>> 8) &&& 0xFF = id / 256 % 256 := by
  rw [Nat.shiftRight_eq_div_pow]
  exact Nat.and_two_pow_sub_one_eq_mod _ 8

theorem byte_low (id : ℕ) : id &&& 0xFF = id % 256 := Nat.and_two_pow_sub_one_eq_mod id 8

/-- What the stage writes is read back. -/
theorem transactionId_writeTransactionId {dns : List UInt8} {id : ℕ} (hlength : 2 ≤ dns.length)
    (hid : id < 65536) : transactionId (writeTransactionId dns id) = id := by
  unfold writeTransactionId
  rw [if_pos hlength, transactionId_cons, byte_shiftRight, byte_low, UInt8.toNat_ofNat',
    UInt8.toNat_ofNat']
  omega

/-- Writing the id of a query puts that query's own two bytes back. -/
theorem writeTransactionId_transactionId {dns query : List UInt8} (hdns : 2 ≤ dns.length)
    (hquery : 2 ≤ query.length) :
    writeTransactionId dns (transactionId query) = query.take 2 ++ dns.drop 2 := by
  obtain ⟨a, b, rest, rfl⟩ : ∃ a b rest, query = a :: b :: rest := by
    match query, hquery with
    | a :: b :: rest, _ => exact ⟨a, b, rest, rfl⟩
  have hb : b.toNat < 256 := UInt8.toNat_lt b
  have ha : a.toNat < 256 := UInt8.toNat_lt a
  have hhigh : (a.toNat * 256 + b.toNat) / 256 % 256 = a.toNat := by omega
  have hlow : (a.toNat * 256 + b.toNat) % 256 = b.toNat := by omega
  unfold writeTransactionId
  rw [if_pos hdns, transactionId_cons, byte_shiftRight, byte_low, hhigh, hlow]
  simp

/-! ### What the transmit loop can do -/

/-- What a step of the transmit loop does, guards included. -/
inductive TxMove (c : Codec) (s : Stage) : TxEvent → Stage → Prop
  | poll (htx : s.tx = .head) (hrunning : s.running = true) :
      TxMove c s .advance { s with tx := .polling }
  | exit (htx : s.tx = .head) (hrunning : s.running = false) :
      TxMove c s .advance { s with tx := .exited }
  | idle (htx : s.tx = .polling) (hempty : s.inbound = []) :
      TxMove c s .advance { s with tx := .head }
  | take {o : Offered} {rest : List Offered} (htx : s.tx = .polling)
      (hinbound : s.inbound = o :: rest) :
      TxMove c s .advance { s with inbound := rest, tx := .taken o }
  | pass {o : Offered} (htx : s.tx = .taken o) (hnone : queryOf c o = none) :
      TxMove c s .advance { s.passThrough o.serial with tx := .head }
  | bypass {o : Offered} {q : Query} (htx : s.tx = .taken o) (hquery : queryOf c o = some q)
      (hbypass : shouldBypass c s.windscribeBypassAvailable q.dnsPayload = true) :
      TxMove c s .advance
        { s.passThrough o.serial with windscribeBypassAvailable := false, tx := .head }
  | check {o : Offered} {q : Query} (htx : s.tx = .taken o) (hquery : queryOf c o = some q)
      (hbypass : ¬ shouldBypass c s.windscribeBypassAvailable q.dnsPayload = true) :
      TxMove c s .advance { s with tx := .checking q }
  | overLimit {q : Query} (htx : s.tx = .checking q)
      (hfull : maxPending ≤ s.pending.entries.length) :
      TxMove c s .advance { s with tx := .head }
  | allocate {q : Query} (htx : s.tx = .checking q)
      (hroom : ¬ maxPending ≤ s.pending.entries.length) :
      TxMove c s .advance { s with tx := .allocating 0 q }
  | collide {attempt : ℕ} {q : Query} (htx : s.tx = .allocating attempt q)
      (hmore : attempt < 0x10000) (hmem : candidateId s.nextUpstreamId ∈ s.pending) :
      TxMove c s .advance { s with
        nextUpstreamId := s.nextUpstreamId + 1, tx := .allocating (attempt + 1) q }
  | choose {attempt : ℕ} {q : Query} (htx : s.tx = .allocating attempt q)
      (hmore : attempt < 0x10000) (hfresh : candidateId s.nextUpstreamId ∉ s.pending) :
      TxMove c s .advance { s with
        nextUpstreamId := s.nextUpstreamId + 1, tx := .putting (candidateId s.nextUpstreamId) q }
  | exhaust {attempt : ℕ} {q : Query} (htx : s.tx = .allocating attempt q)
      (hmore : ¬ attempt < 0x10000) : TxMove c s .advance { s with tx := .head }
  | put {id : ℕ} {q : Query} (htx : s.tx = .putting id q) :
      TxMove c s .advance { s with
        pending := s.pending.insert id (q.pendingQuery c)
        tx := .sending id q
        history := { s.history with assigned := (q.serial, id) :: s.history.assigned } }
  | fail {id : ℕ} {q : Query} (htx : s.tx = .failing id q) :
      TxMove c s .advance { s.removePending id (.sendFailure q.serial) with tx := .head }
  | schedule {id : ℕ} {q : Query} (htx : s.tx = .scheduling id q) :
      TxMove c s .advance { s with timers := s.timers.map (⟨q.serial, id⟩ :: ·), tx := .head }
  | send {id : ℕ} {q : Query} {sent : Bool} (htx : s.tx = .sending id q)
      (hsent : (sent && s.socketOpen) = true) :
      TxMove c s (.send sent) { s with
        tx := .scheduling id q
        history := { s.history with
          sent := ⟨q.serial, writeTransactionId q.dnsPayload id⟩ :: s.history.sent } }
  | sendFails {id : ℕ} {q : Query} {sent : Bool} (htx : s.tx = .sending id q)
      (hsent : ¬ (sent && s.socketOpen) = true) :
      TxMove c s (.send sent) { s with tx := .failing id q }
  | interrupt (htx : s.tx = .polling) (hstop : s.stop ≠ .live) :
      TxMove c s .interrupted { s with tx := .exited }

theorem txMove_advance {c : Codec} {s s' : Stage} (hstep : txAdvance c s = some s') :
    TxMove c s .advance s' := by
  unfold txAdvance at hstep
  split at hstep
  case h_1 htx =>
    obtain rfl := Option.some.inj hstep
    split_ifs with hrunning
    · exact .poll htx hrunning
    · exact .exit htx (eq_false_of_ne_true hrunning)
  case h_2 htx =>
    split at hstep
    case h_1 hempty =>
      obtain rfl := Option.some.inj hstep
      exact .idle htx hempty
    case h_2 o rest hinbound =>
      obtain rfl := Option.some.inj hstep
      exact .take htx hinbound
  case h_3 o htx =>
    split at hstep
    case h_1 hnone =>
      obtain rfl := Option.some.inj hstep
      exact .pass htx hnone
    case h_2 q hquery =>
      split_ifs at hstep with hbypass
      · obtain rfl := Option.some.inj hstep
        exact .bypass htx hquery hbypass
      · obtain rfl := Option.some.inj hstep
        exact .check htx hquery hbypass
  case h_4 q htx =>
    split_ifs at hstep with hfull
    · obtain rfl := Option.some.inj hstep
      exact .overLimit htx hfull
    · obtain rfl := Option.some.inj hstep
      exact .allocate htx hfull
  case h_5 attempt q htx =>
    split_ifs at hstep with hmore
    · obtain rfl := Option.some.inj hstep
      split_ifs with hmem
      · exact .collide htx hmore hmem
      · exact .choose htx hmore hmem
    · obtain rfl := Option.some.inj hstep
      exact .exhaust htx hmore
  case h_6 id q htx =>
    obtain rfl := Option.some.inj hstep
    exact .put htx
  case h_7 => cases hstep
  case h_8 id q htx =>
    obtain rfl := Option.some.inj hstep
    exact .fail htx
  case h_9 id q htx =>
    obtain rfl := Option.some.inj hstep
    exact .schedule htx
  case h_10 => cases hstep

/-- The transmit loop makes no other steps. -/
theorem txStep_move {c : Codec} {s s' : Stage} {event : TxEvent}
    (hstep : txStep c s event = some s') : TxMove c s event s' := by
  cases event with
  | advance => exact txMove_advance hstep
  | send sent =>
    simp only [txStep] at hstep
    split at hstep
    case h_1 id q htx =>
      split_ifs at hstep with hsent
      · obtain rfl := Option.some.inj hstep
        exact .send htx hsent
      · obtain rfl := Option.some.inj hstep
        exact .sendFails htx hsent
    case h_2 => cases hstep
  | interrupted =>
    simp only [txStep] at hstep
    split_ifs at hstep with hpolling
    obtain rfl := Option.some.inj hstep
    exact .interrupt hpolling.1 hpolling.2

/-! ### What the receive loop can do -/

/-- What a step of the receive loop does, guards included. -/
inductive RxMove (c : Codec) (s : Stage) : RxEvent → Stage → Prop
  | exit (hrx : s.rx = .head) (hrunning : s.running = false) :
      RxMove c s .advance { s with rx := .exited }
  | listen (hrx : s.rx = .head) (hrunning : s.running = true) (hopen : s.socketOpen = true) :
      RxMove c s .advance { s with rx := .receiving }
  | closed (hrx : s.rx = .head) (hrunning : s.running = true) (hopen : s.socketOpen = false) :
      RxMove c s .advance { s with running := false, rx := .exited }
  | short {datagram : List UInt8} {answers : Option ℕ} (hrx : s.rx = .received datagram answers)
      (hshort : (receivedBytes datagram).length < 2) : RxMove c s .advance { s with rx := .head }
  | unknown {datagram : List UInt8} {answers : Option ℕ} (hrx : s.rx = .received datagram answers)
      (hlong : ¬ (receivedBytes datagram).length < 2)
      (hnone : s.pending.lookup (transactionId (receivedBytes datagram)) = none) :
      RxMove c s .advance { s with rx := .head }
  | answer {datagram : List UInt8} {answers : Option ℕ} {q : PendingQuery}
      (hrx : s.rx = .received datagram answers) (hlong : ¬ (receivedBytes datagram).length < 2)
      (hlookup : s.pending.lookup (transactionId (receivedBytes datagram)) = some q)
      (hmatches : questionMatches c (receivedBytes datagram) q = true) :
      RxMove c s .advance
        { s.removePending (transactionId (receivedBytes datagram)) (.response answers) with
          rx := .matched q datagram }
  | mismatch {datagram : List UInt8} {answers : Option ℕ} {q : PendingQuery}
      (hrx : s.rx = .received datagram answers) (hlong : ¬ (receivedBytes datagram).length < 2)
      (hlookup : s.pending.lookup (transactionId (receivedBytes datagram)) = some q)
      (hmatches : ¬ questionMatches c (receivedBytes datagram) q = true) :
      RxMove c s .advance
        { s.removePending (transactionId (receivedBytes datagram)) (.response answers) with
          rx := .head }
  | unbuilt {q : PendingQuery} {datagram : List UInt8} (hrx : s.rx = .matched q datagram)
      (hnone : rebuild q.request
        (writeTransactionId (receivedBytes datagram) q.appTransactionId) = none) :
      RxMove c s .advance { s with rx := .head }
  | write {q : PendingQuery} {datagram : List UInt8} {packet : IpPacket}
      (hrx : s.rx = .matched q datagram)
      (hpacket : rebuild q.request
        (writeTransactionId (receivedBytes datagram) q.appTransactionId) = some packet) :
      RxMove c s .advance { s with
        rx := .head
        answered := s.answered + 1
        history := { s.history with replies := ⟨q.serial, datagram, packet⟩ :: s.history.replies } }
  | receive {datagram : List UInt8} {answers : Option ℕ} (hrx : s.rx = .receiving)
      (hopen : s.socketOpen = true) :
      RxMove c s (.receive datagram answers) { s with rx := .received datagram answers }
  | timeout (hrx : s.rx = .receiving) : RxMove c s .timeout { s with rx := .head }
  | ioError (hrx : s.rx = .receiving) :
      RxMove c s .ioError { s with running := false, rx := .exited }
  | replyFails {q : PendingQuery} {datagram : List UInt8} (hrx : s.rx = .matched q datagram) :
      RxMove c s .replyFailed { s with rx := .head }

theorem rxMove_advance {c : Codec} {s s' : Stage} (hstep : rxStep c s .advance = some s') :
    RxMove c s .advance s' := by
  simp only [rxStep] at hstep
  split at hstep
  case h_1 hrx =>
    split_ifs at hstep with hstopped hopen
    · obtain rfl := Option.some.inj hstep
      exact .exit hrx (by simpa using hstopped)
    · obtain rfl := Option.some.inj hstep
      exact .listen hrx (by simpa using hstopped) hopen
    · obtain rfl := Option.some.inj hstep
      exact .closed hrx (by simpa using hstopped) (eq_false_of_ne_true hopen)
  case h_2 datagram answers hrx =>
    obtain rfl := Option.some.inj hstep
    unfold deliver
    dsimp only
    split_ifs with hshort
    · exact .short hrx hshort
    · split
      case h_1 hnone => exact .unknown hrx hshort hnone
      case h_2 q hlookup =>
        split_ifs with hmatches
        · exact .answer hrx hshort hlookup hmatches
        · exact .mismatch hrx hshort hlookup hmatches
  case h_3 q datagram hrx =>
    obtain rfl := Option.some.inj hstep
    unfold reply
    split
    case h_1 hnone => exact .unbuilt hrx hnone
    case h_2 packet hpacket => exact .write hrx hpacket
  case h_4 => cases hstep
  case h_5 => cases hstep

/-- The receive loop makes no other steps. -/
theorem rxStep_move {c : Codec} {s s' : Stage} {event : RxEvent}
    (hstep : rxStep c s event = some s') : RxMove c s event s' := by
  cases event with
  | advance => exact rxMove_advance hstep
  | receive datagram answers =>
    simp only [rxStep] at hstep
    split_ifs at hstep with hready
    obtain rfl := Option.some.inj hstep
    exact .receive hready.1 hready.2
  | timeout =>
    simp only [rxStep] at hstep
    split_ifs at hstep with hrx
    obtain rfl := Option.some.inj hstep
    exact .timeout hrx
  | ioError =>
    simp only [rxStep] at hstep
    split_ifs at hstep with hrx
    obtain rfl := Option.some.inj hstep
    exact .ioError hrx
  | replyFailed =>
    simp only [rxStep] at hstep
    split at hstep
    case h_1 q datagram hrx =>
      obtain rfl := Option.some.inj hstep
      exact .replyFails hrx
    case h_2 => cases hstep

/-! ### What a step can do to the table -/

/-- The removals the stage makes: the action, the id and the cause. -/
inductive Removes (s : Stage) : Action → ℕ → Cause → Prop
  | response {datagram : List UInt8} {answers : Option ℕ}
      (hrx : s.rx = .received datagram answers) :
      Removes s (.rx .advance) (transactionId (receivedBytes datagram)) (.response answers)
  | timer {timer : Timer} {scheduled : List Timer} (htimers : s.timers = some scheduled)
      (hmem : timer ∈ scheduled) : Removes s (.expire timer) timer.id (.timer timer.owner)
  | sendFailure {id : ℕ} {q : Query} (htx : s.tx = .failing id q) :
      Removes s (.tx .advance) id (.sendFailure q.serial)

/-- What a step does to the table and to the record of it. -/
inductive TableMove (c : Codec) (s : Stage) (a : Action) (s' : Stage) : Prop
  | keep (hpending : s'.pending = s.pending) (hassigned : s'.history.assigned = s.history.assigned)
      (hdepartures : s'.history.departures = s.history.departures)
  | put {id : ℕ} {q : Query} (htx : s.tx = .putting id q) (htx' : s'.tx = .sending id q)
      (hpending : s'.pending = s.pending.insert id (q.pendingQuery c))
      (hassigned : s'.history.assigned = (q.serial, id) :: s.history.assigned)
      (hdepartures : s'.history.departures = s.history.departures)
  | remove {id : ℕ} {p : PendingQuery} {cause : Cause} (hremoves : Removes s a id cause)
      (hlookup : s.pending.lookup id = some p) (hpending : s'.pending = s.pending.erase id)
      (hassigned : s'.history.assigned = s.history.assigned)
      (hdepartures : s'.history.departures = ⟨p.serial, cause⟩ :: s.history.departures)
  | clear (hstop : s.stop = .shut) (hpending : s'.pending = ∅)
      (hassigned : s'.history.assigned = s.history.assigned)
      (hdepartures : s'.history.departures =
        s.pending.entries.map (fun e ↦ ⟨e.2.serial, .stop⟩) ++ s.history.departures)

/-- A removal, followed by writes outside the table, is one of the table's moves. -/
theorem tableMove_removePending {c : Codec} {s s' : Stage} {a : Action} {id : ℕ} {cause : Cause}
    (hremoves : Removes s a id cause)
    (hpending : s'.pending = (s.removePending id cause).pending)
    (hassigned : s'.history.assigned = (s.removePending id cause).history.assigned)
    (hdepartures : s'.history.departures = (s.removePending id cause).history.departures) :
    TableMove c s a s' := by
  unfold Stage.removePending at hpending hassigned hdepartures
  split at hpending
  case h_1 hnone =>
    simp only [hnone] at hassigned hdepartures
    exact .keep hpending hassigned hdepartures
  case h_2 p hsome =>
    simp only [hsome] at hassigned hdepartures
    exact .remove hremoves hsome hpending hassigned hdepartures

theorem tableMove_txStep {c : Codec} {s s' : Stage} {event : TxEvent}
    (hstep : txStep c s event = some s') : TableMove c s (.tx event) s' := by
  cases txStep_move hstep with
  | put htx => exact .put htx rfl rfl rfl rfl
  | fail htx => exact tableMove_removePending (.sendFailure htx) rfl rfl rfl
  | poll | exit | idle | take | pass | bypass | check | overLimit | allocate | collide | choose
  | exhaust | schedule | send | sendFails | interrupt => exact .keep rfl rfl rfl

theorem tableMove_rxStep {c : Codec} {s s' : Stage} {event : RxEvent}
    (hstep : rxStep c s event = some s') : TableMove c s (.rx event) s' := by
  cases rxStep_move hstep with
  | answer hrx | mismatch hrx => exact tableMove_removePending (.response hrx) rfl rfl rfl
  | exit | listen | closed | short | unknown | unbuilt | write | receive | timeout | ioError
  | replyFails => exact .keep rfl rfl rfl

/-- Every step makes one of the table's moves. -/
theorem tableMove_step {c : Codec} {a : Action} {s s' : Stage} (hstep : step c s a = some s') :
    TableMove c s a s' := by
  cases a with
  | offer raw =>
    obtain rfl := Option.some.inj hstep
    unfold offer
    split_ifs <;> exact .keep rfl rfl rfl
  | tx event => exact tableMove_txStep hstep
  | rx event => exact tableMove_rxStep hstep
  | expire timer =>
    simp only [step, expire] at hstep
    split at hstep
    case h_1 => cases hstep
    case h_2 scheduled htimers =>
      split_ifs at hstep with hmem
      all_goals
        obtain rfl := Option.some.inj hstep
        exact tableMove_removePending (.timer htimers hmem) rfl rfl rfl
  | stop =>
    simp only [step, stopStep] at hstep
    split at hstep
    case h_4 hstop =>
      obtain rfl := Option.some.inj hstep
      exact .clear hstop rfl rfl rfl
    all_goals
      refine .keep ?_ ?_ ?_ <;> grind
  | onEngineAttached =>
    obtain rfl := Option.some.inj hstep
    exact .keep rfl rfl rfl

/-! ### The size of the table and the allocation of an id -/

/-- What the allocation loop knows after a number of failed attempts: the candidates it has seen
were all in the table when the loop began, and the table has only lost entries since. -/
def Tried (counter : BitVec 32) (attempt : ℕ) (seen : Finset ℕ) : Prop :=
  ∀ j, 1 ≤ j → j ≤ attempt → (counter.toNat + 65536 - j) % 65536 ∈ seen

/-- The table stays below its limit until the put, and the allocation stays within it. -/
structure Capacity (s : Stage) : Prop where
  size : s.pending.entries.length ≤ maxPending
  allocating : ∀ attempt q, s.tx = .allocating attempt q → ∃ seen : Finset ℕ,
    seen.card < maxPending ∧ attempt ≤ seen.card ∧ (∀ id ∈ s.pending, id ∈ seen) ∧
      Tried s.nextUpstreamId attempt seen
  putting : ∀ id q, s.tx = .putting id q →
    id < 65536 ∧ id ∉ s.pending ∧ s.pending.entries.length < maxPending

theorem length_le_card {table : Table} {seen : Finset ℕ} (hsub : ∀ id ∈ table, id ∈ seen) :
    table.entries.length ≤ seen.card := by
  have hnodup := table.keys_nodup
  have hcard : table.keys.toFinset.card = table.entries.length := by
    rw [List.toFinset_card_of_nodup hnodup, AList.keys, List.keys, List.length_map]
  rw [← hcard]
  refine Finset.card_le_card fun id hid ↦ hsub id ?_
  exact AList.mem_keys.mpr (List.mem_toFinset.mp hid)

theorem length_erase_le (table : Table) (id : ℕ) :
    (table.erase id).entries.length ≤ table.entries.length :=
  (List.kerase_sublist id table.entries).length_le

theorem length_insert {table : Table} {id : ℕ} {p : PendingQuery} (hfresh : id ∉ table) :
    (table.insert id p).entries.length = table.entries.length + 1 := by
  rw [AList.entries_insert_of_notMem hfresh, List.length_cons]

/-- Distinct candidates: the loop cannot have failed more often than the table had entries. -/
theorem attempt_le_card {counter : BitVec 32} {attempt : ℕ} {seen : Finset ℕ}
    (htried : Tried counter attempt seen) (hattempt : attempt ≤ 65536) : attempt ≤ seen.card := by
  have hinj : Set.InjOn (fun j ↦ (counter.toNat + 65536 - j) % 65536) (Finset.Icc 1 attempt) := by
    intro i hi j hj hij
    simp only [Finset.coe_Icc, Set.mem_Icc] at hi hj
    simp only at hij
    omega
  have hmaps : Set.MapsTo (fun j ↦ (counter.toNat + 65536 - j) % 65536) (Finset.Icc 1 attempt)
      seen := by
    intro j hj
    simp only [Finset.coe_Icc, Set.mem_Icc] at hj
    exact htried j hj.1 hj.2
  have hcard := Finset.card_le_card_of_injOn _ hmaps hinj
  rwa [Nat.card_Icc, Nat.add_sub_cancel] at hcard

/-- A failed attempt adds the candidate it saw. -/
theorem tried_succ {counter : BitVec 32} {attempt : ℕ} {seen : Finset ℕ}
    (htried : Tried counter attempt seen) (hattempt : attempt < 65536)
    (hcandidate : candidateId counter ∈ seen) : Tried (counter + 1) (attempt + 1) seen := by
  intro j hone hle
  rw [candidateId_eq] at hcandidate
  have hsucc : (counter + 1).toNat = (counter.toNat + 1) % 2 ^ 32 := by
    rw [BitVec.toNat_add]
    rfl
  rw [hsucc]
  by_cases hj : j = 1
  · subst hj
    have hmod : ((counter.toNat + 1) % 2 ^ 32 + 65536 - 1) % 65536 = counter.toNat % 65536 := by
      omega
    rw [hmod]
    exact hcandidate
  · have hprev := htried (j - 1) (by omega) (by omega)
    have hmod : ((counter.toNat + 1) % 2 ^ 32 + 65536 - j) % 65536 =
        (counter.toNat + 65536 - (j - 1)) % 65536 := by
      omega
    rw [hmod]
    exact hprev

/-- Losing entries, with the transmit loop where it was, keeps the capacity. -/
theorem Capacity.of_shrink {s s' : Stage} (h : Capacity s) (htx : s'.tx = s.tx)
    (hcounter : s'.nextUpstreamId = s.nextUpstreamId)
    (hsub : ∀ id ∈ s'.pending, id ∈ s.pending)
    (hlength : s'.pending.entries.length ≤ s.pending.entries.length) : Capacity s' where
  size := le_trans hlength h.size
  allocating := by
    intro attempt q hq
    obtain ⟨seen, hcard, hattempt, hseen, htried⟩ := h.allocating attempt q (htx ▸ hq)
    exact ⟨seen, hcard, hattempt, fun id hid ↦ hseen id (hsub id hid), hcounter ▸ htried⟩
  putting := by
    intro id q hq
    obtain ⟨hlt, hfresh, hroom⟩ := h.putting id q (htx ▸ hq)
    exact ⟨hlt, fun hid ↦ hfresh (hsub id hid), lt_of_le_of_lt hlength hroom⟩

/-- With the transmit loop outside the allocation only the size matters. -/
theorem Capacity.of_size {s : Stage} (hsize : s.pending.entries.length ≤ maxPending)
    (hallocating : ∀ attempt q, s.tx ≠ .allocating attempt q)
    (hputting : ∀ id q, s.tx ≠ .putting id q) : Capacity s :=
  ⟨hsize, fun attempt q hq ↦ absurd hq (hallocating attempt q),
    fun id q hq ↦ absurd hq (hputting id q)⟩

theorem length_removePending_le (s : Stage) (id : ℕ) (cause : Cause) :
    (s.removePending id cause).pending.entries.length ≤ s.pending.entries.length := by
  unfold Stage.removePending
  split
  · exact le_rfl
  · exact length_erase_le _ _

theorem capacity_txStep {c : Codec} {s s' : Stage} {event : TxEvent} (h : Capacity s)
    (hstep : txStep c s event = some s') : Capacity s' := by
  have hsize := h.size
  cases txStep_move hstep with
  | allocate htx hroom =>
    refine ⟨hsize, fun attempt q' hq ↦ ?_, by simp⟩
    obtain ⟨rfl, -⟩ := TxPc.allocating.inj hq
    refine ⟨s.pending.keys.toFinset, ?_, Nat.zero_le _, fun id hid ↦ ?_, fun j hone hzero ↦ ?_⟩
    · rw [List.toFinset_card_of_nodup s.pending.keys_nodup, AList.keys, List.keys,
        List.length_map]
      omega
    · exact List.mem_toFinset.mpr (AList.mem_keys.mp hid)
    · omega
  | collide htx hmore hmem =>
    obtain ⟨seen, hcard, -, hseen, htried⟩ := h.allocating _ _ htx
    have hlimit : seen.card < 4096 := hcard
    have hnext := tried_succ htried hmore (hseen _ hmem)
    refine ⟨hsize, fun attempt' q' hq ↦ ?_, by simp⟩
    obtain ⟨rfl, -⟩ := TxPc.allocating.inj hq
    exact ⟨seen, hcard, attempt_le_card hnext (by omega), hseen, hnext⟩
  | choose htx hmore hfresh =>
    obtain ⟨seen, hcard, -, hseen, -⟩ := h.allocating _ _ htx
    refine ⟨hsize, by simp, fun id q' hq ↦ ?_⟩
    obtain ⟨rfl, -⟩ := TxPc.putting.inj hq
    exact ⟨candidateId_lt _, hfresh, lt_of_le_of_lt (length_le_card hseen) hcard⟩
  | put htx =>
    obtain ⟨-, hfresh, hroom⟩ := h.putting _ _ htx
    refine .of_size ?_ (by simp) (by simp)
    rw [length_insert hfresh]
    exact hroom
  | fail htx => exact .of_size (le_trans (length_removePending_le _ _ _) hsize) (by simp) (by simp)
  | poll | exit | idle | take | pass | bypass | check | overLimit | exhaust | schedule | send
  | sendFails | interrupt => exact .of_size hsize (by simp) (by simp)

/-- Only the transmit loop moves itself and the counter. -/
theorem tx_frame {c : Codec} {a : Action} {s s' : Stage} (hstep : step c s a = some s')
    (hother : ∀ event, a ≠ .tx event) :
    s'.tx = s.tx ∧ s'.nextUpstreamId = s.nextUpstreamId := by
  cases a with
  | tx event => exact absurd rfl (hother event)
  | offer raw => grind [step, offer]
  | rx event =>
    cases rxStep_move hstep with
    | answer | mismatch => exact ⟨by simp, by simp⟩
    | exit | listen | closed | short | unknown | unbuilt | write | receive | timeout | ioError
    | replyFails => exact ⟨rfl, rfl⟩
  | expire timer => grind [step, expire]
  | stop => grind [step, stopStep]
  | onEngineAttached => grind [step]

/-- Every step keeps the capacity. -/
theorem capacity_step {c : Codec} {a : Action} {s s' : Stage} (h : Capacity s)
    (hstep : step c s a = some s') : Capacity s' := by
  by_cases htx : ∃ event, a = .tx event
  · obtain ⟨event, rfl⟩ := htx
    exact capacity_txStep h hstep
  · obtain ⟨hsame, hcounter⟩ := tx_frame hstep fun event ha ↦ htx ⟨event, ha⟩
    cases tableMove_step hstep with
    | keep hpending => exact h.of_shrink hsame hcounter (by simp [hpending]) (by simp [hpending])
    | put hput hsending =>
      rw [hsame, hput] at hsending
      cases hsending
    | remove _ _ hpending =>
      refine h.of_shrink hsame hcounter (fun id hid ↦ ?_) ?_
      · rw [hpending] at hid
        exact (AList.mem_erase.mp hid).2
      · rw [hpending]
        exact length_erase_le _ _
    | clear _ hpending =>
      refine h.of_shrink hsame hcounter (fun id hid ↦ ?_) ?_
      · rw [hpending] at hid
        exact absurd hid (AList.notMem_empty id)
      · rw [hpending]
        exact Nat.zero_le _

theorem capacity_started (counter : BitVec 32) : Capacity (Stage.started counter) :=
  .of_size (Nat.zero_le _) (by simp [Stage.started]) (by simp [Stage.started])

/-! ### Where each query comes from -/

/-- The query the transmit loop is handling. -/
def TxPc.query : TxPc → Option Query
  | .checking q | .allocating _ q | .putting _ q | .sending _ q | .failing _ q | .scheduling _ q =>
    some q
  | .head | .polling | .taken _ | .exited => none

/-- The serial of the packet the transmit loop has taken and not yet put into the table. -/
def TxPc.held : TxPc → Option ℕ
  | .taken o => some o.serial
  | .checking q | .allocating _ q | .putting _ q => some q.serial
  | .head | .polling | .sending _ _ | .failing _ _ | .scheduling _ _ | .exited => none

/-- The serials in the order of the queue: those that have been given an id, the one in the transmit
loop's hands, those still waiting. -/
def lineup (s : Stage) : List ℕ :=
  (s.history.assigned.map Prod.fst).reverse ++ s.tx.held.toList ++ s.inbound.map Offered.serial

/-- The query was read from a packet that `offer` accepted. -/
def Origin (c : Codec) (s : Stage) (q : Query) : Prop :=
  ∃ o ∈ s.history.offered, queryOf c o = some q

/-- The queue is first in, first out, and every query in the stage was offered. -/
structure Lineage (c : Codec) (s : Stage) : Prop where
  sorted : (lineup s).Pairwise (· < ·)
  lt_next : ∀ k ∈ lineup s, k < s.nextSerial
  offered : ∀ o ∈ s.history.offered, o.serial < s.nextSerial
  unique : (s.history.offered.map Offered.serial).Nodup
  inbound : ∀ o ∈ s.inbound, o ∈ s.history.offered
  taken : ∀ o, s.tx = .taken o → o ∈ s.history.offered
  query : ∀ q, s.tx.query = some q → Origin c s q
  entry : ∀ id p, s.pending.lookup id = some p → ∃ q, Origin c s q ∧ p = q.pendingQuery c
  matched : ∀ p datagram, s.rx = .matched p datagram → ∃ q, Origin c s q ∧ p = q.pendingQuery c

theorem queryOf_serial {c : Codec} {o : Offered} {q : Query} (h : queryOf c o = some q) :
    q.serial = o.serial := by
  simp only [queryOf, Option.bind_eq_bind, Option.bind_eq_some_iff] at h
  obtain ⟨ip, -, udp, -, payload, -, hq⟩ := h
  split_ifs at hq
  rw [← Option.some.inj hq]

/-- What a query says about the packet it was read from. -/
theorem queryOf_packet {c : Codec} {o : Offered} {q : Query} (h : queryOf c o = some q) :
    c.newPacket o.raw = some q.ip ∧ 2 ≤ q.dnsPayload.length ∧
      ∃ udp, q.ip.udp = some udp ∧ udp.payload = some q.dnsPayload := by
  simp only [queryOf, Option.bind_eq_bind, Option.bind_eq_some_iff] at h
  obtain ⟨ip, hip, udp, hudp, payload, hpayload, hq⟩ := h
  split_ifs at hq with hshort
  rw [← Option.some.inj hq]
  exact ⟨hip, not_lt.mp hshort, udp, hudp, hpayload⟩

/-- The receive loop and the timers leave the queue and its order alone. -/
theorem queue_frame {c : Codec} {a : Action} {s s' : Stage} (hstep : step c s a = some s')
    (ha : (∃ event, a = .rx event) ∨ ∃ timer, a = .expire timer) :
    s'.inbound = s.inbound ∧ s'.nextSerial = s.nextSerial ∧
      s'.history.offered = s.history.offered ∧ s'.history.assigned = s.history.assigned := by
  rcases ha with ⟨event, rfl⟩ | ⟨timer, rfl⟩
  · cases rxStep_move hstep with
    | answer | mismatch => exact ⟨by simp, by simp, by simp, by simp⟩
    | exit | listen | closed | short | unknown | unbuilt | write | receive | timeout | ioError
    | replyFails => exact ⟨rfl, rfl, rfl, rfl⟩
  · grind [step, expire]

/-- A step of the transmit loop keeps the order of the line. -/
theorem lineup_txStep {c : Codec} {s s' : Stage} {event : TxEvent}
    (hstep : txStep c s event = some s') :
    (lineup s').Sublist (lineup s) ∧ s'.nextSerial = s.nextSerial := by
  cases txStep_move hstep with
  | take htx hinbound =>
    refine ⟨?_, rfl⟩
    simp [lineup, TxPc.held, htx, hinbound]
  | pass htx | bypass htx =>
    refine ⟨?_, rfl⟩
    simp [lineup, TxPc.held, Stage.passThrough, htx]
  | check htx hquery =>
    refine ⟨?_, rfl⟩
    simp [lineup, TxPc.held, htx, queryOf_serial hquery]
  | fail htx =>
    refine ⟨?_, by simp⟩
    simp [lineup, TxPc.held, htx]
  | poll htx | exit htx | idle htx | overLimit htx | allocate htx | collide htx | choose htx
  | exhaust htx | put htx | schedule htx | send htx | sendFails htx | interrupt htx =>
    refine ⟨?_, rfl⟩
    simp [lineup, TxPc.held, htx]

/-- A step drops serials from the line or adds the next one at its end. -/
theorem lineup_step {c : Codec} {a : Action} {s s' : Stage} (hstep : step c s a = some s') :
    (lineup s').Sublist (lineup s) ∧ s'.nextSerial = s.nextSerial ∨
      lineup s' = lineup s ++ [s.nextSerial] ∧ s'.nextSerial = s.nextSerial + 1 := by
  cases a with
  | offer raw =>
    obtain rfl := Option.some.inj hstep
    unfold offer
    split_ifs
    · exact Or.inl ⟨List.Sublist.refl _, rfl⟩
    · exact Or.inl ⟨List.Sublist.refl _, rfl⟩
    · exact Or.inr ⟨by simp [lineup], rfl⟩
  | tx event =>
    exact Or.inl (lineup_txStep hstep)
  | rx event =>
    obtain ⟨hinbound, hserial, -, hassigned⟩ := queue_frame hstep (Or.inl ⟨event, rfl⟩)
    have htx := (tx_frame hstep (by simp)).1
    exact Or.inl ⟨by simp [lineup, hinbound, hassigned, htx], hserial⟩
  | expire timer =>
    obtain ⟨hinbound, hserial, -, hassigned⟩ := queue_frame hstep (Or.inr ⟨timer, rfl⟩)
    have htx := (tx_frame hstep (by simp)).1
    exact Or.inl ⟨by simp [lineup, hinbound, hassigned, htx], hserial⟩
  | stop =>
    left
    simp only [step, stopStep] at hstep
    split at hstep
    case h_5 =>
      obtain rfl := Option.some.inj hstep
      refine ⟨?_, rfl⟩
      simp [lineup]
    all_goals grind [lineup]
  | onEngineAttached =>
    left
    obtain rfl := Option.some.inj hstep
    exact ⟨List.Sublist.refl _, rfl⟩

/-- What a step of the receive loop does to the replies. -/
inductive ReplyMove (s : Stage) (s' : Stage) : Prop
  | keep (hreplies : s'.history.replies = s.history.replies)
      (hrx : ∀ p datagram, s'.rx = .matched p datagram → s.rx = .matched p datagram)
  | answer {p : PendingQuery} {datagram : List UInt8} {cause : Cause}
      (hlength : 2 ≤ (receivedBytes datagram).length)
      (hlookup : s.pending.lookup (transactionId (receivedBytes datagram)) = some p)
      (hrx' : s'.rx = .matched p datagram) (hreplies : s'.history.replies = s.history.replies)
      (hdepartures : s'.history.departures = ⟨p.serial, cause⟩ :: s.history.departures)
  | write {p : PendingQuery} {datagram : List UInt8} {packet : IpPacket}
      (hrx : s.rx = .matched p datagram) (hrx' : s'.rx = .head)
      (hpacket : rebuild p.request
        (writeTransactionId (receivedBytes datagram) p.appTransactionId) = some packet)
      (hreplies : s'.history.replies = ⟨p.serial, datagram, packet⟩ :: s.history.replies)

theorem replyMove_rxStep {c : Codec} {s s' : Stage} {event : RxEvent}
    (hstep : rxStep c s event = some s') : ReplyMove s s' := by
  cases rxStep_move hstep with
  | @answer datagram answers q hrx hlong hlookup =>
    have hdepartures : (s.removePending (transactionId (receivedBytes datagram))
        (.response answers)).history.departures =
          ⟨q.serial, .response answers⟩ :: s.history.departures := by
      simp [Stage.removePending, hlookup]
    exact .answer (not_lt.mp hlong) hlookup rfl (by simp) hdepartures
  | mismatch => exact .keep (by simp) (by simp)
  | write hrx hpacket => exact .write hrx rfl hpacket rfl
  | exit | listen | closed | short | unknown | unbuilt | receive | timeout | ioError
  | replyFails => exact .keep rfl (by simp)

/-- Only the receive loop moves itself on and writes replies. -/
theorem rx_frame {c : Codec} {a : Action} {s s' : Stage} (hstep : step c s a = some s')
    (hother : ∀ event, a ≠ .rx event) :
    s'.rx = s.rx ∧ s'.history.replies = s.history.replies := by
  cases a with
  | offer raw =>
    obtain rfl := Option.some.inj hstep
    unfold offer
    split_ifs <;> exact ⟨rfl, rfl⟩
  | tx event =>
    cases txStep_move hstep with
    | fail => exact ⟨by simp, by simp⟩
    | poll | exit | idle | take | pass | bypass | check | overLimit | allocate | collide | choose
    | exhaust | put | schedule | send | sendFails | interrupt => exact ⟨rfl, rfl⟩
  | rx event => exact absurd rfl (hother event)
  | expire timer => grind [step, expire]
  | stop => grind [step, stopStep]
  | onEngineAttached =>
    obtain rfl := Option.some.inj hstep
    exact ⟨rfl, rfl⟩

/-- Every step makes one of the moves on the replies. -/
theorem replyMove_step {c : Codec} {a : Action} {s s' : Stage} (hstep : step c s a = some s') :
    ReplyMove s s' := by
  by_cases hrx : ∃ event, a = .rx event
  · obtain ⟨event, rfl⟩ := hrx
    exact replyMove_rxStep hstep
  · obtain ⟨hsame, hreplies⟩ := rx_frame hstep (not_exists.mp hrx)
    exact .keep hreplies fun p datagram hmatched ↦ hsame.symm.trans hmatched

/-- The record of accepted packets changes only by the packet `offer` accepts. -/
theorem offered_step {c : Codec} {a : Action} {s s' : Stage} (hstep : step c s a = some s') :
    s'.history.offered = s.history.offered ∧ s'.nextSerial = s.nextSerial ∨
      ∃ raw, s'.history.offered = ⟨s.nextSerial, raw⟩ :: s.history.offered ∧
        s'.nextSerial = s.nextSerial + 1 := by
  cases a with
  | offer raw =>
    obtain rfl := Option.some.inj hstep
    unfold offer
    split_ifs
    · exact Or.inl ⟨rfl, rfl⟩
    · exact Or.inl ⟨rfl, rfl⟩
    · exact Or.inr ⟨raw, rfl, rfl⟩
  | tx event =>
    left
    cases txStep_move hstep with
    | fail => exact ⟨by simp, by simp⟩
    | poll | exit | idle | take | pass | bypass | check | overLimit | allocate | collide | choose
    | exhaust | put | schedule | send | sendFails | interrupt => exact ⟨rfl, rfl⟩
  | rx event =>
    obtain ⟨-, hserial, hoffered, -⟩ := queue_frame hstep (Or.inl ⟨event, rfl⟩)
    exact Or.inl ⟨hoffered, hserial⟩
  | expire timer =>
    obtain ⟨-, hserial, hoffered, -⟩ := queue_frame hstep (Or.inr ⟨timer, rfl⟩)
    exact Or.inl ⟨hoffered, hserial⟩
  | stop =>
    left
    grind [step, stopStep]
  | onEngineAttached =>
    left
    grind [step]

theorem offered_mono {c : Codec} {a : Action} {s s' : Stage} (hstep : step c s a = some s')
    {o : Offered} (ho : o ∈ s.history.offered) : o ∈ s'.history.offered := by
  rcases offered_step hstep with ⟨hoffered, -⟩ | ⟨raw, hoffered, -⟩
  · rwa [hoffered]
  · rw [hoffered]
    exact List.mem_cons_of_mem _ ho

theorem Origin.step {c : Codec} {a : Action} {s s' : Stage} {q : Query} (h : Origin c s q)
    (hstep : step c s a = some s') : Origin c s' q := by
  obtain ⟨o, ho, hq⟩ := h
  exact ⟨o, offered_mono hstep ho, hq⟩

/-- The lookup after a removal. -/
theorem lookup_erase_some {table : Table} {id other : ℕ} {p : PendingQuery}
    (h : (table.erase id).lookup other = some p) : other ≠ id ∧ table.lookup other = some p := by
  by_cases heq : other = id
  · subst heq
    rw [AList.lookup_erase] at h
    cases h
  · rw [AList.lookup_erase_ne heq] at h
    exact ⟨heq, h⟩

/-- The lookup after an insertion. -/
theorem lookup_insert_some {table : Table} {id other : ℕ} {new p : PendingQuery}
    (h : (table.insert id new).lookup other = some p) :
    other = id ∧ p = new ∨ other ≠ id ∧ table.lookup other = some p := by
  by_cases heq : other = id
  · subst heq
    rw [AList.lookup_insert] at h
    exact Or.inl ⟨rfl, (Option.some.inj h).symm⟩
  · rw [AList.lookup_insert_ne heq] at h
    exact Or.inr ⟨heq, h⟩

/-- The transmit loop's own part of the lineage: a packet is taken from the queue and a query is
read from it. -/
theorem lineage_txStep {c : Codec} {s s' : Stage} {event : TxEvent} (h : Lineage c s)
    (hstep : txStep c s event = some s') :
    (∀ o ∈ s'.inbound, o ∈ s.history.offered) ∧
      (∀ o, s'.tx = .taken o → o ∈ s.history.offered) ∧
      ∀ q, s'.tx.query = some q → Origin c s q := by
  have hquery := h.query
  cases txStep_move hstep with
  | @take o rest htx hinbound =>
    have hqueue : ∀ o' ∈ o :: rest, o' ∈ s.history.offered := by
      rw [← hinbound]
      exact h.inbound
    refine ⟨fun o' ho' ↦ hqueue o' (List.mem_cons_of_mem _ ho'), ?_, nofun⟩
    rintro o' ⟨⟩
    exact hqueue o List.mem_cons_self
  | check htx hread =>
    refine ⟨h.inbound, nofun, ?_⟩
    rintro q ⟨⟩
    exact ⟨_, h.taken _ htx, hread⟩
  | allocate htx | collide htx | choose htx | put htx | send htx | sendFails htx =>
    refine ⟨h.inbound, nofun, ?_⟩
    rintro q ⟨⟩
    exact hquery _ (by rw [htx]; rfl)
  | fail => exact ⟨by simpa using h.inbound, nofun, nofun⟩
  | poll | exit | idle | pass | bypass | overLimit | exhaust | schedule | interrupt =>
    exact ⟨h.inbound, nofun, nofun⟩

/-- Every step keeps the lineage. -/
theorem lineage_step {c : Codec} {a : Action} {s s' : Stage} (h : Lineage c s)
    (hstep : step c s a = some s') : Lineage c s' := by
  have hlocal : (∀ o ∈ s'.inbound, o ∈ s'.history.offered) ∧
      (∀ o, s'.tx = .taken o → o ∈ s'.history.offered) ∧
      ∀ q, s'.tx.query = some q → Origin c s' q := by
    by_cases htx : ∃ event, a = .tx event
    · obtain ⟨event, rfl⟩ := htx
      have hpart : (∀ o ∈ s'.inbound, o ∈ s.history.offered) ∧
          (∀ o, s'.tx = .taken o → o ∈ s.history.offered) ∧
          ∀ q, s'.tx.query = some q → Origin c s q := lineage_txStep h hstep
      exact ⟨fun o ho ↦ offered_mono hstep (hpart.1 o ho),
        fun o ho ↦ offered_mono hstep (hpart.2.1 o ho), fun q hq ↦ (hpart.2.2 q hq).step hstep⟩
    · have hsame := (tx_frame hstep fun event ha ↦ htx ⟨event, ha⟩).1
      refine ⟨?_, fun o ho ↦ offered_mono hstep (h.taken o (hsame ▸ ho)),
        fun q hq ↦ (h.query q (hsame ▸ hq)).step hstep⟩
      have hinbound := h.inbound
      cases a with
      | tx event => exact absurd ⟨event, rfl⟩ htx
      | offer raw => grind [step, offer]
      | rx event =>
        obtain ⟨hqueue, -, hoffered, -⟩ := queue_frame hstep (Or.inl ⟨event, rfl⟩)
        rwa [hqueue, hoffered]
      | expire timer =>
        obtain ⟨hqueue, -, hoffered, -⟩ := queue_frame hstep (Or.inr ⟨timer, rfl⟩)
        rwa [hqueue, hoffered]
      | stop => grind [step, stopStep]
      | onEngineAttached => grind [step]
  exact
    { sorted := by
        rcases lineup_step hstep with ⟨hsub, -⟩ | ⟨hline, -⟩
        · exact h.sorted.sublist hsub
        · rw [hline, List.pairwise_append]
          exact ⟨h.sorted, List.pairwise_singleton _ _, fun k hk next hnext ↦
            List.mem_singleton.mp hnext ▸ h.lt_next k hk⟩
      lt_next := by
        intro k hk
        rcases lineup_step hstep with ⟨hsub, hserial⟩ | ⟨hline, hserial⟩
        · rw [hserial]
          exact h.lt_next k (hsub.subset hk)
        · rw [hserial]
          rw [hline, List.mem_append, List.mem_singleton] at hk
          rcases hk with hk | rfl
          · exact Nat.lt_succ_of_lt (h.lt_next k hk)
          · exact Nat.lt_succ_self _
      offered := by
        intro o ho
        rcases offered_step hstep with ⟨hoffered, hserial⟩ | ⟨raw, hoffered, hserial⟩
        · rw [hserial]
          exact h.offered o (hoffered ▸ ho)
        · rw [hserial]
          rw [hoffered, List.mem_cons] at ho
          rcases ho with rfl | ho
          · exact Nat.lt_succ_self _
          · exact Nat.lt_succ_of_lt (h.offered o ho)
      unique := by
        rcases offered_step hstep with ⟨hoffered, -⟩ | ⟨raw, hoffered, -⟩
        · rw [hoffered]
          exact h.unique
        · rw [hoffered, List.map_cons, List.nodup_cons]
          refine ⟨fun hmem ↦ ?_, h.unique⟩
          obtain ⟨o, ho, hsame⟩ := List.mem_map.mp hmem
          exact absurd (h.offered o ho) (by rw [hsame]; exact lt_irrefl _)
      inbound := hlocal.1
      taken := hlocal.2.1
      query := hlocal.2.2
      entry := by
        intro id p hp
        have hold : s.pending.lookup id = some p → ∃ q, Origin c s' q ∧ p = q.pendingQuery c := by
          intro hlookup
          obtain ⟨q, horigin, hq⟩ := h.entry id p hlookup
          exact ⟨q, horigin.step hstep, hq⟩
        cases tableMove_step hstep with
        | keep hpending => exact hold (hpending ▸ hp)
        | put htx _ hpending =>
          rw [hpending] at hp
          rcases lookup_insert_some hp with ⟨-, rfl⟩ | ⟨-, hlookup⟩
          · exact ⟨_, (h.query _ (by rw [htx]; rfl)).step hstep, rfl⟩
          · exact hold hlookup
        | remove _ _ hpending =>
          rw [hpending] at hp
          exact hold (lookup_erase_some hp).2
        | clear _ hpending =>
          rw [hpending, AList.lookup_empty] at hp
          cases hp
      matched := by
        intro p datagram hp
        cases replyMove_step hstep with
        | keep _ hrx =>
          obtain ⟨q, horigin, hq⟩ := h.matched p datagram (hrx p datagram hp)
          exact ⟨q, horigin.step hstep, hq⟩
        | answer _ hlookup hrx' =>
          rw [hrx'] at hp
          obtain ⟨rfl, -⟩ := RxPc.matched.inj hp
          obtain ⟨q, horigin, hq⟩ := h.entry _ _ hlookup
          exact ⟨q, horigin.step hstep, hq⟩
        | write _ hrx' =>
          rw [hrx'] at hp
          cases hp }

theorem lineage_started (c : Codec) (counter : BitVec 32) : Lineage c (Stage.started counter) := by
  constructor <;> simp [Stage.started, lineup, TxPc.held, TxPc.query]

/-! ### The table against the record -/

/-- The query has left the table. -/
def Departed (s : Stage) (serial : ℕ) : Prop := ∃ d ∈ s.history.departures, d.serial = serial

/-- The query was given this id and has not left the table. -/
def InFlight (s : Stage) (serial id : ℕ) : Prop :=
  (serial, id) ∈ s.history.assigned ∧ ¬ Departed s serial

/-- The table holds exactly the queries in flight, each under its own id. -/
structure Ledger (s : Stage) : Prop where
  entry : ∀ id p, s.pending.lookup id = some p → InFlight s p.serial id
  inFlight : ∀ serial id, InFlight s serial id →
    ∃ p, s.pending.lookup id = some p ∧ p.serial = serial
  departed : ∀ serial, Departed s serial → ∃ id, (serial, id) ∈ s.history.assigned

/-- A serial is given an id once. -/
theorem Lineage.assigned_unique {c : Codec} {s : Stage} (h : Lineage c s) {serial id id' : ℕ}
    (hid : (serial, id) ∈ s.history.assigned) (hid' : (serial, id') ∈ s.history.assigned) :
    id = id' := by
  have hsorted : ((s.history.assigned.map Prod.fst).reverse).Pairwise (· < ·) :=
    h.sorted.sublist (by
      unfold lineup
      rw [List.append_assoc]
      exact List.sublist_append_left _ _)
  have hnodup : (s.history.assigned.map Prod.fst).Nodup :=
    List.nodup_reverse.mp (hsorted.imp fun hlt ↦ ne_of_lt hlt)
  have hpair := List.inj_on_of_nodup_map hnodup hid hid' rfl
  exact (Prod.mk.inj hpair).2

/-- The serial in the transmit loop's hands is newer than every serial that has an id. -/
theorem Lineage.assigned_lt {c : Codec} {s : Stage} (h : Lineage c s) {id id' : ℕ} {q : Query}
    {serial : ℕ} (htx : s.tx = .putting id q) (hassigned : (serial, id') ∈ s.history.assigned) :
    serial < q.serial := by
  have hsorted := h.sorted
  unfold lineup at hsorted
  rw [List.append_assoc, List.pairwise_append] at hsorted
  refine hsorted.2.2 serial ?_ q.serial ?_
  · exact List.mem_reverse.mpr (List.mem_map.mpr ⟨_, hassigned, rfl⟩)
  · simp [htx, TxPc.held]

/-- A put under a free id. -/
theorem ledger_put {c : Codec} {s s' : Stage} {id : ℕ} {q : Query} (h : Ledger s)
    (hlineage : Lineage c s) (hfresh : id ∉ s.pending) (htx : s.tx = .putting id q)
    (hpending : s'.pending = s.pending.insert id (q.pendingQuery c))
    (hassigned : s'.history.assigned = (q.serial, id) :: s.history.assigned)
    (hdepartures : s'.history.departures = s.history.departures) : Ledger s' := by
  have hdeparted : ∀ serial, Departed s' serial ↔ Departed s serial := by
    intro serial
    simp only [Departed, hdepartures]
  have hnew : ¬ Departed s' q.serial := by
    rw [hdeparted]
    intro hgone
    obtain ⟨id', hid'⟩ := h.departed _ hgone
    exact absurd (hlineage.assigned_lt htx hid') (lt_irrefl _)
  have hold : ∀ serial id', InFlight s serial id' → InFlight s' serial id' := by
    rintro serial id' ⟨hmem, hgone⟩
    exact ⟨by rw [hassigned]; exact List.mem_cons_of_mem _ hmem, by rwa [hdeparted]⟩
  refine ⟨fun id' p hp ↦ ?_, fun serial id' hflight ↦ ?_, fun serial hgone ↦ ?_⟩
  · rw [hpending] at hp
    rcases lookup_insert_some hp with ⟨rfl, rfl⟩ | ⟨-, hlookup⟩
    · exact ⟨by rw [hassigned]; exact List.mem_cons_self, hnew⟩
    · exact hold _ _ (h.entry id' p hlookup)
  · obtain ⟨hmem, hgone⟩ := hflight
    rw [hassigned, List.mem_cons] at hmem
    rcases hmem with hmem | hmem
    · obtain ⟨rfl, rfl⟩ := Prod.mk.inj hmem
      exact ⟨_, by rw [hpending]; exact AList.lookup_insert _, rfl⟩
    · obtain ⟨p, hlookup, hserial⟩ := h.inFlight serial id' ⟨hmem, by rwa [← hdeparted]⟩
      have hne : id' ≠ id := by
        rintro rfl
        exact hfresh (AList.lookup_isSome.mp (by rw [hlookup]; rfl))
      exact ⟨p, by rw [hpending, AList.lookup_insert_ne hne]; exact hlookup, hserial⟩
  · obtain ⟨id', hid'⟩ := h.departed serial ((hdeparted serial).mp hgone)
    exact ⟨id', by rw [hassigned]; exact List.mem_cons_of_mem _ hid'⟩

/-- A removal, whatever its cause. -/
theorem ledger_remove {c : Codec} {s s' : Stage} {id : ℕ} {p : PendingQuery} {cause : Cause}
    (h : Ledger s) (hlineage : Lineage c s) (hlookup : s.pending.lookup id = some p)
    (hpending : s'.pending = s.pending.erase id)
    (hassigned : s'.history.assigned = s.history.assigned)
    (hdepartures : s'.history.departures = ⟨p.serial, cause⟩ :: s.history.departures) :
    Ledger s' := by
  have hflight := h.entry id p hlookup
  have hdeparted : ∀ serial, Departed s' serial ↔ serial = p.serial ∨ Departed s serial := by
    intro serial
    simp only [Departed, hdepartures, List.mem_cons]
    constructor
    · rintro ⟨d, rfl | hd, rfl⟩
      · exact Or.inl rfl
      · exact Or.inr ⟨d, hd, rfl⟩
    · rintro (rfl | ⟨d, hd, rfl⟩)
      · exact ⟨_, Or.inl rfl, rfl⟩
      · exact ⟨d, Or.inr hd, rfl⟩
  refine ⟨fun id' p' hp' ↦ ?_, fun serial id' hflight' ↦ ?_, fun serial hgone ↦ ?_⟩
  · rw [hpending] at hp'
    obtain ⟨hne, hlookup'⟩ := lookup_erase_some hp'
    obtain ⟨hmem, hgone⟩ := h.entry id' p' hlookup'
    refine ⟨by rw [hassigned]; exact hmem, ?_⟩
    rw [hdeparted]
    rintro (hsame | hold)
    · rw [hsame] at hmem
      exact hne (hlineage.assigned_unique hmem hflight.1)
    · exact hgone hold
  · obtain ⟨hmem, hgone⟩ := hflight'
    rw [hassigned] at hmem
    rw [hdeparted, not_or] at hgone
    obtain ⟨p', hlookup', hserial⟩ := h.inFlight serial id' ⟨hmem, hgone.2⟩
    have hne : id' ≠ id := by
      rintro rfl
      rw [hlookup] at hlookup'
      exact hgone.1 (by rw [← hserial, Option.some.inj hlookup'])
    exact ⟨p', by rw [hpending, AList.lookup_erase_ne hne]; exact hlookup', hserial⟩
  · rw [hdeparted] at hgone
    rw [hassigned]
    rcases hgone with rfl | hgone
    · exact ⟨id, hflight.1⟩
    · exact h.departed serial hgone

/-- `pending.clear`. -/
theorem ledger_clear {s s' : Stage} (h : Ledger s) (hpending : s'.pending = ∅)
    (hassigned : s'.history.assigned = s.history.assigned)
    (hdepartures : s'.history.departures =
      s.pending.entries.map (fun e ↦ ⟨e.2.serial, .stop⟩) ++ s.history.departures) : Ledger s' := by
  have hdeparted : ∀ serial, Departed s' serial ↔
      (∃ e ∈ s.pending.entries, e.2.serial = serial) ∨ Departed s serial := by
    intro serial
    simp only [Departed, hdepartures, List.mem_append, List.mem_map]
    constructor
    · rintro ⟨d, ⟨e, he, rfl⟩ | hd, rfl⟩
      · exact Or.inl ⟨e, he, rfl⟩
      · exact Or.inr ⟨d, hd, rfl⟩
    · rintro (⟨e, he, rfl⟩ | ⟨d, hd, rfl⟩)
      · exact ⟨_, Or.inl ⟨e, he, rfl⟩, rfl⟩
      · exact ⟨d, Or.inr hd, rfl⟩
  refine ⟨fun id p hp ↦ ?_, fun serial id hflight ↦ ?_, fun serial hgone ↦ ?_⟩
  · rw [hpending, AList.lookup_empty] at hp
    cases hp
  · obtain ⟨hmem, hgone⟩ := hflight
    rw [hassigned] at hmem
    rw [hdeparted, not_or] at hgone
    obtain ⟨p, hlookup, hserial⟩ := h.inFlight serial id ⟨hmem, hgone.2⟩
    exact absurd ⟨⟨id, p⟩, AList.mem_lookup_iff.mp hlookup, hserial⟩ hgone.1
  · rw [hdeparted] at hgone
    rw [hassigned]
    rcases hgone with ⟨⟨id, p⟩, he, rfl⟩ | hgone
    · exact ⟨id, (h.entry id p (AList.mem_lookup_iff.mpr he)).1⟩
    · exact h.departed serial hgone

/-- Every step keeps the ledger. -/
theorem ledger_step {c : Codec} {a : Action} {s s' : Stage} (h : Ledger s)
    (hlineage : Lineage c s) (hcapacity : Capacity s) (hstep : step c s a = some s') :
    Ledger s' := by
  cases tableMove_step hstep with
  | keep hpending hassigned hdepartures =>
    obtain ⟨hentry, hinFlight, hdeparted⟩ := h
    constructor
    · simpa only [hpending, InFlight, hassigned, Departed, hdepartures] using hentry
    · simpa only [hpending, InFlight, hassigned, Departed, hdepartures] using hinFlight
    · simpa only [hassigned, Departed, hdepartures] using hdeparted
  | put htx _ hpending hassigned hdepartures =>
    exact ledger_put h hlineage (hcapacity.putting _ _ htx).2.1 htx hpending hassigned hdepartures
  | remove _ hlookup hpending hassigned hdepartures =>
    exact ledger_remove h hlineage hlookup hpending hassigned hdepartures
  | clear _ hpending hassigned hdepartures => exact ledger_clear h hpending hassigned hdepartures

theorem ledger_started (counter : BitVec 32) : Ledger (Stage.started counter) := by
  constructor <;> simp [Stage.started, InFlight, Departed]

/-! ### The replies -/

/-- The packet goes back to where this query came from, under the query's own transaction id and
with the rest of a response payload. -/
def Query.RepliedBy (q : Query) (packet : IpPacket) (payload : List UInt8) : Prop :=
  ∃ udp, q.ip.udp = some udp ∧ packet.srcAddr = q.ip.dstAddr ∧ packet.dstAddr = q.ip.srcAddr ∧
    packet.udp = some ⟨udp.dstPort, udp.srcPort, some (q.dnsPayload.take 2 ++ payload.drop 2)⟩

/-- A query is answered after it has left the table, once, and from its own packet. -/
structure Answering (c : Codec) (s : Stage) : Prop where
  matched : ∀ p datagram, s.rx = .matched p datagram → Departed s p.serial ∧
    2 ≤ (receivedBytes datagram).length ∧ ∀ r ∈ s.history.replies, r.serial ≠ p.serial
  departed : ∀ r ∈ s.history.replies, Departed s r.serial
  once : (s.history.replies.map Reply.serial).Nodup
  answers : ∀ r ∈ s.history.replies, ∃ q, Origin c s q ∧ q.serial = r.serial ∧
    q.RepliedBy r.packet (receivedBytes r.datagram)

/-- What `rebuild` makes of an entry and a response. -/
theorem repliedBy_rebuild {c : Codec} {s : Stage} {q : Query} {response : List UInt8}
    {packet : IpPacket} (horigin : Origin c s q) (hlength : 2 ≤ response.length)
    (hpacket : rebuild (q.pendingQuery c).request
      (writeTransactionId response (q.pendingQuery c).appTransactionId) = some packet) :
    q.RepliedBy packet response := by
  obtain ⟨o, -, hq⟩ := horigin
  obtain ⟨-, hquery, udp, hudp, -⟩ := queryOf_packet hq
  simp only [rebuild, Query.pendingQuery, hudp, Option.map_some, Option.some.injEq] at hpacket
  rw [← hpacket]
  refine ⟨udp, hudp, rfl, rfl, ?_⟩
  rw [writeTransactionId_transactionId hlength hquery]

theorem Departed.step {c : Codec} {a : Action} {s s' : Stage} {serial : ℕ} (h : Departed s serial)
    (hstep : step c s a = some s') : Departed s' serial := by
  obtain ⟨d, hd, hserial⟩ := h
  refine ⟨d, ?_, hserial⟩
  cases tableMove_step hstep with
  | keep _ _ hdepartures => rwa [hdepartures]
  | put _ _ _ _ hdepartures => rwa [hdepartures]
  | remove _ _ _ _ hdepartures =>
    rw [hdepartures]
    exact List.mem_cons_of_mem _ hd
  | clear _ _ _ hdepartures =>
    rw [hdepartures]
    exact List.mem_append_right _ hd

/-- Every step keeps the record of replies right. -/
theorem answering_step {c : Codec} {a : Action} {s s' : Stage} (h : Answering c s)
    (hlineage : Lineage c s) (hledger : Ledger s) (hstep : step c s a = some s') :
    Answering c s' := by
  have hanswers : ∀ r ∈ s.history.replies, ∃ q, Origin c s' q ∧ q.serial = r.serial ∧
      q.RepliedBy r.packet (receivedBytes r.datagram) := by
    intro r hr
    obtain ⟨q, horigin, hserial, hreplied⟩ := h.answers r hr
    exact ⟨q, horigin.step hstep, hserial, hreplied⟩
  cases replyMove_step hstep with
  | keep hreplies hrx =>
    refine ⟨fun p datagram hp ↦ ?_, ?_, ?_, ?_⟩
    · obtain ⟨hgone, hlength, hfresh⟩ := h.matched p datagram (hrx p datagram hp)
      exact ⟨hgone.step hstep, hlength, by rwa [hreplies]⟩
    · rw [hreplies]
      exact fun r hr ↦ (h.departed r hr).step hstep
    · rw [hreplies]
      exact h.once
    · rw [hreplies]
      exact hanswers
  | answer hlength hlookup hrx' hreplies hdepartures =>
    refine ⟨fun p datagram hp ↦ ?_, ?_, ?_, ?_⟩
    · rw [hrx'] at hp
      obtain ⟨rfl, rfl⟩ := RxPc.matched.inj hp
      refine ⟨⟨_, by rw [hdepartures]; exact List.mem_cons_self, rfl⟩, hlength, ?_⟩
      rw [hreplies]
      intro r hr hsame
      exact (hledger.entry _ _ hlookup).2 (hsame ▸ h.departed r hr)
    · rw [hreplies]
      exact fun r hr ↦ (h.departed r hr).step hstep
    · rw [hreplies]
      exact h.once
    · rw [hreplies]
      exact hanswers
  | @write p datagram packet hrx hrx' hpacket hreplies =>
    obtain ⟨hgone, hlength, hfresh⟩ := h.matched p datagram hrx
    refine ⟨fun p' datagram' hp ↦ ?_, ?_, ?_, ?_⟩
    · rw [hrx'] at hp
      cases hp
    · rw [hreplies]
      intro r hr
      rcases List.mem_cons.mp hr with rfl | hr
      · exact hgone.step hstep
      · exact (h.departed r hr).step hstep
    · rw [hreplies, List.map_cons, List.nodup_cons]
      refine ⟨fun hmem ↦ ?_, h.once⟩
      obtain ⟨r, hr, hsame⟩ := List.mem_map.mp hmem
      exact hfresh r hr hsame
    · rw [hreplies]
      intro r hr
      rcases List.mem_cons.mp hr with rfl | hr
      · obtain ⟨q, horigin, rfl⟩ := hlineage.matched p datagram hrx
        exact ⟨q, horigin.step hstep, rfl, repliedBy_rebuild horigin hlength hpacket⟩
      · exact hanswers r hr

theorem answering_started (c : Codec) (counter : BitVec 32) :
    Answering c (Stage.started counter) := by
  constructor <;> simp [Stage.started]

/-! ### Every reachable state -/

/-- The invariant of the stage. -/
structure StageOk (c : Codec) (s : Stage) : Prop where
  capacity : Capacity s
  lineage : Lineage c s
  ledger : Ledger s
  answering : Answering c s

theorem stageOk_step {c : Codec} {a : Action} {s s' : Stage} (h : StageOk c s)
    (hstep : step c s a = some s') : StageOk c s' :=
  ⟨capacity_step h.capacity hstep, lineage_step h.lineage hstep,
    ledger_step h.ledger h.lineage h.capacity hstep,
    answering_step h.answering h.lineage h.ledger hstep⟩

theorem stageOk_of_reaches {c : Codec} {admits : Stage → Action → Prop} {counter : BitVec 32}
    {s : Stage} (hreach : Reaches (step c) admits (Stage.started counter) s) : StageOk c s :=
  hreach.invariant (StageOk c) (fun _ _ _ h _ hstep ↦ stageOk_step h hstep)
    ⟨capacity_started counter, lineage_started c counter, ledger_started counter,
      answering_started c counter⟩

/-- The allocation loop, left to itself, finds an id that is not in the table within as many
attempts as the table may have entries. -/
theorem allocate_finds (c : Codec) {s : Stage} {attempt : ℕ} {q : Query} (h : Capacity s)
    (htx : s.tx = .allocating attempt q) :
    ∃ n ≤ maxPending - attempt, ∃ s' id,
      run (step c) s (List.replicate n (.tx .advance)) = some s' ∧
      s'.tx = .putting id q ∧ id ∉ s'.pending := by
  obtain ⟨seen, hcard, hattempt, -⟩ := h.allocating attempt q htx
  have hlimit : seen.card < 4096 := hcard
  have hmore : attempt < 0x10000 := by omega
  induction hleft : maxPending - attempt generalizing s attempt seen with
  | zero => exact absurd hleft (Nat.sub_ne_zero_of_lt (lt_of_le_of_lt hattempt hcard))
  | succ left ih =>
    obtain ⟨next, hnext⟩ : ∃ next, txAdvance c s = some next := by
      simp only [txAdvance, htx, if_pos hmore]
      exact ⟨_, rfl⟩
    have hcapacity := capacity_txStep h (show txStep c s .advance = some next from hnext)
    simp only [txAdvance, htx, if_pos hmore, Option.some.injEq] at hnext
    have hstep : step c s (.tx .advance) = some next := by
      simp only [step, txStep, txAdvance, htx, if_pos hmore, hnext]
    by_cases hmem : candidateId s.nextUpstreamId ∈ s.pending
    · rw [if_pos hmem] at hnext
      have htx' : next.tx = .allocating (attempt + 1) q := by rw [← hnext]
      obtain ⟨seen', hcard', hattempt', -⟩ := hcapacity.allocating _ q htx'
      have hlimit' : seen'.card < 4096 := hcard'
      obtain ⟨n, hn, s', id, hrun, hput, hfresh⟩ :=
        ih hcapacity htx' seen' hcard' hattempt' hlimit' (by omega) (by omega)
      refine ⟨n + 1, by omega, s', id, ?_, hput, hfresh⟩
      rw [List.replicate_succ, run_cons, hstep]
      exact hrun
    · rw [if_neg hmem] at hnext
      have hput : next.tx = .putting (candidateId s.nextUpstreamId) q := by rw [← hnext]
      refine ⟨1, by omega, next, _, ?_, hput, (hcapacity.putting _ q hput).2.1⟩
      rw [List.replicate_one, run_cons, hstep]
      rfl

/-! ### The promise -/

/-- The reply goes back to the app that offered this packet (addresses and ports swapped), under the
app's own transaction id, and its payload is the resolver's in every byte after the first two. -/
def Faithful (c : Codec) (o : Offered) (r : Reply) : Prop :=
  ∃ ip udp dnsPayload, c.newPacket o.raw = some ip ∧ ip.udp = some udp ∧
    udp.payload = some dnsPayload ∧ r.packet.srcAddr = ip.dstAddr ∧ r.packet.dstAddr = ip.srcAddr ∧
    r.packet.udp =
      some ⟨udp.dstPort, udp.srcPort, some (dnsPayload.take 2 ++ r.datagram.drop 2)⟩

/-- What the stage promises of a state: ids in flight are pairwise distinct, the table keeps its
limit, the allocation of an id stays within that limit and, left to itself, ends with an id that is
not in flight, an accepted query is answered at most once, and every reply is faithful. -/
structure StageSound (c : Codec) (s : Stage) : Prop where
  distinct : ∀ serial serial' id, InFlight s serial id → InFlight s serial' id → serial = serial'
  size : s.pending.entries.length ≤ maxPending
  attempts : ∀ attempt q, s.tx = .allocating attempt q → attempt < maxPending
  finds : ∀ attempt q, s.tx = .allocating attempt q → ∃ n ≤ maxPending, ∃ s' id,
    run (step c) s (List.replicate n (.tx .advance)) = some s' ∧ s'.tx = .putting id q ∧
      ∀ serial, ¬ InFlight s' serial id
  allocated : ∀ id q, s.tx = .putting id q → id < 65536 ∧ ∀ serial, ¬ InFlight s serial id
  once : (s.history.replies.map Reply.serial).Nodup
  faithful : ∀ r ∈ s.history.replies, ∃ o ∈ s.history.offered, o.serial = r.serial ∧ Faithful c o r

theorem Ledger.not_inFlight {s : Stage} (h : Ledger s) {id : ℕ} (hfresh : id ∉ s.pending)
    (serial : ℕ) : ¬ InFlight s serial id := by
  intro hflight
  obtain ⟨p, hlookup, -⟩ := h.inFlight serial id hflight
  exact hfresh (AList.lookup_isSome.mp (by rw [hlookup]; rfl))

theorem stageOk_run {c : Codec} {s s' : Stage} {actions : List Action} (h : StageOk c s)
    (hrun : run (step c) s actions = some s') : StageOk c s' := by
  induction actions generalizing s with
  | nil =>
    rw [run_nil, Option.some.injEq] at hrun
    exact hrun ▸ h
  | cons a rest ih =>
    rw [run_cons, Option.bind_eq_some_iff] at hrun
    obtain ⟨next, hnext, hrest⟩ := hrun
    exact ih (stageOk_step h hnext) hrest

/-- A reply is faithful exactly when the resolver's datagram fits the receive buffer. -/
theorem faithful_reply_iff {c : Codec} {q : Query} {o : Offered} {r : Reply}
    (hq : queryOf c o = some q) (hreplied : q.RepliedBy r.packet (receivedBytes r.datagram)) :
    Faithful c o r ↔ r.datagram.length ≤ responseBufferBytes := by
  obtain ⟨hip, hshort, udp, hudp, hpayload⟩ := queryOf_packet hq
  obtain ⟨udp', hudp', hsrc, hdst, hout⟩ := hreplied
  obtain rfl : udp = udp' := Option.some.inj (hudp.symm.trans hudp')
  constructor
  · rintro ⟨ip, udp₀, dnsPayload, hip₀, hudp₀, hpayload₀, -, -, hout₀⟩
    obtain rfl : q.ip = ip := Option.some.inj (hip.symm.trans hip₀)
    obtain rfl : udp = udp₀ := Option.some.inj (hudp.symm.trans hudp₀)
    obtain rfl : q.dnsPayload = dnsPayload := Option.some.inj (hpayload.symm.trans hpayload₀)
    rw [hout, Option.some.injEq, UdpPacket.mk.injEq, Option.some.injEq,
      List.append_cancel_left_eq] at hout₀
    have hlength := congrArg List.length hout₀.2.2
    simp only [receivedBytes, List.length_drop, List.length_take] at hlength
    unfold responseBufferBytes at hlength ⊢
    omega
  · intro hfits
    refine ⟨q.ip, udp, q.dnsPayload, hip, hudp, hpayload, hsrc, hdst, ?_⟩
    rw [hout, receivedBytes, List.take_of_length_le hfits]

/-- In every reachable state the promise holds exactly when every datagram that was answered fits
the receive buffer. -/
theorem stageSound_iff {c : Codec} {s : Stage} (h : StageOk c s) :
    StageSound c s ↔ ∀ r ∈ s.history.replies, r.datagram.length ≤ responseBufferBytes := by
  constructor
  · intro hsound r hr
    obtain ⟨o, ho, hserial, hfaithful⟩ := hsound.faithful r hr
    obtain ⟨q, ⟨o', ho', hq⟩, hserial', hreplied⟩ := h.answering.answers r hr
    have hsame : o' = o := List.inj_on_of_nodup_map h.lineage.unique ho' ho
      (((queryOf_serial hq).symm.trans hserial').trans hserial.symm)
    exact (faithful_reply_iff hq hreplied).mp (hsame ▸ hfaithful)
  · intro hfits
    refine ⟨?_, h.capacity.size, ?_, ?_, ?_, h.answering.once, ?_⟩
    · intro serial serial' id hflight hflight'
      obtain ⟨p, hlookup, rfl⟩ := h.ledger.inFlight serial id hflight
      obtain ⟨p', hlookup', rfl⟩ := h.ledger.inFlight serial' id hflight'
      rw [Option.some.inj (hlookup.symm.trans hlookup')]
    · intro attempt q htx
      obtain ⟨seen, hcard, hattempt, -⟩ := h.capacity.allocating attempt q htx
      exact lt_of_le_of_lt hattempt hcard
    · intro attempt q htx
      obtain ⟨n, hn, s', id, hrun, hput, hfresh⟩ := allocate_finds c h.capacity htx
      exact ⟨n, le_trans hn (Nat.sub_le _ _), s', id, hrun, hput,
        (stageOk_run h hrun).ledger.not_inFlight hfresh⟩
    · intro id q htx
      obtain ⟨hlt, hfresh, -⟩ := h.capacity.putting id q htx
      exact ⟨hlt, h.ledger.not_inFlight hfresh⟩
    · intro r hr
      obtain ⟨q, ⟨o, ho, hq⟩, hserial, hreplied⟩ := h.answering.answers r hr
      exact ⟨o, ho, (queryOf_serial hq).symm.trans hserial,
        (faithful_reply_iff hq hreplied).mpr (hfits r hr)⟩

/-- The condition on one step: a datagram from the resolver fits the receive buffer. -/
def Fits (_ : Stage) : Action → Prop
  | .rx (.receive datagram _) => datagram.length ≤ responseBufferBytes
  | .offer _ | .tx _ | .expire _ | .stop | .onEngineAttached => True
  | .rx .advance | .rx .timeout | .rx .ioError | .rx .replyFailed => True

instance decidableFits (s : Stage) : (a : Action) → Decidable (Fits s a)
  | .rx (.receive datagram _) => inferInstanceAs (Decidable (datagram.length ≤ responseBufferBytes))
  | .offer _ | .tx _ | .expire _ | .stop | .onEngineAttached => inferInstanceAs (Decidable True)
  | .rx .advance | .rx .timeout | .rx .ioError | .rx .replyFailed =>
    inferInstanceAs (Decidable True)

/-- Every datagram the receive loop holds or has answered fits the buffer. -/
structure Fitting (s : Stage) : Prop where
  received : ∀ datagram answers, s.rx = .received datagram answers →
    datagram.length ≤ responseBufferBytes
  matched : ∀ p datagram, s.rx = .matched p datagram → datagram.length ≤ responseBufferBytes
  replies : ∀ r ∈ s.history.replies, r.datagram.length ≤ responseBufferBytes

theorem fitting_step {c : Codec} {a : Action} {s s' : Stage} (h : Fitting s) (hfits : Fits s a)
    (hstep : step c s a = some s') : Fitting s' := by
  by_cases hrx : ∃ event, a = .rx event
  · obtain ⟨event, rfl⟩ := hrx
    obtain ⟨hreceived, hmatched, hreplies⟩ := h
    cases rxStep_move hstep with
    | @receive datagram answers =>
      refine ⟨?_, nofun, hreplies⟩
      rintro _ _ ⟨⟩
      exact hfits
    | answer hrx =>
      refine ⟨nofun, ?_, by simpa using hreplies⟩
      rintro _ _ ⟨⟩
      exact hreceived _ _ hrx
    | mismatch => exact ⟨nofun, nofun, by simpa using hreplies⟩
    | write hrx => exact ⟨nofun, nofun, List.forall_mem_cons.mpr ⟨hmatched _ _ hrx, hreplies⟩⟩
    | exit | listen | closed | short | unknown | unbuilt | timeout | ioError | replyFails =>
      exact ⟨nofun, nofun, hreplies⟩
  · obtain ⟨hsame, hreplies⟩ := rx_frame hstep (not_exists.mp hrx)
    refine ⟨?_, ?_, ?_⟩
    · rw [hsame]
      exact h.received
    · rw [hsame]
      exact h.matched
    · rw [hreplies]
      exact h.replies

theorem fitting_started (counter : BitVec 32) : Fitting (Stage.started counter) := by
  constructor <;> simp [Stage.started]

/-- **Table and replies.** In every run in which no datagram of the resolver is longer than the
receive buffer, whatever the counter starts at, every state reached keeps the stage's promise. -/
theorem stageSound_of_fits (c : Codec) (counter : BitVec 32) (s : Stage)
    (hreach : Reaches (step c) Fits (Stage.started counter) s) : StageSound c s := by
  have hfitting : Fitting s :=
    hreach.invariant Fitting (fun _ _ _ h hfits hstep ↦ fitting_step h hfits hstep)
      (fitting_started counter)
  exact (stageSound_iff (stageOk_of_reaches hreach)).mpr hfitting.replies

/-! ### One exchange -/

/-- A packet is offered and the transmit loop sends its query. -/
def submit (raw : List UInt8) : List Action :=
  Action.offer raw :: List.replicate 6 (Action.tx .advance) ++
    [Action.tx (.send true), Action.tx .advance]

/-- A datagram arrives and the receive loop answers with it. -/
def respond (datagram : List UInt8) (answers : Option ℕ) : List Action :=
  [.rx .advance, .rx (.receive datagram answers), .rx .advance, .rx .advance]

/-- The stage after `submit`. -/
def Stage.submitted (c : Codec) (s : Stage) (raw : List UInt8) (q : Query) : Stage :=
  let id := candidateId s.nextUpstreamId
  { s with
    pending := s.pending.insert id (q.pendingQuery c)
    nextUpstreamId := s.nextUpstreamId + 1
    timers := s.timers.map (⟨q.serial, id⟩ :: ·)
    nextSerial := s.nextSerial + 1
    history := { s.history with
      offered := ⟨s.nextSerial, raw⟩ :: s.history.offered
      assigned := (q.serial, id) :: s.history.assigned
      sent := ⟨q.serial, writeTransactionId q.dnsPayload id⟩ :: s.history.sent } }

/-- The loops are idle and the stage is up. -/
structure Idle (s : Stage) : Prop where
  running : s.running = true
  socketOpen : s.socketOpen = true
  inbound : s.inbound = []
  tx : s.tx = .head
  rx : s.rx = .head

theorem run_submit {c : Codec} {s : Stage} {raw : List UInt8} {q : Query} (hidle : Idle s)
    (hquery : queryOf c ⟨s.nextSerial, raw⟩ = some q)
    (hbypass : shouldBypass c s.windscribeBypassAvailable q.dnsPayload = false)
    (hroom : s.pending.entries.length < maxPending)
    (hfresh : candidateId s.nextUpstreamId ∉ s.pending) :
    run (step c) s (submit raw) = some (s.submitted c raw q) := by
  obtain ⟨hrunning, hsocket, hinbound, htx, -⟩ := hidle
  have hroom' : ¬ maxPending ≤ s.pending.entries.length := not_le.mpr hroom
  let o : Offered := ⟨s.nextSerial, raw⟩
  let offered : Stage := { s with
    nextSerial := s.nextSerial + 1
    history := { s.history with offered := o :: s.history.offered } }
  have hoffer : step c s (.offer raw) = some { offered with inbound := [o] } := by
    have hdepth : ¬ queueDepth ≤ 0 := by decide
    simp [step, offer, offered, o, hrunning, hinbound, hdepth]
  have hpoll : step c { offered with inbound := [o] } (.tx .advance) =
      some { offered with inbound := [o], tx := .polling } := by
    simp [step, txStep, txAdvance, offered, htx, hrunning]
  have htake : step c { offered with inbound := [o], tx := .polling } (.tx .advance) =
      some { offered with tx := .taken o } := by
    simp [step, txStep, txAdvance, offered, hinbound]
  have hcheck : step c { offered with tx := .taken o } (.tx .advance) =
      some { offered with tx := .checking q } := by
    simp [step, txStep, txAdvance, offered, o, hquery, hbypass]
  have hallocate : step c { offered with tx := .checking q } (.tx .advance) =
      some { offered with tx := .allocating 0 q } := by
    simp [step, txStep, txAdvance, offered, hroom']
  simp only [submit, List.replicate_succ, List.replicate_zero, List.cons_append, List.nil_append,
    run_cons, hoffer, hpoll, htake, hcheck, hallocate, Option.bind_some]
  simp [step, txStep, txAdvance, offered, o, hsocket, hinbound, htx, hfresh, Stage.submitted]

/-- The stage after `respond`. -/
def Stage.answeredWith (s : Stage) (p : PendingQuery) (id : ℕ) (datagram : List UInt8)
    (answers : Option ℕ) (packet : IpPacket) : Stage :=
  { s with
    pending := s.pending.erase id
    answered := s.answered + 1
    history := { s.history with
      departures := ⟨p.serial, .response answers⟩ :: s.history.departures
      replies := ⟨p.serial, datagram, packet⟩ :: s.history.replies } }

/-- A datagram that answers an entry takes it out of the table and is handed to `reply`. -/
theorem deliver_matched {c : Codec} {s : Stage} {p : PendingQuery} {datagram : List UInt8}
    (answers : Option ℕ) (hlength : 2 ≤ (receivedBytes datagram).length)
    (hlookup : s.pending.lookup (transactionId (receivedBytes datagram)) = some p)
    (hmatches : questionMatches c (receivedBytes datagram) p = true) :
    deliver c s datagram answers =
      { s.removePending (transactionId (receivedBytes datagram)) (.response answers) with
        rx := .matched p datagram } := by
  simp only [deliver, if_neg (not_lt.mpr hlength), hlookup, hmatches, if_true]

theorem run_respond {c : Codec} {s : Stage} {p : PendingQuery} (datagram : List UInt8)
    (answers : Option ℕ) {packet : IpPacket} (hidle : Idle s)
    (hlength : 2 ≤ (receivedBytes datagram).length)
    (hlookup : s.pending.lookup (transactionId (receivedBytes datagram)) = some p)
    (hmatches : questionMatches c (receivedBytes datagram) p = true)
    (hpacket : rebuild p.request (writeTransactionId (receivedBytes datagram) p.appTransactionId) =
      some packet) :
    run (step c) s (respond datagram answers) =
      some (s.answeredWith p (transactionId (receivedBytes datagram)) datagram answers packet) := by
  obtain ⟨hrunning, hsocket, hinbound, htx, hrx⟩ := hidle
  have hhead : step c s (.rx .advance) = some { s with rx := .receiving } := by
    simp [step, rxStep, hrunning, hsocket, hrx]
  have hreceive : step c { s with rx := .receiving } (.rx (.receive datagram answers)) =
      some { s with rx := .received datagram answers } := by
    simp [step, rxStep, hsocket]
  have hdeliver : step c { s with rx := .received datagram answers } (.rx .advance) =
      some { s.removePending (transactionId (receivedBytes datagram)) (.response answers) with
        rx := .matched p datagram } := by
    simp only [step, rxStep]
    rw [deliver_matched (s := { s with rx := .received datagram answers }) answers hlength hlookup
      hmatches]
    simp only [Stage.removePending, hlookup]
  have hreply : step c
      { s.removePending (transactionId (receivedBytes datagram)) (.response answers) with
        rx := .matched p datagram } (.rx .advance) =
      some (s.answeredWith p (transactionId (receivedBytes datagram)) datagram answers packet) := by
    simp only [step, rxStep, reply, hpacket, Stage.removePending, hlookup, Stage.answeredWith, hrx]
  simp only [respond, run_cons, hhead, hreceive, hdeliver, hreply, Option.bind_some, run_nil]

/-! ### A datagram longer than the buffer -/

/-- An IPv4 packet from 10.0.0.2 port 40000 to 10.0.0.1 port 53 with the two payload bytes 12 34. -/
def sampleRaw : List UInt8 :=
  [0x45, 0, 0, 0x1E, 0, 0, 0, 0, 0x40, 0x11, 0x66, 0xCD, 10, 0, 0, 2, 10, 0, 0, 1,
    0x9C, 0x40, 0, 53, 0, 10, 0, 0, 0x12, 0x34]

/-- What pcap4j reads from `sampleRaw`. -/
def samplePacket : IpPacket := ⟨false, 0x0A000002, 0x0A000001, some ⟨40000, 53, some [0x12, 0x34]⟩⟩

/-- The libraries on the sample: the packet parses, a payload shorter than a DNS header does not,
and a message of zeros has no question. -/
def sampleCodec : Codec where
  newPacket raw := if raw = sampleRaw then some samplePacket else none
  dnsMessage dns := if dns.length < 12 then none else some []

theorem sampleCodec_questionName (dns : List UInt8) : questionName sampleCodec dns = none := by
  unfold questionName sampleCodec
  dsimp only
  split_ifs <;> rfl

theorem queryOf_sampleRaw (serial : ℕ) :
    queryOf sampleCodec ⟨serial, sampleRaw⟩ = some ⟨serial, samplePacket, [0x12, 0x34]⟩ := rfl

theorem shouldBypass_sampleCodec (available : Bool) (dns : List UInt8) :
    shouldBypass sampleCodec available dns = false := by
  simp [shouldBypass, sampleCodec_questionName]

/-- A run with an answered query, in which every datagram fits. -/
theorem stageSound_of_fits_answered :
    ∃ s, Reaches (step sampleCodec) Fits (Stage.started 0xFFFFFFFF#32) s ∧
      s.history.replies.length = 1 ∧ StageSound sampleCodec s := by
  obtain ⟨s, hreach, hcheck⟩ := exists_reaches_of_run (step sampleCodec) Fits
    (Stage.started 0xFFFFFFFF#32) (submit sampleRaw ++ respond (255 :: 255 :: List.replicate 10 0)
      (some 0)) (fun s ↦ decide (s.history.replies.length = 1)) (by decide)
  exact ⟨s, hreach, of_decide_eq_true hcheck, stageSound_of_fits _ _ s hreach⟩

/-- A datagram one byte longer than the receive buffer is answered without its last byte. -/
theorem not_stageSound_truncated :
    ∃ s, Reaches (step sampleCodec) Always (Stage.started 0) s ∧ ¬ StageSound sampleCodec s := by
  let datagram : List UInt8 := List.replicate 4097 0
  have hreceived : receivedBytes datagram = 0 :: 0 :: List.replicate 4094 0 := by
    simp only [datagram, receivedBytes, responseBufferBytes, List.take_replicate]
    rfl
  have hsubmit : run (step sampleCodec) (Stage.started 0) (submit sampleRaw) =
      some ((Stage.started 0).submitted sampleCodec sampleRaw
        ⟨0, samplePacket, [0x12, 0x34]⟩) :=
    run_submit ⟨rfl, rfl, rfl, rfl, rfl⟩ (queryOf_sampleRaw 0) (shouldBypass_sampleCodec _ _)
      (by decide) (by simp [Stage.started])
  have hlength : 2 ≤ (receivedBytes datagram).length := by
    rw [hreceived, List.length_cons, List.length_cons]
    exact Nat.le_add_left 2 _
  have hrespond := run_respond (c := sampleCodec)
    (s := (Stage.started 0).submitted sampleCodec sampleRaw ⟨0, samplePacket, [0x12, 0x34]⟩)
    datagram (some 0) ⟨rfl, rfl, rfl, rfl, rfl⟩ hlength (by rw [hreceived]; rfl)
    (by simp [questionMatches, sampleCodec_questionName, Query.pendingQuery]) rfl
  have hreach := (reaches_always_of_run hsubmit).trans (reaches_always_of_run hrespond)
  refine ⟨_, hreach, fun hsound ↦ ?_⟩
  have hfits : datagram.length ≤ 4096 :=
    (stageSound_iff (stageOk_of_reaches hreach)).mp hsound _ List.mem_cons_self
  rw [List.length_replicate] at hfits
  exact absurd hfits (by decide)

end WindscribeVpn.Tunnel.ControlDDnsStage
