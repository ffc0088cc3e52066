import WindscribeVpn.Repository.LocationRepository

/-!
# `LatencyRepository` and the lowest ping

`LatencyRepository` pings datacenters, static IPs and custom configs, and `PingTimeDao.addPing`
keeps what it measures in one table, whose key is an id of whichever of the three. A positive ping
replaces what is stored, another one only where nothing positive is stored yet. `shown` reads off
the measurements what the table has at an id (`get_pingsAfter`).

`getLowestPingIdAsync` then asks for the smallest time and for an id with this time, in two queries
that do not select the same rows. `Kept` is the promise on its result: the id of a best datacenter
among those the user may use, and an exception when there is none. `not_kept_free` breaks it with a
single measurement, since every datacenter is stored as one for pro users. `kept_iff_undistorted`
says exactly when it is kept, and `kept_of_datacenters` that it is for a pro user whose measurements
are all of datacenters and none of them 0.
-/

set_option autoImplicit false
set_option relaxedAutoImplicit false

namespace WindscribeVpn.Repository.LatencyRepository

open LocationRepository

/-! ### The table -/

/-- The table `PingTime` in the order of its primary key. -/
structure PingTable where
  rows : List PingTime
  sorted : rows.Pairwise fun a b ↦ a.pingId < b.pingId

namespace PingTable

variable (table : PingTable)

/-- The table without rows. -/
def empty : PingTable := ⟨[], List.Pairwise.nil⟩

/-- The row of an id. -/
def get (id : ℤ) : Option PingTime := table.rows.find? fun row ↦ row.pingId == id

/-- `getExistingPingTime`. -/
def getExistingPingTime (pingId : ℤ) : Option ℤ := (table.get pingId).map PingTime.pingTime

/-- `insertPing`, which replaces a row of the same id. -/
def insertPing (ping : PingTime) : PingTable where
  rows := (table.rows.filter fun row ↦ row.pingId < ping.pingId) ++
    ping :: table.rows.filter fun row ↦ ping.pingId < row.pingId
  sorted := by
    refine List.pairwise_append.mpr ⟨table.sorted.filter _, ?_, fun a ha b hb ↦ ?_⟩
    · refine List.pairwise_cons.mpr ⟨fun b hb ↦ ?_, table.sorted.filter _⟩
      exact of_decide_eq_true (List.mem_filter.mp hb).2
    · have hlow : a.pingId < ping.pingId := of_decide_eq_true (List.mem_filter.mp ha).2
      rcases List.mem_cons.mp hb with rfl | hb
      · exact hlow
      · exact hlow.trans (of_decide_eq_true (List.mem_filter.mp hb).2)

/-- `addPing`. -/
def addPing (ping : PingTime) : PingTable :=
  let existingPingTime := table.getExistingPingTime ping.pingId
  if 0 < ping.pingTime ∨ existingPingTime = none ∨ existingPingTime.any fun time ↦ time ≤ 0 then
    table.insertPing ping
  else table

variable {table}

/-- A row of the table is the one of its id. -/
theorem get_eq_some_iff {id : ℤ} {row : PingTime} :
    table.get id = some row ↔ row ∈ table.rows ∧ row.pingId = id := by
  constructor
  · intro hget
    have hid := List.find?_some hget
    exact ⟨List.mem_of_find?_eq_some hget, beq_iff_eq.mp hid⟩
  · rintro ⟨hmem, rfl⟩
    rcases hget : table.get row.pingId with _ | other
    · have hnone := List.find?_eq_none.mp hget row hmem
      exact absurd (beq_self_eq_true _) hnone
    · have hother : other ∈ table.rows := List.mem_of_find?_eq_some hget
      have hid := List.find?_some hget
      have hnodup : (table.rows.map PingTime.pingId).Nodup :=
        List.pairwise_map.mpr (table.sorted.imp fun hlt ↦ hlt.ne)
      exact congrArg some (List.inj_on_of_nodup_map hnodup hother hmem (beq_iff_eq.mp hid))

theorem mem_insertPing {ping row : PingTime} :
    row ∈ (table.insertPing ping).rows ↔
      row = ping ∨ row ∈ table.rows ∧ row.pingId ≠ ping.pingId := by
  simp only [insertPing, List.mem_append, List.mem_cons, List.mem_filter, decide_eq_true_eq,
    ne_iff_lt_or_gt]
  tauto

/-- An insertion is seen at its own id only. -/
theorem get_insertPing {ping : PingTime} {id : ℤ} :
    (table.insertPing ping).get id = if id = ping.pingId then some ping else table.get id := by
  refine Option.ext fun row ↦ ?_
  rw [get_eq_some_iff, mem_insertPing]
  split_ifs with hid
  · rw [hid, Option.some.injEq]
    constructor
    · rintro ⟨rfl | ⟨-, hne⟩, hsame⟩
      · rfl
      · exact absurd hsame hne
    · rintro rfl
      exact ⟨Or.inl rfl, rfl⟩
  · rw [get_eq_some_iff]
    constructor
    · rintro ⟨rfl | ⟨hmem, -⟩, hsame⟩
      · exact absurd hsame.symm hid
      · exact ⟨hmem, hsame⟩
    · rintro ⟨hmem, rfl⟩
      exact ⟨Or.inr ⟨hmem, hid⟩, rfl⟩

end PingTable

/-! ### Measurements -/

/-- What is pinged. -/
inductive Target
  | datacenter (id : ℤ)
  /-- A `StaticRegion`, whose id may be missing. -/
  | staticRegion (id : Option ℤ)
  | config (primaryKey : ℤ)
  deriving DecidableEq, Repr

/-- A target with what `getLatency` came to, -1 when there is no host to ping or it did not
answer. -/
structure Measurement where
  target : Target
  latency : ℤ
  deriving DecidableEq, Repr

/-- `newPingTime`, as the two `pingJobAsync` and `updateConfigLatencies` call it. -/
def Measurement.pingTime (m : Measurement) : PingTime :=
  match m.target with
  | .datacenter id => { pingId := id, pingTime := m.latency, isStatic := false, isPro := true }
  | .staticRegion id =>
    { pingId := id.getD 0, pingTime := m.latency, isStatic := true, isPro := true }
  | .config primaryKey =>
    { pingId := primaryKey, pingTime := m.latency, isStatic := false, isPro := false }

/-- The table after a history of measurements, the last one first. -/
def pingsAfter : List Measurement → PingTable
  | [] => PingTable.empty
  | m :: earlier => (pingsAfter earlier).addPing m.pingTime

/-- Of measurements of one id, the last one first, the one that is stored: the last positive one or,
when there is none, the last one. -/
def leading (rows : List PingTime) : Option PingTime :=
  (rows.find? fun row ↦ 0 < row.pingTime).or rows.head?

/-- What a history of measurements stores at an id, whatever was measured. -/
def shown (history : List Measurement) (id : ℤ) : Option PingTime :=
  leading ((history.map Measurement.pingTime).filter fun row ↦ row.pingId == id)

/-- The latest positive ping of a datacenter. -/
def latestPositive (history : List Measurement) (id : ℤ) : Option ℤ :=
  (history.find? fun m ↦ m.target = .datacenter id ∧ 0 < m.latency).map Measurement.latency

/-- A measurement replaces what is stored at its id. -/
def Replaces (ping : PingTime) (existing : Option PingTime) : Prop :=
  0 < ping.pingTime ∨ existing = none ∨ existing.any fun row ↦ row.pingTime ≤ 0

instance decidableReplaces (ping : PingTime) (existing : Option PingTime) :
    Decidable (Replaces ping existing) := inferInstanceAs (Decidable (_ ∨ _ ∨ _))

theorem PingTable.addPing_eq (table : PingTable) (ping : PingTime) :
    table.addPing ping =
      if Replaces ping (table.get ping.pingId) then table.insertPing ping else table := by
  refine if_congr ?_ rfl rfl
  simp [PingTable.getExistingPingTime, Replaces, Option.any_map]

theorem leading_cons (row : PingTime) (rows : List PingTime) :
    leading (row :: rows) = if Replaces row (leading rows) then some row else leading rows := by
  by_cases hpositive : 0 < row.pingTime
  · simp [leading, Replaces, hpositive]
  · rcases hfind : rows.find? fun r ↦ 0 < r.pingTime with _ | found
    · have hnone := List.find?_eq_none.mp hfind
      rcases rows with _ | ⟨last, rest⟩
      · simp [leading, Replaces, hpositive]
      · have hlast := hnone last List.mem_cons_self
        simp only [decide_eq_true_eq, not_lt] at hlast
        simp [leading, Replaces, hpositive, hfind, hlast]
    · have hfound := List.find?_some hfind
      simp only [decide_eq_true_eq] at hfound
      simp [leading, Replaces, hpositive, hfind, hfound]

theorem shown_cons_self (m : Measurement) (earlier : List Measurement) :
    shown (m :: earlier) m.pingTime.pingId =
      if Replaces m.pingTime (shown earlier m.pingTime.pingId) then some m.pingTime
      else shown earlier m.pingTime.pingId := by
  have hself : (m.pingTime.pingId == m.pingTime.pingId) = true := beq_self_eq_true _
  simp only [shown, List.map_cons, List.filter_cons, hself, if_true]
  exact leading_cons _ _

theorem shown_cons_of_ne {m : Measurement} {id : ℤ} (hid : id ≠ m.pingTime.pingId)
    (earlier : List Measurement) : shown (m :: earlier) id = shown earlier id := by
  have hother : (m.pingTime.pingId == id) = false := beq_false_of_ne (Ne.symm hid)
  simp only [shown, List.map_cons, List.filter_cons, hother, Bool.false_eq_true, if_false]

/-- The table shows the last positive measurement of an id, or the last one. -/
theorem get_pingsAfter (history : List Measurement) (id : ℤ) :
    (pingsAfter history).get id = shown history id := by
  induction history with
  | nil => rfl
  | cons m earlier ih =>
    rw [pingsAfter, PingTable.addPing_eq]
    by_cases hid : id = m.pingTime.pingId
    · subst hid
      rw [shown_cons_self, ih]
      split_ifs
      · rw [PingTable.get_insertPing, if_pos rfl]
      · exact ih
    · rw [shown_cons_of_ne hid]
      split_ifs
      · rw [PingTable.get_insertPing, if_neg hid, ih]
      · exact ih

/-- The rows of the table are those that the ids show. -/
theorem mem_pingsAfter {history : List Measurement} {row : PingTime} :
    row ∈ (pingsAfter history).rows ↔ shown history row.pingId = some row := by
  rw [← get_pingsAfter, PingTable.get_eq_some_iff, and_iff_left rfl]

/-- A row is shown at its own id. -/
theorem pingId_of_shown {history : List Measurement} {id : ℤ} {row : PingTime}
    (hshown : shown history id = some row) : row.pingId = id := by
  rw [← get_pingsAfter, PingTable.get_eq_some_iff] at hshown
  exact hshown.2

/-! ### The promise -/

/-- The first query selects the rows that were measured and are not static; of a free user's, those
that are not for pro users. -/
def Measured (freeUser : Bool) (row : PingTime) : Prop :=
  row.pingTime ≠ -1 ∧ row.isStatic = false ∧ (freeUser = true → row.isPro = false)

/-- The second query selects by the time alone, and for a free user by `isPro`. -/
def Found (freeUser : Bool) (row : PingTime) : Prop := freeUser = true → row.isPro = false

/-- The datacenters a user may use. `pro` says of a datacenter that it is for pro users. -/
def Usable (pro : ℤ → Bool) (freeUser : Bool) (id : ℤ) : Prop := freeUser = true → pro id = false

/-- No datacenter the user may use has a positive ping. -/
def NonePositive (pro : ℤ → Bool) (freeUser : Bool) (history : List Measurement) : Prop :=
  ∀ id, Usable pro freeUser id → latestPositive history id = none

/-- A datacenter the user may use, with the smallest of their latest positive pings. -/
def Best (pro : ℤ → Bool) (freeUser : Bool) (history : List Measurement) (id : ℤ) : Prop :=
  Usable pro freeUser id ∧ ∃ time, latestPositive history id = some time ∧
    ∀ other otherTime, Usable pro freeUser other → latestPositive history other = some otherTime →
      time ≤ otherTime

/-- What `getLowestPingIdAsync` comes to after a history. -/
def lowestPingId (freeUser : Bool) (history : List Measurement) : Option ℤ :=
  Database.getLowestPingId ⟨[], [], [], (pingsAfter history).rows⟩ freeUser

/-- What `getLowestPingIdAsync` promises after a history of measurements. -/
def Kept (pro : ℤ → Bool) (freeUser : Bool) (history : List Measurement) : Prop :=
  match lowestPingId freeUser history with
  | some id => Best pro freeUser history id
  | none => NonePositive pro freeUser history

/-- The row stored at an id leads the table: it has a positive time that no row of the first query
is below and one of them has, and no row of the second query with this time has a smaller id. -/
def Leads (freeUser : Bool) (history : List Measurement) (id : ℤ) : Prop :=
  ∃ row, shown history id = some row ∧ 0 < row.pingTime ∧ Found freeUser row ∧
    (∀ other r, shown history other = some r → Measured freeUser r → row.pingTime ≤ r.pingTime) ∧
    (∃ other r, shown history other = some r ∧ Measured freeUser r ∧ r.pingTime = row.pingTime) ∧
    ∀ other r, shown history other = some r → Found freeUser r → r.pingTime = row.pingTime →
      id ≤ other

/-- No id shows a row that the first query selects, or one shows a row of 0 or less. -/
def Quiet (freeUser : Bool) (history : List Measurement) : Prop :=
  (∀ id row, shown history id = some row → ¬ Measured freeUser row) ∨
    ∃ id row, shown history id = some row ∧ Measured freeUser row ∧ row.pingTime ≤ 0

/-- The condition: without a positive ping the first query selects nothing or a row of 0, and
otherwise the row of a best datacenter leads the table. -/
def Undistorted (pro : ℤ → Bool) (freeUser : Bool) (history : List Measurement) : Prop :=
  (NonePositive pro freeUser history → Quiet freeUser history) ∧
    (¬ NonePositive pro freeUser history →
      ∃ id, Best pro freeUser history id ∧ Leads freeUser history id)

/-! ### The two queries -/

instance decidableMeasured (freeUser : Bool) (row : PingTime) : Decidable (Measured freeUser row) :=
  inferInstanceAs (Decidable (_ ∧ _ ∧ (_ → _)))

instance decidableFound (freeUser : Bool) (row : PingTime) : Decidable (Found freeUser row) :=
  inferInstanceAs (Decidable (_ → _))

/-- The smallest time of some rows is 0 when there are none. -/
theorem minPing_spec (rows : List PingTime) :
    rows = [] ∧ minPing rows = 0 ∨
      ∃ row ∈ rows, row.pingTime = minPing rows ∧ ∀ r ∈ rows, minPing rows ≤ r.pingTime := by
  rcases hmin : (rows.map PingTime.pingTime).min? with _ | time
  · left
    rw [List.min?_eq_none_iff, List.map_eq_nil_iff] at hmin
    exact ⟨hmin, by rw [hmin]; rfl⟩
  · right
    have htime : minPing rows = time := by rw [minPing, hmin, Option.getD_some]
    obtain ⟨hmem, hle⟩ := List.min?_eq_some_iff.mp hmin
    obtain ⟨row, hrow, rfl⟩ := List.mem_map.mp hmem
    rw [htime]
    exact ⟨row, hrow, rfl, fun r hr ↦ hle _ (List.mem_map_of_mem hr)⟩

/-- The two queries for both kinds of users. -/
theorem getLowestPingId_eq (db : Database) (freeUser : Bool) :
    db.getLowestPingId freeUser =
      let time := minPing (db.pings.filter fun row ↦ Measured freeUser row)
      if time ≤ 0 then none
      else some (((db.pings.find? fun row ↦ row.pingTime = time ∧ Found freeUser row).map
        PingTime.pingId).getD 0) := by
  cases freeUser with
  | false =>
    have hfirst : (fun row ↦ decide (Measured false row)) =
        fun row ↦ row.pingTime != -1 && !row.isStatic := by
      funext row
      simp [Measured, bne, beq_eq_decide]
    simp [Database.getLowestPingId, Found, hfirst, beq_eq_decide]
  | true =>
    have hfirst : (fun row ↦ decide (Measured true row)) =
        fun row ↦ !row.isPro && (row.pingTime != -1 && !row.isStatic) := by
      funext row
      rw [Bool.eq_iff_iff]
      simp [Measured, bne]
      tauto
    simp [Database.getLowestPingId, Found, hfirst, beq_eq_decide, List.filter_filter]

/-- What is found in the table first has the smallest id. -/
theorem PingTable.pingId_le_of_find {table : PingTable} {p : PingTime → Bool} {row r : PingTime}
    (hfind : table.rows.find? p = some row) (hr : r ∈ table.rows) (hp : p r = true) :
    row.pingId ≤ r.pingId := by
  obtain ⟨-, before, after, hrows, hbefore⟩ := List.find?_eq_some_iff_append.mp hfind
  have hsorted := table.sorted
  rw [hrows] at hr hsorted
  rcases List.mem_append.mp hr with hearly | hlate
  · have hnot := hbefore r hearly
    rw [hp] at hnot
    cases hnot
  · rcases List.mem_cons.mp hlate with rfl | hlate
    · exact le_rfl
    · exact (List.rel_of_pairwise_cons (List.pairwise_append.mp hsorted).2.1 hlate).le

section Result

variable {freeUser : Bool} {history : List Measurement}

/-- The rows of the first query. -/
theorem mem_measured {row : PingTime} :
    row ∈ (pingsAfter history).rows.filter (fun row ↦ Measured freeUser row) ↔
      shown history row.pingId = some row ∧ Measured freeUser row := by
  rw [List.mem_filter, mem_pingsAfter, decide_eq_true_eq]

/-- The first query selects nothing, or the second one finds the row that leads the table. -/
theorem lowestPingId_cases (freeUser : Bool) (history : List Measurement) :
    lowestPingId freeUser history = none ∧ Quiet freeUser history ∨
      ∃ id, lowestPingId freeUser history = some id ∧ Leads freeUser history id := by
  have hresult := getLowestPingId_eq ⟨[], [], [], (pingsAfter history).rows⟩ freeUser
  simp only at hresult
  rcases minPing_spec ((pingsAfter history).rows.filter fun row ↦ Measured freeUser row) with
    ⟨hempty, hzero⟩ | ⟨first, hfirst, htime, hleast⟩
  · left
    rw [hzero, if_pos le_rfl] at hresult
    refine ⟨hresult, Or.inl fun id row hshown hmeasured ↦ ?_⟩
    have hid := pingId_of_shown hshown
    have hmem := mem_measured.mpr ⟨by rw [hid]; exact hshown, hmeasured⟩
    rw [hempty] at hmem
    cases hmem
  · obtain ⟨hshown, hmeasured⟩ := mem_measured.mp hfirst
    rw [← htime] at hresult
    by_cases hpositive : first.pingTime ≤ 0
    · left
      rw [if_pos hpositive] at hresult
      exact ⟨hresult, Or.inr ⟨first.pingId, first, hshown, hmeasured, hpositive⟩⟩
    · right
      rw [if_neg hpositive] at hresult
      rcases hfind : (pingsAfter history).rows.find? fun row ↦
        row.pingTime = first.pingTime ∧ Found freeUser row with _ | row
      · have hnone := List.find?_eq_none.mp hfind first (mem_pingsAfter.mpr hshown)
        exact absurd (decide_eq_true ⟨rfl, hmeasured.2.2⟩) hnone
      · rw [hfind] at hresult
        have hrow := List.find?_some hfind
        simp only [decide_eq_true_eq] at hrow
        refine ⟨row.pingId, hresult, row,
          mem_pingsAfter.mp (List.mem_of_find?_eq_some hfind), ?_, hrow.2,
          fun other r hother hr ↦ ?_, ⟨first.pingId, first, hshown, hmeasured, hrow.1.symm⟩,
          fun other r hother hr hsame ↦ ?_⟩
        · rw [hrow.1]
          exact not_le.mp hpositive
        · have hid := pingId_of_shown hother
          rw [hrow.1, htime]
          exact hleast r (mem_measured.mpr ⟨by rw [hid]; exact hother, hr⟩)
        · have hid := pingId_of_shown hother
          rw [← hid]
          refine PingTable.pingId_le_of_find hfind
            (mem_pingsAfter.mpr (by rw [hid]; exact hother)) ?_
          exact decide_eq_true ⟨hsame.trans hrow.1, hr⟩

/-- Only one id leads the table. -/
theorem Leads.unique {id id' : ℤ} (hid : Leads freeUser history id)
    (hid' : Leads freeUser history id') : id = id' := by
  obtain ⟨row, hrow, -, hfound, hleast, ⟨o, r, hr, hmeasured, hsame⟩, hfirst⟩ := hid
  obtain ⟨row', hrow', -, hfound', hleast', ⟨o', r', hr', hmeasured', hsame'⟩, hfirst'⟩ := hid'
  have htime : row.pingTime = row'.pingTime := by
    refine le_antisymm ?_ ?_
    · rw [← hsame']
      exact hleast o' r' hr' hmeasured'
    · rw [← hsame]
      exact hleast' o r hr hmeasured
  exact le_antisymm (hfirst id' row' hrow' hfound' htime.symm) (hfirst' id row hrow hfound htime)

/-- A row that leads the table is not one of a quiet history. -/
theorem Leads.not_quiet {id : ℤ} (hid : Leads freeUser history id) : ¬ Quiet freeUser history := by
  obtain ⟨row, -, hpositive, -, hleast, ⟨other, r, hr, hmeasured, -⟩, -⟩ := hid
  rintro (hnone | ⟨o, low, hlow, hmeasured', hle⟩)
  · exact hnone other r hr hmeasured
  · exact absurd (hleast o low hlow hmeasured') (not_le.mpr (lt_of_le_of_lt hle hpositive))

end Result

/-! ### When the best datacenter is returned -/

/-- The lowest-ping selection keeps its promise exactly when nothing distorts it, for every history
of measurements. -/
theorem kept_iff_undistorted (pro : ℤ → Bool) (freeUser : Bool) (history : List Measurement) :
    Kept pro freeUser history ↔ Undistorted pro freeUser history := by
  rw [Kept]
  have hbest : ∀ {id}, Best pro freeUser history id → ¬ NonePositive pro freeUser history := by
    rintro id ⟨husable, time, htime, -⟩ hnone
    rw [hnone id husable] at htime
    cases htime
  rcases lowestPingId_cases freeUser history with ⟨hresult, hquiet⟩ | ⟨id, hresult, hleads⟩
  · rw [hresult]
    constructor
    · exact fun hnone ↦ ⟨fun _ ↦ hquiet, fun hsome ↦ absurd hnone hsome⟩
    · rintro ⟨-, hsome⟩
      by_contra hnot
      obtain ⟨other, -, hother⟩ := hsome hnot
      exact hother.not_quiet hquiet
  · rw [hresult]
    constructor
    · intro hid
      exact ⟨fun hnone ↦ absurd hnone (hbest hid), fun _ ↦ ⟨id, hid, hleads⟩⟩
    · rintro ⟨hquiet, hsome⟩
      obtain ⟨other, hother, hother'⟩ := hsome fun hnone ↦ hleads.not_quiet (hquiet hnone)
      rw [hleads.unique hother']
      exact hother

/-- A datacenter that is open to free users answers in 20 ms. It is stored as one for pro users, and
there is nothing for a free user to choose from. -/
theorem not_kept_free : ¬ ∀ pro freeUser history, Kept pro freeUser history := by
  intro hpromise
  have hnone := hpromise (fun _ ↦ false) true [⟨.datacenter 5, 20⟩]
  have hpositive : latestPositive [⟨.datacenter 5, 20⟩] 5 = some 20 := by decide
  rw [Kept, show lowestPingId true [⟨.datacenter 5, 20⟩] = none by decide] at hnone
  rw [hnone 5 fun _ ↦ rfl] at hpositive
  cases hpositive

section Datacenters

variable {history : List Measurement}

/-- Among measurements of datacenters, the last positive one that is stored at an id is the last
positive one of the datacenter with this id. -/
theorem find_positive (hall : ∀ m ∈ history, ∃ id, m.target = .datacenter id) (id : ℤ) :
    (((history.map Measurement.pingTime).filter fun row ↦ row.pingId == id).find? fun row ↦
      0 < row.pingTime) =
      (history.find? fun m ↦ m.target = .datacenter id ∧ 0 < m.latency).map
        Measurement.pingTime := by
  induction history with
  | nil => rfl
  | cons m earlier ih =>
    obtain ⟨⟨other, htarget⟩, hearlier⟩ := List.forall_mem_cons.mp hall
    have hrow : m.pingTime = ⟨other, m.latency, false, true⟩ := by
      rw [Measurement.pingTime, htarget]
    rw [List.map_cons, hrow, List.filter_cons, List.find?_cons, htarget]
    by_cases hid : other = id
    · subst hid
      by_cases hpositive : 0 < m.latency
      · simp [hpositive, hrow]
      · simpa [hpositive] using ih hearlier
    · simpa [hid] using ih hearlier

theorem shown_of_latestPositive (hall : ∀ m ∈ history, ∃ id, m.target = .datacenter id)
    {id time : ℤ} (hlatest : latestPositive history id = some time) :
    0 < time ∧ shown history id = some ⟨id, time, false, true⟩ := by
  obtain ⟨m, hfind, rfl⟩ := Option.map_eq_some_iff.mp hlatest
  have hm := List.find?_some hfind
  simp only [decide_eq_true_eq] at hm
  refine ⟨hm.2, ?_⟩
  rw [shown, leading, find_positive hall, hfind, Option.map_some, Option.some_or,
    Measurement.pingTime, hm.1]

/-- What an id shows is its latest positive ping, or that nothing answered. -/
theorem latestPositive_of_shown (hall : ∀ m ∈ history, ∃ id, m.target = .datacenter id)
    (hanswer : ∀ m ∈ history, m.latency = -1 ∨ 0 < m.latency) {id : ℤ} {row : PingTime}
    (hshown : shown history id = some row) :
    row.pingTime = -1 ∨ latestPositive history id = some row.pingTime := by
  rw [shown, leading, find_positive hall] at hshown
  rcases hfind : history.find? fun m ↦ m.target = .datacenter id ∧ 0 < m.latency with _ | m
  · left
    rw [hfind, Option.map_none, Option.none_or] at hshown
    obtain ⟨hmem, hid⟩ := List.mem_filter.mp (List.mem_of_head? hshown)
    obtain ⟨m, hm, rfl⟩ := List.mem_map.mp hmem
    obtain ⟨other, htarget⟩ := hall m hm
    have hnot := List.find?_eq_none.mp hfind m hm
    rw [Measurement.pingTime, htarget] at hid ⊢
    rw [beq_iff_eq] at hid
    rcases hanswer m hm with hnone | hpositive
    · exact hnone
    · exact absurd (decide_eq_true ⟨htarget.trans (congrArg _ hid), hpositive⟩) hnot
  · right
    rw [hfind, Option.map_some, Option.some_or, Option.some.injEq] at hshown
    have hm := List.find?_some hfind
    simp only [decide_eq_true_eq] at hm
    rw [latestPositive, hfind, Option.map_some, ← hshown, Measurement.pingTime, hm.1]

/-- A pro user whose measurements are all of datacenters, none of them 0, is given the best one. -/
theorem kept_of_datacenters (pro : ℤ → Bool)
    (hall : ∀ m ∈ history, ∃ id, m.target = .datacenter id)
    (hanswer : ∀ m ∈ history, m.latency = -1 ∨ 0 < m.latency) : Kept pro false history := by
  rw [Kept]
  have hmeasured : ∀ {id time : ℤ}, 0 < time → Measured false ⟨id, time, false, true⟩ :=
    fun hpositive ↦ ⟨by simp only; omega, rfl, nofun⟩
  rcases lowestPingId_cases false history with
    ⟨hresult, hnone | ⟨id, row, hshown, hrow, hle⟩⟩ |
      ⟨id, hresult, row, hshown, hpositive, -, hleast, -⟩
  · rw [hresult]
    intro id _
    rcases hlatest : latestPositive history id with _ | time
    · rfl
    · obtain ⟨hpositive, hshown⟩ := shown_of_latestPositive hall hlatest
      exact absurd (hmeasured hpositive) (hnone id _ hshown)
  · rcases latestPositive_of_shown hall hanswer hshown with hfailed | hlatest
    · exact absurd hfailed hrow.1
    · exact absurd (shown_of_latestPositive hall hlatest).1 (not_lt.mpr hle)
  · rw [hresult]
    have hlatest := (latestPositive_of_shown hall hanswer hshown).resolve_left (by omega)
    refine ⟨nofun, row.pingTime, hlatest, fun other time _ hother ↦ ?_⟩
    obtain ⟨hother', hshown'⟩ := shown_of_latestPositive hall hother
    exact hleast other _ hshown' (hmeasured hother')

end Datacenters

end WindscribeVpn.Repository.LatencyRepository
