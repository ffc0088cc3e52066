import WindscribeVpn.Repository.ServerListRepository
import Mathlib.Data.List.Sort
import Mathlib.Order.Lattice.Nat

/-!
# `LocationRepository`: the location a connect is given

`updateLocation` keeps the selected city while it is available, and otherwise tries three fallbacks
in turn: a city of the same region drawn at random, the city with the lowest recorded ping, and the
best city by time zone. Each has its own notion of a city that can be used, and the last one is
computed once and cached for the life of the process. `createVpnProfileFromCity` then looks the id
up again and throws when the datacenter is gone or has no eligible node.

`Agrees` is the promise that the two fit: an id that `updateLocation` returns for a city location is
one `createVpnProfileFromCity` finds a node for. `not_agrees_lowestPing` is a database that breaks
it: the lowest ping is of a city without nodes. `agrees_iff` says exactly when the promise is kept,
for every database and every history of earlier choices.
-/

set_option autoImplicit false
set_option relaxedAutoImplicit false

namespace WindscribeVpn.Repository.LocationRepository

open ServerListRepository

/-! ### The database -/

/-- The columns of `Datacenter` that the choice of a location reads. -/
structure Datacenter where
  id : ℤ
  regionId : ℤ
  tz : Option String
  deriving DecidableEq, Repr

/-- A row of `PingTime`. -/
structure PingTime where
  pingId : ℤ
  pingTime : ℤ
  isStatic : Bool
  isPro : Bool
  deriving DecidableEq, Repr

/-- The tables, each in the order of its primary key; a location is given by its region. -/
structure Database where
  datacenters : List Datacenter
  locations : List ℤ
  servers : List Server
  pings : List PingTime
  deriving DecidableEq, Repr

/-- `DatacenterAndLocation`; `location` is the region of the related row. -/
structure DatacenterAndLocation where
  datacenter : Datacenter
  location : Option ℤ
  deriving DecidableEq, Repr

/-- `DatacenterDao.getCityByIDAsync`, which throws when there is no row. -/
def Database.getDatacenterByID (db : Database) (id : ℤ) : Option Datacenter :=
  db.datacenters.find? fun city ↦ city.id == id

/-- `DatacenterAndLocationDao.getDatacenterAndLocation`. -/
def Database.getDatacenterAndLocation (db : Database) (id : ℤ) : Option DatacenterAndLocation :=
  (db.getDatacenterByID id).map fun datacenter ↦
    { datacenter, location := db.locations.find? fun region ↦ region == datacenter.regionId }

/-- `getLocationIdFromDatacenterAsync`; Room answers a primitive with 0 when there is no row. -/
def Database.getLocationIdFromDatacenter (db : Database) (id : ℤ) : ℤ :=
  ((db.getDatacenterByID id).map Datacenter.regionId).getD 0

/-- `DatacenterDao.getAllCitiesAsync`. -/
def Database.getAllDatacenters (db : Database) (region : ℤ) : List Datacenter :=
  db.datacenters.filter fun city ↦ city.regionId == region

/-- `ServerDao.getServersByDatacenter`: the nodes that are not being drained, by weight. -/
def Database.getServersByDatacenter (db : Database) (id : ℤ) : List Server :=
  (db.servers.filter fun server ↦ server.datacenterId == id && server.forceDisconnect == 0)
    |>.insertionSort fun a b ↦ b.weight ≤ a.weight

/-- `MIN(ping_time)` over the selected rows, which Room reads as 0 when there are none. -/
def minPing (pings : List PingTime) : ℤ := ((pings.map PingTime.pingTime).min?).getD 0

/-- `PingTimeDao.getLowestPingIdAsync`; `none` when it throws. The minimum is over the rows that are
not static, the id is of the first row with that time. -/
def Database.getLowestPingId (db : Database) (freeUser : Bool) : Option ℤ :=
  let measured := db.pings.filter fun ping ↦ ping.pingTime != -1 && !ping.isStatic
  if freeUser then
    let time := minPing (measured.filter fun ping ↦ !ping.isPro)
    if time ≤ 0 then none
    else
      some (((db.pings.find? fun ping ↦ ping.pingTime == time && !ping.isPro).map
        PingTime.pingId).getD 0)
  else
    let time := minPing measured
    if time ≤ 0 then none
    else some (((db.pings.find? fun ping ↦ ping.pingTime == time).map PingTime.pingId).getD 0)

/-! ### One call -/

/-- `SelectedLocationType`. -/
inductive SelectedLocationType
  | customConfiguredProfile
  | staticIp
  | cityLocation
  deriving DecidableEq, Repr

/-- What one call reads: the database, the preferences, the selected city as the flow has it, the
draw of `random`, and for the choice by time zone the offsets of the zones in minutes and what the
pings come to. `staticIpAvailable` and `configProfileAvailable` are what the lookups for the other
source types find. -/
structure Call where
  db : Database
  isConnectingToConfigured : Bool
  isConnectingToStaticIp : Bool
  selectedCity : ℤ
  preferredCity : ℤ
  freeUser : Bool
  staticIpAvailable : Bool
  configProfileAvailable : Bool
  draw : ℕ
  userTimeZone : String
  offsetMinutes : String → ℤ
  ping : ℤ → ℤ

namespace Call

variable (x : Call)

def currentSourceType : SelectedLocationType :=
  if x.isConnectingToConfigured then .customConfiguredProfile
  else if x.isConnectingToStaticIp then .staticIp
  else .cityLocation

def isCityAvailable (id : ℤ) : Bool :=
  match x.db.getDatacenterAndLocation id with
  | none => false
  | some cityAndRegion =>
    if cityAndRegion.location = none then false
    else !(x.db.getServersByDatacenter cityAndRegion.datacenter.id).isEmpty

def isLocationValid (id : ℤ) : Bool :=
  match x.currentSourceType with
  | .staticIp => x.staticIpAvailable
  | .customConfiguredProfile => x.configProfileAvailable
  | .cityLocation => x.isCityAvailable id

/-- `getSisterLocation`; `none` when it throws. -/
def getSisterLocation : Option ℤ :=
  let region := x.db.getLocationIdFromDatacenter x.preferredCity
  let cities := x.db.getAllDatacenters region
  (cities[x.draw % cities.length]?).bind fun city ↦
    if (x.db.getServersByDatacenter city.id).isEmpty then none else some city.id

/-- `getLowestPingLocation`; `none` when it throws. -/
def getLowestPingLocation : Option ℤ :=
  (x.db.getLowestPingId x.freeUser).bind fun pingId ↦
    (x.db.getDatacenterByID pingId).map Datacenter.id

/-- `CityWithTimeDiff`. -/
structure CityWithTimeDiff where
  city : Datacenter
  timeDiffMinutes : ℕ
  tzScore : ℕ

/-- The time difference and score of a city that has a zone. -/
def withTimeDiff (city : Datacenter) : Option CityWithTimeDiff :=
  city.tz.map fun tz ↦
    { city
      timeDiffMinutes := (x.offsetMinutes x.userTimeZone - x.offsetMinutes tz).natAbs
      tzScore := if tz = x.userTimeZone then 3 else if '/' ∈ tz.toList then 2 else 1 }

/-- The order of the sort: the nearest zone first, then the better score. -/
def CityWithTimeDiff.before (a b : CityWithTimeDiff) : Prop :=
  a.timeDiffMinutes < b.timeDiffMinutes ∨
    a.timeDiffMinutes = b.timeDiffMinutes ∧ b.tzScore ≤ a.tzScore

instance decidableBefore : DecidableRel CityWithTimeDiff.before :=
  fun _ _ ↦ inferInstanceAs (Decidable (_ ∨ _))

/-- `minByOrNull` over the ping results: the first of the smallest. -/
def minByPing : List (Datacenter × ℤ) → Option (Datacenter × ℤ)
  | [] => none
  | first :: rest =>
    some (rest.foldl (fun best result ↦ if result.2 < best.2 then result else best) first)

/-- `pickBestCityId` without its cache; `none` when it throws, which the lookup of a zone does on a
city without one. -/
def pickByTimeZone (cities : List Datacenter) : Option ℤ :=
  if cities = [] then some (-1)
  else if cities.any fun city ↦ city.tz == none then none
  else
    let citiesWithTimezone := cities.filterMap x.withTimeDiff
    let topCitiesToPing := (citiesWithTimezone.insertionSort CityWithTimeDiff.before).take 10
    let pingResults := topCitiesToPing.map fun c ↦ (c.city, x.ping c.city.id)
    let successfulPings := pingResults.filter fun result ↦ 0 ≤ result.2
    match minByPing successfulPings with
    | some best => some best.1.id
    | none => some ((topCitiesToPing.head?.map fun c ↦ c.city.id).getD (-1))

/-- `getRandomLocation` over `pickBestCityId`: the id, and the cache after it. -/
def getRandomLocation (cache : Option ℤ) : ℤ × Option ℤ :=
  match cache with
  | some id => (id, cache)
  | none =>
    let filteredLocations := x.db.datacenters.filter fun city ↦
      !(x.db.getServersByDatacenter city.id).isEmpty
    match x.pickByTimeZone filteredLocations with
    | some bestCityId => (bestCityId, if bestCityId = -1 then none else some bestCityId)
    | none => (-1, none)

/-- The fallbacks that `getAlternativeLocation` and `getBestLocationAsync` share. -/
def getBestLocation (cache : Option ℤ) : ℤ × Option ℤ :=
  match x.getLowestPingLocation with
  | some id => (id, cache)
  | none => x.getRandomLocation cache

/-- `getAlternativeLocation`. -/
def getAlternativeLocation (cache : Option ℤ) : ℤ × Option ℤ :=
  match x.getSisterLocation with
  | some id => (id, cache)
  | none => x.getBestLocation cache

/-- `updateLocation`. -/
def updateLocation (cache : Option ℤ) : ℤ × Option ℤ :=
  if x.isLocationValid x.selectedCity then (x.selectedCity, cache)
  else x.getAlternativeLocation cache

end Call

/-- The head of `createVpnProfileFromCity`, with the texts of its exceptions. -/
def eligibleNodes (db : Database) (selectedCity : ℤ) : Except String (Datacenter × List Server) :=
  match db.getDatacenterAndLocation selectedCity with
  | none => .error s!"City not found in database: {selectedCity}"
  | some cityAndRegion =>
    let city := cityAndRegion.datacenter
    let nodes := (db.getServersByDatacenter city.id).filter fun server ↦
      server.forceDisconnect != 1
    if nodes.isEmpty then .error s!"No eligible node in datacenter: {city.id}"
    else .ok (city, nodes)

/-! ### Histories -/

/-- An earlier use of the repository in this process. -/
inductive Request
  | updateLocation (x : Call)
  | getBestLocation (x : Call)

/-- The cache after a request. -/
def Request.cacheAfter (cache : Option ℤ) : Request → Option ℤ
  | .updateLocation x => (x.updateLocation cache).2
  | .getBestLocation x => (x.getBestLocation cache).2

/-- The cached choice by time zone after a history; a process starts without one. -/
def cacheAfter (history : List Request) : Option ℤ := history.foldl Request.cacheAfter none

/-! ### The promise -/

/-- The datacenter of an id is there and has an eligible node. -/
def Connectable (db : Database) (id : ℤ) : Prop :=
  ∃ city nodes, eligibleNodes db id = .ok (city, nodes) ∧ nodes ≠ []

/-- For a city location, the id that `updateLocation` returns is one that can be connected to. -/
def Agrees (x : Call) (cache : Option ℤ) : Prop :=
  x.currentSourceType = .cityLocation → (x.updateLocation cache).1 ≠ -1 →
    Connectable x.db (x.updateLocation cache).1

/-- The condition: unless the selected city or the sister city that is drawn is available, the city
of the lowest ping has an eligible node when there is one, and the cached choice still has one when
there is not. -/
def Current (x : Call) (cache : Option ℤ) : Prop :=
  x.currentSourceType = .cityLocation → x.isCityAvailable x.selectedCity = false →
    x.getSisterLocation = none →
      match x.getLowestPingLocation with
      | some id => id ≠ -1 → Connectable x.db id
      | none => ∀ id ∈ cache, Connectable x.db id

/-! ### What can be connected to -/

section Connectable

variable (db : Database) (id : ℤ)

/-- A node that the query returns is eligible. -/
theorem forceDisconnect_of_mem {server : Server} (hmem : server ∈ db.getServersByDatacenter id) :
    server.forceDisconnect = 0 := by
  rw [Database.getServersByDatacenter, List.mem_insertionSort, List.mem_filter,
    Bool.and_eq_true, beq_iff_eq, beq_iff_eq] at hmem
  exact hmem.2.2

/-- An id can be connected to when its datacenter is there and the query returns a node. -/
theorem connectable_iff :
    Connectable db id ↔ (db.getDatacenterByID id).isSome = true ∧
      db.getServersByDatacenter id ≠ [] := by
  rw [Connectable, eligibleNodes, Database.getDatacenterAndLocation]
  rcases hcity : db.getDatacenterByID id with _ | city
  · simp
  · have hid : city.id = id := by
      have hfound := List.find?_some hcity
      exact beq_iff_eq.mp hfound
    have hfilter : ((db.getServersByDatacenter city.id).filter fun server ↦
        server.forceDisconnect != 1) = db.getServersByDatacenter city.id := by
      refine List.filter_eq_self.mpr fun server hmem ↦ ?_
      rw [forceDisconnect_of_mem db city.id hmem]
      rfl
    rw [hid] at hfilter
    simp only [Option.map_some, hid, hfilter, Option.isSome_some, true_and]
    rcases db.getServersByDatacenter id with _ | ⟨node, rest⟩ <;> simp

variable {db id}

/-- A datacenter of the table with a node. -/
theorem connectable_of_mem {city : Datacenter} (hmem : city ∈ db.datacenters)
    (hnodes : (db.getServersByDatacenter city.id).isEmpty = false) : Connectable db city.id := by
  refine (connectable_iff db city.id).mpr ⟨?_, ?_⟩
  · exact List.find?_isSome.mpr ⟨city, hmem, beq_self_eq_true city.id⟩
  · rintro hempty
    rw [hempty] at hnodes
    cases hnodes

end Connectable

variable (x : Call)

theorem connectable_of_isCityAvailable {id : ℤ} (havailable : x.isCityAvailable id = true) :
    Connectable x.db id := by
  rw [Call.isCityAvailable, Database.getDatacenterAndLocation] at havailable
  rcases hcity : x.db.getDatacenterByID id with _ | city
  · rw [hcity] at havailable
    cases havailable
  · rw [hcity] at havailable
    simp only [Option.map_some] at havailable
    split_ifs at havailable
    have hmem : city ∈ x.db.datacenters := List.mem_of_find?_eq_some hcity
    have hid : city.id = id := by
      have hfound := List.find?_some hcity
      exact beq_iff_eq.mp hfound
    rw [← hid]
    exact connectable_of_mem hmem (Bool.not_eq_true' _ ▸ havailable)

theorem connectable_of_getSisterLocation {id : ℤ} (hsister : x.getSisterLocation = some id) :
    Connectable x.db id := by
  rw [Call.getSisterLocation, Option.bind_eq_some_iff] at hsister
  obtain ⟨city, hdrawn, hnodes⟩ := hsister
  split_ifs at hnodes with hempty
  obtain rfl := Option.some.inj hnodes
  have hmem := List.mem_of_getElem? hdrawn
  rw [Database.getAllDatacenters, List.mem_filter] at hmem
  exact connectable_of_mem hmem.1 (Bool.not_eq_true _ ▸ hempty)

/-- The smallest ping is one of the results. -/
theorem minByPing_mem {results : List (Datacenter × ℤ)} {best : Datacenter × ℤ}
    (hbest : Call.minByPing results = some best) : best ∈ results := by
  have hfold : ∀ (rest : List (Datacenter × ℤ)) (first : Datacenter × ℤ),
      rest.foldl (fun best result ↦ if result.2 < best.2 then result else best) first ∈
        first :: rest := by
    intro rest
    induction rest with
    | nil => exact fun first ↦ List.mem_singleton_self first
    | cons result rest ih =>
      intro first
      rw [List.foldl_cons]
      split_ifs
      · exact List.mem_cons_of_mem _ (ih result)
      · exact List.cons_subset_cons first (List.subset_cons_self result rest) (ih first)
  cases results with
  | nil => cases hbest
  | cons first rest =>
    rw [← Option.some.inj hbest]
    exact hfold rest first

/-- The choice by time zone is one of the cities it is given. -/
theorem pickByTimeZone_mem {cities : List Datacenter} {id : ℤ}
    (hpick : x.pickByTimeZone cities = some id) (hid : id ≠ -1) :
    ∃ city ∈ cities, city.id = id := by
  rw [Call.pickByTimeZone] at hpick
  split_ifs at hpick with hempty
  · exact absurd (Option.some.inj hpick).symm hid
  · have hcity : ∀ c ∈ ((cities.filterMap x.withTimeDiff).insertionSort
        Call.CityWithTimeDiff.before).take 10, c.city ∈ cities := by
      intro c hc
      have hmem := (List.mem_insertionSort _).mp (List.mem_of_mem_take hc)
      obtain ⟨city, hcities, hdiff⟩ := List.mem_filterMap.mp hmem
      rw [Call.withTimeDiff, Option.map_eq_some_iff] at hdiff
      obtain ⟨tz, -, rfl⟩ := hdiff
      exact hcities
    simp only at hpick
    split at hpick
    next best hbest =>
      obtain rfl := Option.some.inj hpick
      have hmem := minByPing_mem hbest
      obtain ⟨c, hc, rfl⟩ := List.mem_map.mp (List.mem_filter.mp hmem).1
      exact ⟨c.city, hcity c hc, rfl⟩
    next =>
      obtain rfl := Option.some.inj hpick
      rcases hhead : (((cities.filterMap x.withTimeDiff).insertionSort
        Call.CityWithTimeDiff.before).take 10).head? with _ | c
      · rw [hhead] at hid
        exact absurd rfl hid
      · exact ⟨c.city, hcity c (List.mem_of_head? hhead), rfl⟩

/-- A choice by time zone that is not cached yet has a node. -/
theorem connectable_of_getRandomLocation (hid : (x.getRandomLocation none).1 ≠ -1) :
    Connectable x.db (x.getRandomLocation none).1 := by
  rw [Call.getRandomLocation] at hid ⊢
  rcases hpick : x.pickByTimeZone (x.db.datacenters.filter fun city ↦
    !(x.db.getServersByDatacenter city.id).isEmpty) with _ | id
  · simp only [hpick] at hid
    exact absurd rfl hid
  · simp only [hpick] at hid ⊢
    obtain ⟨city, hmem, rfl⟩ := pickByTimeZone_mem x hpick hid
    rw [List.mem_filter, Bool.not_eq_true'] at hmem
    exact connectable_of_mem hmem.1 hmem.2

/-! ### The cache -/

theorem getRandomLocation_cache {cache : Option ℤ} (hcache : cache ≠ some (-1)) :
    (x.getRandomLocation cache).2 ≠ some (-1) := by
  rcases cache with _ | id
  · rw [Call.getRandomLocation]
    rcases x.pickByTimeZone _ with _ | id
    · nofun
    · by_cases hid : id = -1
      · simp [hid]
      · simp [hid]
  · exact hcache

theorem getBestLocation_cache {cache : Option ℤ} (hcache : cache ≠ some (-1)) :
    (x.getBestLocation cache).2 ≠ some (-1) := by
  rw [Call.getBestLocation]
  rcases x.getLowestPingLocation with _ | id
  · exact getRandomLocation_cache x hcache
  · exact hcache

theorem updateLocation_cache {cache : Option ℤ} (hcache : cache ≠ some (-1)) :
    (x.updateLocation cache).2 ≠ some (-1) := by
  rw [Call.updateLocation, Call.getAlternativeLocation]
  split_ifs
  · exact hcache
  · rcases x.getSisterLocation with _ | id
    · exact getBestLocation_cache x hcache
    · exact hcache

/-- No history caches the absence of a choice. -/
theorem cacheAfter_ne (history : List Request) : cacheAfter history ≠ some (-1) := by
  have hrun : ∀ (cache : Option ℤ), cache ≠ some (-1) →
      history.foldl Request.cacheAfter cache ≠ some (-1) := by
    induction history with
    | nil => exact fun cache hcache ↦ hcache
    | cons request rest ih =>
      intro cache hcache
      refine ih _ ?_
      cases request with
      | updateLocation x => exact updateLocation_cache x hcache
      | getBestLocation x => exact getBestLocation_cache x hcache
  exact hrun none nofun

/-! ### When the choice and the node selection agree -/

/-- What `updateLocation` returns when neither the selected nor the sister city is available. -/
theorem updateLocation_of_unavailable (cache : Option ℤ)
    (hcity : x.currentSourceType = .cityLocation)
    (hunavailable : x.isCityAvailable x.selectedCity = false)
    (hsister : x.getSisterLocation = none) :
    x.updateLocation cache = x.getBestLocation cache := by
  rw [Call.updateLocation, Call.isLocationValid, hcity]
  simp only [hunavailable, Bool.false_eq_true, if_false]
  rw [Call.getAlternativeLocation, hsister]

/-- The choice of a location agrees with the node selection exactly when what its fallbacks return
is current, after every history. -/
theorem agrees_iff (history : List Request) (x : Call) :
    Agrees x (cacheAfter history) ↔ Current x (cacheAfter history) := by
  have hnever := cacheAfter_ne history
  constructor
  · intro hagrees hcity hunavailable hsister
    have hbest := updateLocation_of_unavailable x (cacheAfter history) hcity hunavailable hsister
    have hconnects := hagrees hcity
    rw [hbest, Call.getBestLocation] at hconnects
    rcases hping : x.getLowestPingLocation with _ | id
    · simp only [hping] at hconnects
      intro id hid
      rw [Option.mem_def] at hid
      rw [hid] at hconnects
      refine hconnects ?_
      rintro rfl
      exact hnever hid
    · simpa only [hping] using hconnects
  · intro hcurrent hcity hid
    rcases hunavailable : x.isCityAvailable x.selectedCity with _ | _
    · rcases hsister : x.getSisterLocation with _ | sister
      · have hsound := hcurrent hcity hunavailable hsister
        rw [updateLocation_of_unavailable x _ hcity hunavailable hsister] at hid ⊢
        rw [Call.getBestLocation] at hid ⊢
        rcases hping : x.getLowestPingLocation with _ | best
        · simp only [hping] at hid hsound ⊢
          rcases hcache : cacheAfter history with _ | cached
          · rw [hcache] at hid
            exact connectable_of_getRandomLocation x hid
          · exact hsound cached hcache
        · simp only [hping] at hid hsound ⊢
          exact hsound hid
      · have hreturns : x.updateLocation (cacheAfter history) = (sister, cacheAfter history) := by
          rw [Call.updateLocation, Call.isLocationValid, hcity]
          simp only [hunavailable, Bool.false_eq_true, if_false]
          rw [Call.getAlternativeLocation, hsister]
        rw [hreturns]
        exact connectable_of_getSisterLocation x hsister
    · have hreturns : x.updateLocation (cacheAfter history) =
          (x.selectedCity, cacheAfter history) := by
        rw [Call.updateLocation, Call.isLocationValid, hcity]
        exact if_pos hunavailable
      rw [hreturns]
      exact connectable_of_isCityAvailable x hunavailable

/-- The selected city is gone, and the lowest ping that was ever recorded is of a city whose nodes
are all gone. -/
theorem not_agrees_lowestPing :
    ¬ ∀ (history : List Request) (x : Call), Agrees x (cacheAfter history) := by
  intro hpromise
  let x : Call :=
    { db :=
        { datacenters := [⟨87, 3, some "America/Toronto"⟩]
          locations := [3]
          servers := []
          pings := [⟨87, 20, false, false⟩] }
      isConnectingToConfigured := false
      isConnectingToStaticIp := false
      selectedCity := 5
      preferredCity := 5
      freeUser := true
      staticIpAvailable := true
      configProfileAvailable := false
      draw := 0
      userTimeZone := "America/Toronto"
      offsetMinutes := fun _ ↦ -300
      ping := fun _ ↦ -1 }
  have hreturns : (x.updateLocation (cacheAfter [])).1 = 87 := by decide
  have hconnects := hpromise [] x (by decide)
  rw [hreturns, connectable_iff] at hconnects
  exact (hconnects (by decide)).2 (by decide)

end WindscribeVpn.Repository.LocationRepository
