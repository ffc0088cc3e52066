import WindscribeVpn.Backend.LanBypass

/-!
# The interface of a tunnel

`TunConfig` describes the TUN that a host establishes. Two of its functions keep our own package
outside: `blackhole`, which builds the blocking interface from the split tunnel lists of the user,
and `withSelfExcluded`, which changes the interface that is being held.

`CapturesUserApps` says what the two share. The blocking interface captures the apps of the user
without our own and never carries both lists, it captures what `withSelfExcluded` makes of the same
lists, and where `withSelfExcluded` gives up no app is captured that the user left out.
`capturesUserApps_iff` shows that this holds except where the inclusive list names nothing but our
own package: `blackhole` then empties it, and an empty list captures the whole device.
-/

set_option autoImplicit false
set_option relaxedAutoImplicit false

namespace WindscribeVpn.Tunnel

open Backend.LanBypass (InetAddress InetNetwork ipv4Wildcard publicRoutesV4)

/-- `TunConfig`. -/
structure TunConfig where
  sessionName : String
  addresses : List InetNetwork
  routes : List InetNetwork
  dnsServers : List InetAddress
  searchDomains : List String
  mtu : ℤ
  allowedApps : List String
  disallowedApps : List String
  allowAllFamilies : Bool
  deriving DecidableEq, Repr

namespace TunConfig

/-- `withSelfExcluded`. -/
def withSelfExcluded (config : TunConfig) (selfPackage : String) : Option TunConfig :=
  if config.allowedApps.isEmpty then
    some { config with disallowedApps := (config.disallowedApps ++ [selfPackage]).eraseDups }
  else
    let remaining := config.allowedApps.filter fun app ↦ !(app == selfPackage)
    if remaining.isEmpty then none else some { config with allowedApps := remaining }

/-- `blackhole`. -/
def blackhole (sessionName : String) (addresses : List InetNetwork) (mtu : ℤ) (lanBypass : Bool)
    (allowedApps disallowedApps : List String) (selfPackage : Option String) : TunConfig :=
  let inclusive := !allowedApps.isEmpty
  { sessionName
    addresses
    routes := if lanBypass then publicRoutesV4 else [ipv4Wildcard]
    dnsServers := []
    searchDomains := []
    mtu
    allowedApps :=
      if inclusive then allowedApps.filter fun app ↦ !(some app == selfPackage) else []
    disallowedApps :=
      if inclusive then [] else (disallowedApps ++ selfPackage.toList).eraseDups
    allowAllFamilies := false }

/-! ### What the lists capture -/

/-- The apps that two split tunnel lists capture: the members of the inclusive list, or everything
but the members of the exclusive one when the inclusive list is empty. -/
def Captured (allowedApps disallowedApps : List String) (app : String) : Prop :=
  if allowedApps = [] then app ∉ disallowedApps else app ∈ allowedApps

/-- The apps that an interface captures, as `VpnService.Builder` reads it. -/
def CapturesApp (config : TunConfig) (app : String) : Prop :=
  Captured config.allowedApps config.disallowedApps app

instance (allowedApps disallowedApps : List String) (app : String) :
    Decidable (Captured allowedApps disallowedApps app) :=
  inferInstanceAs (Decidable (if allowedApps = [] then app ∉ disallowedApps else app ∈ allowedApps))

instance (config : TunConfig) (app : String) : Decidable (config.CapturesApp app) :=
  inferInstanceAs (Decidable (Captured _ _ _))

/-- What the blocking interface and the exclusion of our own package are to agree on. -/
structure CapturesUserApps (allowedApps disallowedApps : List String) (selfPackage : String)
    (blocking : TunConfig) : Prop where
  /-- The apps of the user without our own. -/
  exact : ∀ app, blocking.CapturesApp app ↔
    Captured allowedApps disallowedApps app ∧ app ≠ selfPackage
  /-- Never both lists. -/
  oneList : blocking.allowedApps = [] ∨ blocking.disallowedApps = []
  /-- The interface that `withSelfExcluded` makes of the same lists captures the same apps. -/
  agrees : ∀ live : TunConfig, live.allowedApps = allowedApps →
    live.disallowedApps = disallowedApps → ∀ excluded,
    live.withSelfExcluded selfPackage = some excluded →
    ∀ app, blocking.CapturesApp app ↔ excluded.CapturesApp app
  /-- Where `withSelfExcluded` gives up, no app is captured that the user left out. -/
  inexpressible : ∀ live : TunConfig, live.allowedApps = allowedApps →
    live.disallowedApps = disallowedApps → live.withSelfExcluded selfPackage = none →
    ∀ app, blocking.CapturesApp app → Captured allowedApps disallowedApps app

/-- The inclusive list names our own package and nothing else. -/
def OnlySelf (allowedApps : List String) (selfPackage : String) : Prop :=
  allowedApps ≠ [] ∧ ∀ app ∈ allowedApps, app = selfPackage

instance (allowedApps : List String) (selfPackage : String) :
    Decidable (OnlySelf allowedApps selfPackage) :=
  inferInstanceAs (Decidable (_ ∧ _))

/-! ### The two functions on the lists -/

variable {allowedApps disallowedApps : List String} {selfPackage app : String}

theorem captured_exclusive : Captured [] disallowedApps app ↔ app ∉ disallowedApps := by
  rw [Captured, if_pos rfl]

theorem captured_inclusive (hne : allowedApps ≠ []) :
    Captured allowedApps disallowedApps app ↔ app ∈ allowedApps := by
  rw [Captured, if_neg hne]

/-- The inclusive list without our own package. -/
def others (allowedApps : List String) (selfPackage : String) : List String :=
  allowedApps.filter fun app ↦ !(app == selfPackage)

theorem mem_others : app ∈ others allowedApps selfPackage ↔
    app ∈ allowedApps ∧ app ≠ selfPackage := by
  simp [others]

theorem others_eq_nil : others allowedApps selfPackage = [] ↔
    ∀ app ∈ allowedApps, app = selfPackage := by
  rw [others, List.filter_eq_nil_iff]
  simp

/-- The exclusive list with our own package, each app once. -/
theorem mem_withSelf : app ∈ (disallowedApps ++ [selfPackage]).eraseDups ↔
    app ∈ disallowedApps ∨ app = selfPackage := by
  rw [List.mem_eraseDups, List.mem_append, List.mem_singleton]

section Blocking

variable (sessionName : String) (addresses : List InetNetwork) (mtu : ℤ) (lanBypass : Bool)

theorem blackhole_exclusive : (blackhole sessionName addresses mtu lanBypass [] disallowedApps
      (some selfPackage)).CapturesApp app ↔ app ∉ disallowedApps ∧ app ≠ selfPackage := by
  change Captured [] (disallowedApps ++ [selfPackage]).eraseDups app ↔ _
  rw [captured_exclusive, mem_withSelf, not_or]

theorem blackhole_allowedApps (hne : allowedApps ≠ []) :
    (blackhole sessionName addresses mtu lanBypass allowedApps disallowedApps
      (some selfPackage)).allowedApps = others allowedApps selfPackage := by
  simp [blackhole, hne, others]

theorem blackhole_disallowedApps (hne : allowedApps ≠ []) :
    (blackhole sessionName addresses mtu lanBypass allowedApps disallowedApps
      (some selfPackage)).disallowedApps = [] := by
  simp [blackhole, hne]

theorem blackhole_inclusive (hne : allowedApps ≠ [])
    (hothers : others allowedApps selfPackage ≠ []) :
    (blackhole sessionName addresses mtu lanBypass allowedApps disallowedApps
      (some selfPackage)).CapturesApp app ↔ app ∈ allowedApps ∧ app ≠ selfPackage := by
  rw [CapturesApp, blackhole_allowedApps _ _ _ _ hne, captured_inclusive hothers, mem_others]

/-- With nothing left in the inclusive list the whole device is captured. -/
theorem blackhole_onlySelf (honly : OnlySelf allowedApps selfPackage) :
    (blackhole sessionName addresses mtu lanBypass allowedApps disallowedApps
      (some selfPackage)).CapturesApp app := by
  rw [CapturesApp, blackhole_allowedApps _ _ _ _ honly.1, others_eq_nil.mpr honly.2,
    captured_exclusive, blackhole_disallowedApps _ _ _ _ honly.1]
  exact List.not_mem_nil

end Blocking

theorem withSelfExcluded_exclusive {live : TunConfig} (hallowed : live.allowedApps = []) :
    live.withSelfExcluded selfPackage =
      some { live with disallowedApps := (live.disallowedApps ++ [selfPackage]).eraseDups } := by
  simp [withSelfExcluded, hallowed]

theorem withSelfExcluded_inclusive {live : TunConfig} (hne : live.allowedApps ≠ []) :
    live.withSelfExcluded selfPackage =
      if others live.allowedApps selfPackage = [] then none
      else some { live with allowedApps := others live.allowedApps selfPackage } := by
  simp [withSelfExcluded, hne, others]

/-- `withSelfExcluded` gives up exactly where the inclusive list names nothing but our package. -/
theorem withSelfExcluded_eq_none {live : TunConfig} :
    live.withSelfExcluded selfPackage = none ↔ OnlySelf live.allowedApps selfPackage := by
  by_cases hallowed : live.allowedApps = []
  · rw [withSelfExcluded_exclusive hallowed]
    simp [OnlySelf, hallowed]
  · rw [withSelfExcluded_inclusive hallowed, OnlySelf, ← others_eq_nil]
    by_cases hothers : others live.allowedApps selfPackage = []
    · simp [hothers, hallowed]
    · simp [hothers]

/-- What `withSelfExcluded` makes of an interface captures what the interface captured, without our
own package. -/
theorem withSelfExcluded_captures {live excluded : TunConfig}
    (hexcluded : live.withSelfExcluded selfPackage = some excluded) :
    excluded.CapturesApp app ↔ live.CapturesApp app ∧ app ≠ selfPackage := by
  by_cases hallowed : live.allowedApps = []
  · rw [withSelfExcluded_exclusive hallowed] at hexcluded
    obtain rfl := Option.some.inj hexcluded
    rw [CapturesApp, CapturesApp, hallowed, captured_exclusive, captured_exclusive, mem_withSelf,
      not_or]
  · rw [withSelfExcluded_inclusive hallowed] at hexcluded
    by_cases hothers : others live.allowedApps selfPackage = []
    · rw [if_pos hothers] at hexcluded
      cases hexcluded
    · rw [if_neg hothers] at hexcluded
      obtain rfl := Option.some.inj hexcluded
      rw [CapturesApp, CapturesApp, captured_inclusive hothers, captured_inclusive hallowed,
        mem_others]

/-! ### Where the two agree -/

/-- The blocking interface captures the apps of the user without our own unless the inclusive list
names nothing else. -/
theorem blackhole_captures (sessionName : String) (addresses : List InetNetwork) (mtu : ℤ)
    (lanBypass : Bool) (honly : ¬ OnlySelf allowedApps selfPackage) :
    (blackhole sessionName addresses mtu lanBypass allowedApps disallowedApps
      (some selfPackage)).CapturesApp app ↔
      Captured allowedApps disallowedApps app ∧ app ≠ selfPackage := by
  by_cases hallowed : allowedApps = []
  · subst hallowed
    rw [blackhole_exclusive, captured_exclusive]
  · have hothers : others allowedApps selfPackage ≠ [] :=
      fun hnil ↦ honly ⟨hallowed, others_eq_nil.mp hnil⟩
    rw [blackhole_inclusive _ _ _ _ hallowed hothers, captured_inclusive hallowed]

/-- The blocking interface never carries both lists. -/
theorem blackhole_oneList (sessionName : String) (addresses : List InetNetwork) (mtu : ℤ)
    (lanBypass : Bool) (allowedApps disallowedApps : List String) (selfPackage : Option String) :
    (blackhole sessionName addresses mtu lanBypass allowedApps disallowedApps
        selfPackage).allowedApps = [] ∨
      (blackhole sessionName addresses mtu lanBypass allowedApps disallowedApps
        selfPackage).disallowedApps = [] := by
  by_cases hallowed : allowedApps = []
  · exact Or.inl (by simp [blackhole, hallowed])
  · exact Or.inr (by simp [blackhole, hallowed])

/-- Some app is not ours. -/
theorem exists_other_app (selfPackage : String) : ∃ app : String, app ≠ selfPackage :=
  ⟨selfPackage ++ "x", fun h ↦ by simpa using congrArg String.length h⟩

/-- The blocking interface captures the apps of the user, and agrees with the exclusion of our own
package, exactly where the inclusive list does not name our package alone. -/
theorem capturesUserApps_iff (sessionName : String) (addresses : List InetNetwork) (mtu : ℤ)
    (lanBypass : Bool) (allowedApps disallowedApps : List String) (selfPackage : String) :
    CapturesUserApps allowedApps disallowedApps selfPackage
        (blackhole sessionName addresses mtu lanBypass allowedApps disallowedApps
          (some selfPackage)) ↔
      ¬ OnlySelf allowedApps selfPackage := by
  constructor
  · intro hcaptures honly
    obtain ⟨app, hother⟩ := exists_other_app selfPackage
    have hlisted := ((hcaptures.exact app).mp (blackhole_onlySelf _ _ _ _ honly)).1
    rw [captured_inclusive honly.1] at hlisted
    exact hother (honly.2 app hlisted)
  · intro honly
    refine ⟨fun app ↦ blackhole_captures _ _ _ _ honly, blackhole_oneList .., ?_, ?_⟩
    · rintro live rfl rfl excluded hexcluded app
      rw [blackhole_captures _ _ _ _ honly, withSelfExcluded_captures hexcluded]
      rfl
    · rintro live rfl rfl hnone
      exact absurd (withSelfExcluded_eq_none.mp hnone) honly

/-- An inclusive list with our own package alone: `withSelfExcluded` says that it cannot be
expressed, and the blocking interface captures every app. -/
theorem not_capturesUserApps_onlySelf :
    ¬ ∀ (sessionName : String) (addresses : List InetNetwork) (mtu : ℤ) (lanBypass : Bool)
      (allowedApps disallowedApps : List String) (selfPackage : String),
      CapturesUserApps allowedApps disallowedApps selfPackage
        (blackhole sessionName addresses mtu lanBypass allowedApps disallowedApps
          (some selfPackage)) := by
  intro hcaptures
  have hblocked := hcaptures "Windscribe" [Backend.LanBypass.network 172 16 252 2 32] 1280 false
    ["com.windscribe.vpn"] [] "com.windscribe.vpn"
  have hbank : Captured ["com.windscribe.vpn"] [] "com.example.bank" :=
    ((hblocked.exact "com.example.bank").mp (by decide)).1
  exact absurd hbank (by decide)

end TunConfig

end WindscribeVpn.Tunnel
