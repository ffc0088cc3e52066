import WindscribeVpn.Repository.ServerListRepository
import Mathlib.Algebra.Order.BigOperators.Group.List
import Mathlib.Data.List.Nodup
import Mathlib.Tactic.Linarith

/-!
# The choice of a node

`Util.getRandomNode` draws a node by weight, and a retry draws until the index is not the one that
was used last. `createVpnProfileFromCity` puts a requested, a forced or a pinned node over the one
that was drawn, and remembers the index that was drawn, requested or forced.

A value of `Math.random()` is a multiple of 2⁻⁵³ below 1, and the counter of the weighted draw is
kept here in units of 2⁻⁵³, so that its arithmetic is exact. The weights are added as `Int`s, which
wrap around. `Drawable` says which nodes some random value leads to, and `exists_drawn_iff` that it
is these.

The code subtracts in double precision. Rounding moves the border between two nodes by a few random
values and does not change which nodes can be drawn.

`PicksWell` is what a draw promises and `RetriesElsewhere` what a call promises after the calls
before it. `not_kept_pinned` breaks the second, since the index that is remembered is not that of
the pinned node, and `not_kept_weightless` the first, with a draw that never leaves the excluded
index. `kept_iff_balanced` says exactly when both are kept, and `retriesElsewhere_of_unpinned` that
the second is as long as the nodes stay the same and none is pinned.
-/

set_option autoImplicit false
set_option relaxedAutoImplicit false

namespace WindscribeVpn.Backend.NodeSelection

open Repository.ServerListRepository

/-! ### The weighted draw -/

/-- A value of `Math.random()`, as its numerator over 2⁵³. -/
structure Random where
  numerator : ℕ
  lt : numerator < 2 ^ 53
  deriving DecidableEq

/-- `sumOf` over the weights, an `Int` of 32 bits. -/
def totalWeight (nodes : List Server) : ℤ := Int.bmod (nodes.map Server.weight).sum (2 ^ 32)

/-- The loop of the draw over the nodes that are left, with the counter in units of 2⁻⁵³. -/
def pick (nodes : List Server) : List Server → ℤ → ℕ
  | [], _ => 0
  | node :: rest, weightCounter =>
    let weightCounter := weightCounter - 2 ^ 53 * node.weight
    if weightCounter ≤ 0 then nodes.idxOf node else pick nodes rest weightCounter

/-- The private `getRandomNode`. -/
def drawn (nodes : List Server) (random : Random) : ℕ :=
  pick nodes nodes (random.numerator * totalWeight nodes)

/-- `getRandomNode` on the random values it is given, or nothing when they are used up while it is
still looping. -/
def getRandomNode (lastUsedIndex attempt : ℤ) (nodes : List Server) : List Random → Option ℕ
  | [] => if nodes.length = 1 then some 0 else none
  | random :: rest =>
    if nodes.length = 1 then some 0
    else if lastUsedIndex = drawn nodes random ∧ 0 < attempt then
      getRandomNode lastUsedIndex attempt nodes rest
    else some (drawn nodes random)

/-! ### The call -/

/-- `isConnectable`. -/
def isConnectable (server : Server) : Bool := server.forceDisconnect != 1

/-- `getHostnamePrefix`. -/
def getHostnamePrefix (fqdn : String) : String :=
  String.ofList (fqdn.toList.takeWhile fun c ↦ c != '.')

/-- `hostnamesMatch`. -/
def hostnamesMatch (hostname1 hostname2 : Option String) : Bool :=
  match hostname1, hostname2 with
  | some first, some second => getHostnamePrefix first == getHostnamePrefix second
  | _, _ => false

/-- What a call of `createVpnProfileFromCity` reads: the servers of the datacenter, the node that is
pinned for it, the attempt, the hostname that is to be used again and the one of the advanced
parameters. -/
structure Call where
  servers : List Server
  pinnedIp : Option String
  attempt : ℤ
  hostname : Option String
  forceNode : Option String
  deriving DecidableEq

/-- The eligible nodes. -/
def Call.nodes (x : Call) : List Server := x.servers.filter isConnectable

/-- The index of the last node with the requested hostname. -/
def Call.requestedIndex (x : Call) : Option ℕ :=
  (List.range x.nodes.length).reverse.find? fun index ↦
    (x.nodes[index]?).any fun node ↦ hostnamesMatch (some node.hostname) x.hostname

/-- `getForcedNodeIndex`, without its -1. -/
def Call.forcedNodeIndex (x : Call) : Option ℕ :=
  x.nodes.findIdx? fun node ↦ hostnamesMatch (some node.hostname) x.forceNode

/-- The pinned node. -/
def Call.pinnedNode (x : Call) : Option Server :=
  x.nodes.find? fun node ↦ hostnamesMatch (some node.hostname) x.pinnedIp

/-- The controller between calls: the index it remembers, and the node of the call before, which the
code does not. -/
structure Controller where
  lastUsedRandomIndex : ℤ
  previous : Option Server
  deriving DecidableEq

/-- The part of `createVpnProfileFromCity` that selects a node: the node, and the index that is
remembered. There is nothing when it throws for want of a node, or is still drawing. -/
def Call.select (x : Call) (lastUsedRandomIndex : ℤ) (draws : List Random) :
    Option (Server × ℕ) :=
  if x.nodes.isEmpty then none
  else
    (getRandomNode lastUsedRandomIndex x.attempt x.nodes draws).bind fun drawnIndex ↦
      let randomIndex := x.forcedNodeIndex.getD (x.requestedIndex.getD drawnIndex)
      (x.nodes[randomIndex]?).map fun node ↦
        (if x.attempt = 0 then x.pinnedNode.getD node else node, randomIndex)

/-- The controller after a call. -/
def Controller.after (s : Controller) (x : Call) (draws : List Random) : Controller :=
  match x.select s.lastUsedRandomIndex draws with
  | some (node, randomIndex) => ⟨randomIndex, some node⟩
  | none => s

/-- The controller after a history of calls for one city, the first one first. -/
def controllerAfter (history : List (Call × List Random)) : Controller :=
  history.foldl (fun s call ↦ s.after call.1 call.2) ⟨0, none⟩

/-! ### The promise -/

/-- What a draw from at least two nodes promises. -/
structure PicksWell (lastUsedIndex attempt : ℤ) (nodes : List Server) : Prop where
  /-- Some random values make it return. -/
  returns : ∃ draws, (getRandomNode lastUsedIndex attempt nodes draws).isSome = true
  valid : ∀ draws index, getRandomNode lastUsedIndex attempt nodes draws = some index →
    index < nodes.length
  /-- The first attempt draws nodes of positive weight, except on the random value 0. -/
  positive : attempt = 0 → (∃ node ∈ nodes, 0 < node.weight) →
    ∀ random : Random, random.numerator ≠ 0 → ∀ draws index,
      getRandomNode lastUsedIndex attempt nodes (random :: draws) = some index →
        ∃ node, nodes[index]? = some node ∧ 0 < node.weight

/-- A retry without a forced or requested hostname uses another node than the call before it, where
there is one. -/
def RetriesElsewhere (s : Controller) (x : Call) : Prop :=
  0 < x.attempt → x.forceNode = none → x.hostname = none → ∀ previous ∈ s.previous,
    (∃ node ∈ x.nodes, node.id ≠ previous.id) →
      ∀ draws node index, x.select s.lastUsedRandomIndex draws = some (node, index) →
        node.id ≠ previous.id

/-- Some random value leads to the node: it is the first one, or it has a weight and the total, as
it wraps around, is more than the weights before it. -/
def Drawable (nodes : List Server) (node : Server) : Prop :=
  ∃ before after, nodes = before ++ node :: after ∧
    (before = [] ∨ 0 < node.weight ∧ (before.map Server.weight).sum < totalWeight nodes)

/-- The condition on a draw: a retry has a node to draw whose index is not excluded, and a first
attempt has a positive total or a first node with a weight. -/
def Balanced (lastUsedIndex attempt : ℤ) (nodes : List Server) : Prop :=
  (0 < attempt → ∃ node, Drawable nodes node ∧ (nodes.idxOf node : ℤ) ≠ lastUsedIndex) ∧
    (attempt = 0 → (∃ node ∈ nodes, 0 < node.weight) →
      0 < totalWeight nodes ∨ ∃ node, nodes.head? = some node ∧ 0 < node.weight)

/-- The condition on a retry: the node of the call before is at the remembered index, or cannot be
drawn. -/
def Remembered (s : Controller) (x : Call) : Prop :=
  0 < x.attempt → x.forceNode = none → x.hostname = none → ∀ previous ∈ s.previous,
    (∃ node ∈ x.nodes, node.id ≠ previous.id) →
      ∀ node, Drawable x.nodes node → node.id = previous.id →
        (x.nodes.idxOf node : ℤ) = s.lastUsedRandomIndex

/-! ### What can be drawn -/

section Draw

variable {nodes rest before after : List Server} {node : Server} {counter : ℤ} {random : Random}

/-- The loop stops at the first node with which the weights reach the counter, or runs through. -/
theorem pick_cases (nodes rest : List Server) (counter : ℤ) :
    (∃ before node after, rest = before ++ node :: after ∧
      pick nodes rest counter = nodes.idxOf node ∧
      counter ≤ 2 ^ 53 * ((before.map Server.weight).sum + node.weight) ∧
      (before = [] ∨ 2 ^ 53 * (before.map Server.weight).sum < counter)) ∨
    pick nodes rest counter = 0 ∧
      (rest = [] ∨ 2 ^ 53 * (rest.map Server.weight).sum < counter) := by
  induction rest generalizing counter with
  | nil => exact Or.inr ⟨rfl, Or.inl rfl⟩
  | cons first rest ih =>
    rw [pick]
    split_ifs with hstop
    · refine Or.inl ⟨[], first, rest, rfl, rfl, ?_, Or.inl rfl⟩
      rw [List.map_nil, List.sum_nil]
      omega
    · rcases ih (counter - 2 ^ 53 * first.weight) with
        ⟨before, node, after, rfl, hpick, hle, hlt⟩ | ⟨hpick, hlt⟩
      · refine Or.inl ⟨first :: before, node, after, rfl, hpick, ?_, Or.inr ?_⟩
        · rw [List.map_cons, List.sum_cons]
          omega
        · rw [List.map_cons, List.sum_cons]
          rcases hlt with rfl | hlt
          · rw [List.map_nil, List.sum_nil]
            omega
          · omega
      · refine Or.inr ⟨hpick, Or.inr ?_⟩
        rw [List.map_cons, List.sum_cons]
        rcases hlt with rfl | hlt
        · rw [List.map_nil, List.sum_nil]
          omega
        · omega

/-- The loop stops at a node with which the weights first reach the counter. -/
theorem pick_of_bounds (hweights : ∀ server ∈ before, 0 ≤ server.weight)
    (hlow : before = [] ∨ 2 ^ 53 * (before.map Server.weight).sum < counter)
    (hhigh : counter ≤ 2 ^ 53 * ((before.map Server.weight).sum + node.weight)) :
    pick nodes (before ++ node :: after) counter = nodes.idxOf node := by
  induction before generalizing counter with
  | nil =>
    rw [List.map_nil, List.sum_nil] at hhigh
    rw [List.nil_append, pick]
    exact if_pos (by omega)
  | cons first before ih =>
    obtain ⟨-, hrest⟩ := List.forall_mem_cons.mp hweights
    have hsum : 0 ≤ (before.map Server.weight).sum := by
      refine List.sum_nonneg fun weight hmem ↦ ?_
      obtain ⟨server, hserver, rfl⟩ := List.mem_map.mp hmem
      exact hrest server hserver
    rw [List.map_cons, List.sum_cons] at hlow hhigh
    have hcounter := hlow.resolve_left (List.cons_ne_nil _ _)
    rw [List.cons_append, pick, if_neg (by omega)]
    exact ih hrest (Or.inr (by omega)) (by omega)

theorem sum_nonneg (hweights : ∀ server ∈ nodes, 0 ≤ server.weight) :
    0 ≤ (nodes.map Server.weight).sum := by
  refine List.sum_nonneg fun weight hmem ↦ ?_
  obtain ⟨server, hserver, rfl⟩ := List.mem_map.mp hmem
  exact hweights server hserver

/-- Where the total wraps around, it is less than the sum. -/
theorem totalWeight_le (hweights : ∀ server ∈ nodes, 0 ≤ server.weight) :
    totalWeight nodes ≤ (nodes.map Server.weight).sum := by
  have hsum := sum_nonneg hweights
  rw [totalWeight, Int.bmod_def]
  split_ifs <;> omega

theorem totalWeight_lt (nodes : List Server) : totalWeight nodes < 2 ^ 31 := by
  rw [totalWeight, Int.bmod_def]
  split_ifs <;> omega

/-- A draw starts below the total. -/
theorem counter_lt (random : Random) (htotal : 0 < totalWeight nodes) :
    random.numerator * totalWeight nodes < 2 ^ 53 * totalWeight nodes := by
  have hlt : (random.numerator : ℤ) < 2 ^ 53 := by exact_mod_cast random.lt
  exact mul_lt_mul_of_pos_right hlt htotal

/-- What is drawn can be drawn. -/
theorem drawable_of_drawn (hweights : ∀ server ∈ nodes, 0 ≤ server.weight) (hnodes : nodes ≠ [])
    (random : Random) :
    ∃ node, Drawable nodes node ∧ nodes.idxOf node = drawn nodes random := by
  rcases pick_cases nodes nodes (random.numerator * totalWeight nodes) with
    ⟨before, node, after, heq, hpick, hle, rfl | hlt⟩ | ⟨hpick, -⟩
  · exact ⟨node, ⟨[], after, heq, Or.inl rfl⟩, hpick.symm⟩
  · have hbefore : 0 ≤ (before.map Server.weight).sum := by
      refine sum_nonneg fun server hserver ↦ hweights server ?_
      rw [heq]
      exact List.mem_append_left _ hserver
    have hcounter : 0 < random.numerator * totalWeight nodes := by omega
    have htotal : 0 < totalWeight nodes :=
      pos_of_mul_pos_right hcounter (Int.natCast_nonneg _)
    have hstart := counter_lt random htotal
    exact ⟨node, ⟨before, after, heq, Or.inr ⟨by omega, by omega⟩⟩, hpick.symm⟩
  · obtain ⟨first, rest, rfl⟩ := List.exists_cons_of_ne_nil hnodes
    refine ⟨first, ⟨[], rest, rfl, Or.inl rfl⟩, ?_⟩
    rw [drawn, hpick, List.idxOf_cons_self]

/-- What can be drawn is drawn on some random value. -/
theorem exists_drawn (hweights : ∀ server ∈ nodes, 0 ≤ server.weight)
    (hdrawable : Drawable nodes node) : ∃ random, drawn nodes random = nodes.idxOf node := by
  obtain ⟨before, after, heq, hreach⟩ := hdrawable
  have hbefore : ∀ server ∈ before, 0 ≤ server.weight := fun server hserver ↦ by
    refine hweights server ?_
    rw [heq]
    exact List.mem_append_left _ hserver
  have hweight : 0 ≤ node.weight := hweights node (by rw [heq]; simp)
  have hpick : ∀ counter, (before = [] ∨ 2 ^ 53 * (before.map Server.weight).sum < counter) →
      counter ≤ 2 ^ 53 * ((before.map Server.weight).sum + node.weight) →
      pick nodes nodes counter = nodes.idxOf node := by
    intro counter hlow hhigh
    nth_rewrite 2 [heq]
    exact pick_of_bounds hbefore hlow hhigh
  rcases hreach with rfl | ⟨hpositive, hlt⟩
  · refine ⟨⟨0, by norm_num⟩, hpick _ (Or.inl rfl) ?_⟩
    rw [List.map_nil, List.sum_nil]
    push_cast
    omega
  · -- The first multiple of the total beyond the weights before the node.
    have hsum := sum_nonneg hbefore
    have htotal : 0 < totalWeight nodes := lt_of_le_of_lt hsum hlt
    have hbound := totalWeight_lt nodes
    have hfloor := Int.ediv_mul_le (2 ^ 53 * (before.map Server.weight).sum) htotal.ne'
    have hceil := Int.lt_ediv_add_one_mul_self (2 ^ 53 * (before.map Server.weight).sum) htotal
    have hquotient : 0 ≤ 2 ^ 53 * (before.map Server.weight).sum / totalWeight nodes :=
      Int.ediv_nonneg (by omega) htotal.le
    generalize 2 ^ 53 * (before.map Server.weight).sum / totalWeight nodes = quotient
      at hfloor hceil hquotient
    have hsmall : quotient + 1 < 2 ^ 53 := by
      by_contra hnot
      have hlarge : (2 ^ 53 - 1) * totalWeight nodes ≤ quotient * totalWeight nodes :=
        mul_le_mul_of_nonneg_right (by omega) htotal.le
      omega
    refine ⟨⟨(quotient + 1).toNat, by omega⟩, hpick _ (Or.inr ?_) ?_⟩
    · rw [Int.toNat_of_nonneg (by omega)]
      exact hceil
    · rw [Int.toNat_of_nonneg (by omega), add_mul]
      omega

/-- Some random value leads to the nodes that can be drawn, and none to another. -/
theorem exists_drawn_iff (hweights : ∀ server ∈ nodes, 0 ≤ server.weight) (hnodes : nodes ≠ [])
    (index : ℕ) :
    (∃ random, drawn nodes random = index) ↔
      ∃ node, Drawable nodes node ∧ nodes.idxOf node = index := by
  constructor
  · rintro ⟨random, rfl⟩
    exact drawable_of_drawn hweights hnodes random
  · rintro ⟨node, hdrawable, rfl⟩
    exact exists_drawn hweights hdrawable

theorem Drawable.mem (hdrawable : Drawable nodes node) : node ∈ nodes := by
  obtain ⟨before, after, rfl, -⟩ := hdrawable
  exact List.mem_append_right _ List.mem_cons_self

theorem Drawable.getElem? (hdrawable : Drawable nodes node) :
    nodes[nodes.idxOf node]? = some node := List.getElem?_idxOf hdrawable.mem

end Draw

/-! ### When a draw returns and what it returns -/

section Draws

variable {lastUsedIndex attempt : ℤ} {nodes : List Server} {index : ℕ}

/-- What is returned from at least two nodes is drawn on some value, and is not excluded. -/
theorem getRandomNode_eq_some (hlength : nodes.length ≠ 1) {draws : List Random}
    (hindex : getRandomNode lastUsedIndex attempt nodes draws = some index) :
    ∃ random, drawn nodes random = index ∧ (0 < attempt → (index : ℤ) ≠ lastUsedIndex) := by
  induction draws with
  | nil =>
    rw [getRandomNode, if_neg hlength] at hindex
    cases hindex
  | cons random rest ih =>
    rw [getRandomNode, if_neg hlength] at hindex
    split_ifs at hindex with hexcluded
    · exact ih hindex
    · obtain rfl := Option.some.inj hindex
      exact ⟨random, rfl, fun hattempt hsame ↦ hexcluded ⟨hsame.symm, hattempt⟩⟩

/-- A value whose index is not excluded makes the loop return it. -/
theorem getRandomNode_singleton (hlength : nodes.length ≠ 1) {random : Random}
    (hallowed : 0 < attempt → (drawn nodes random : ℤ) ≠ lastUsedIndex) (draws : List Random) :
    getRandomNode lastUsedIndex attempt nodes (random :: draws) = some (drawn nodes random) := by
  rw [getRandomNode, if_neg hlength, if_neg]
  rintro ⟨hsame, hattempt⟩
  exact hallowed hattempt hsame.symm

variable (hweights : ∀ server ∈ nodes, 0 ≤ server.weight) (hnodes : 2 ≤ nodes.length)
include hweights hnodes

/-- The loop can return exactly if a node can be drawn whose index is not excluded. -/
theorem returns_iff :
    (∃ draws, (getRandomNode lastUsedIndex attempt nodes draws).isSome = true) ↔
      (0 < attempt → ∃ node, Drawable nodes node ∧ (nodes.idxOf node : ℤ) ≠ lastUsedIndex) := by
  have hlength : nodes.length ≠ 1 := by omega
  have hne : nodes ≠ [] := List.ne_nil_of_length_pos (by omega)
  constructor
  · rintro ⟨draws, hsome⟩ hattempt
    obtain ⟨index, hindex⟩ := Option.isSome_iff_exists.mp hsome
    obtain ⟨random, rfl, hallowed⟩ := getRandomNode_eq_some hlength hindex
    obtain ⟨node, hdrawable, hidx⟩ := drawable_of_drawn hweights hne random
    rw [← hidx] at hallowed
    exact ⟨node, hdrawable, hallowed hattempt⟩
  · intro hallowed
    by_cases hattempt : 0 < attempt
    · obtain ⟨node, hdrawable, hidx⟩ := hallowed hattempt
      obtain ⟨random, hrandom⟩ := exists_drawn hweights hdrawable
      rw [← hrandom] at hidx
      exact ⟨[random], by rw [getRandomNode_singleton hlength (fun _ ↦ hidx)]; rfl⟩
    · refine ⟨[⟨0, by norm_num⟩], ?_⟩
      rw [getRandomNode_singleton hlength (fun hretry ↦ absurd hretry hattempt)]
      rfl

omit hnodes in
/-- With a positive total, a value other than 0 leads to a node of positive weight. -/
theorem weight_pos_of_total (htotal : 0 < totalWeight nodes) {random : Random}
    (hrandom : random.numerator ≠ 0) :
    ∃ node, nodes[drawn nodes random]? = some node ∧ 0 < node.weight := by
  have hstart := counter_lt random htotal
  have hcounter : 0 < random.numerator * totalWeight nodes :=
    mul_pos (by exact_mod_cast Nat.pos_of_ne_zero hrandom) htotal
  have hle := totalWeight_le hweights
  rcases pick_cases nodes nodes (random.numerator * totalWeight nodes) with
    ⟨before, node, after, heq, hpick, hle, hlt⟩ | ⟨-, rfl | hlt⟩
  · have hmem : node ∈ nodes := by
      rw [heq]
      exact List.mem_append_right _ List.mem_cons_self
    refine ⟨node, ?_, ?_⟩
    · rw [drawn, hpick]
      exact List.getElem?_idxOf hmem
    · rcases hlt with rfl | hlt
      · rw [List.map_nil, List.sum_nil] at hle
        omega
      · omega
  · rw [totalWeight, List.map_nil, List.sum_nil] at htotal
    exact absurd htotal (by decide)
  · omega

omit hweights hnodes in
/-- Without a positive total every value leads to the first node that has a weight of 0 or more. -/
theorem drawn_of_total {first : Server} {rest : List Server} (hfirst : 0 ≤ first.weight)
    (htotal : totalWeight (first :: rest) ≤ 0) (random : Random) :
    drawn (first :: rest) random = 0 := by
  have hcounter : random.numerator * totalWeight (first :: rest) ≤ 0 :=
    mul_nonpos_of_nonneg_of_nonpos (Int.natCast_nonneg _) htotal
  rw [drawn, pick, if_pos (by omega), List.idxOf_cons_self]

/-- A draw from at least two nodes keeps its promise exactly when it is balanced. -/
theorem picksWell_iff :
    PicksWell lastUsedIndex attempt nodes ↔ Balanced lastUsedIndex attempt nodes := by
  have hlength : nodes.length ≠ 1 := by omega
  have hne : nodes ≠ [] := List.ne_nil_of_length_pos (by omega)
  obtain ⟨first, rest, hcons⟩ := List.exists_cons_of_ne_nil hne
  have hfirst : 0 ≤ first.weight := hweights first (by rw [hcons]; exact List.mem_cons_self)
  rw [Balanced, ← returns_iff hweights hnodes]
  constructor
  · rintro ⟨hreturns, -, hpositive⟩
    refine ⟨hreturns, fun hattempt hsome ↦ or_iff_not_imp_left.mpr fun htotal ↦ ?_⟩
    have hdraw : drawn nodes ⟨1, by norm_num⟩ = 0 := by
      rw [hcons] at htotal ⊢
      exact drawn_of_total hfirst (not_lt.mp htotal) _
    obtain ⟨node, hnode, hweight⟩ :=
        hpositive hattempt hsome ⟨1, by norm_num⟩ one_ne_zero [] 0 <| by
      rw [getRandomNode_singleton hlength (by omega), hdraw]
    exact ⟨node, by rw [List.head?_eq_getElem?, hnode], hweight⟩
  · rintro ⟨hreturns, hbalanced⟩
    refine ⟨hreturns, fun draws index hindex ↦ ?_,
      fun hattempt hsome random hrandom draws index hindex ↦ ?_⟩
    · obtain ⟨random, rfl, -⟩ := getRandomNode_eq_some hlength hindex
      obtain ⟨node, hdrawable, hidx⟩ := drawable_of_drawn hweights hne random
      rw [← hidx]
      exact List.idxOf_lt_length_of_mem hdrawable.mem
    · rw [getRandomNode_singleton hlength (by omega), Option.some.injEq] at hindex
      subst hindex
      by_cases htotal : 0 < totalWeight nodes
      · exact weight_pos_of_total hweights htotal hrandom
      · obtain ⟨node, hhead, hweight⟩ := (hbalanced hattempt hsome).resolve_left htotal
        refine ⟨node, ?_, hweight⟩
        rw [hcons] at htotal hhead ⊢
        rw [drawn_of_total hfirst (not_lt.mp htotal)]
        exact hhead

end Draws

/-! ### When a retry uses another node -/

section Retry

variable {s : Controller} {x : Call}

/-- Without a hostname, and beyond the first attempt, the node that is used is the one drawn. -/
theorem Call.select_eq_some (hattempt : 0 < x.attempt) (hforce : x.forceNode = none)
    (hhostname : x.hostname = none) {last : ℤ} {draws : List Random} {node : Server} {index : ℕ} :
    x.select last draws = some (node, index) ↔
      getRandomNode last x.attempt x.nodes draws = some index ∧ x.nodes[index]? = some node := by
  have hforced : x.forcedNodeIndex = none := by
    rw [Call.forcedNodeIndex, hforce, List.findIdx?_eq_none_iff]
    exact fun _ _ ↦ rfl
  have hrequested : x.requestedIndex = none := by
    rw [Call.requestedIndex, hhostname, List.find?_eq_none]
    intro index _
    rcases x.nodes[index]? with _ | node <;> exact Bool.false_ne_true
  by_cases hempty : x.nodes.isEmpty = true
  · rw [Call.select, if_pos hempty, List.isEmpty_iff.mp hempty, List.getElem?_nil]
    simp
  · rw [Call.select, if_neg hempty, hforced, hrequested, Option.bind_eq_some_iff]
    simp only [if_neg hattempt.ne', Option.getD_none, Option.map_eq_some_iff, Prod.mk.injEq]
    constructor
    · rintro ⟨drawnIndex, hdrawn, used, hused, rfl, rfl⟩
      exact ⟨hdrawn, hused⟩
    · rintro ⟨hdrawn, hnode⟩
      exact ⟨index, hdrawn, node, hnode, rfl, rfl⟩

/-- A retry uses another node exactly when the index it remembers is that of the node that was
used. -/
theorem retriesElsewhere_iff (hservers : ∀ server ∈ x.servers, 0 ≤ server.weight) :
    RetriesElsewhere s x ↔ Remembered s x := by
  have hweights : ∀ server ∈ x.nodes, 0 ≤ server.weight :=
    fun server hmem ↦ hservers server (List.mem_of_mem_filter hmem)
  constructor
  · intro hpromise hattempt hforce hhostname previous hprevious hother node hdrawable hsame
    by_contra hidx
    have hlength : x.nodes.length ≠ 1 := by
      intro hone
      obtain ⟨only, honly⟩ := List.length_eq_one_iff.mp hone
      obtain ⟨other, hmem, hne⟩ := hother
      have hnode := hdrawable.mem
      rw [honly, List.mem_singleton] at hmem hnode
      rw [hmem, ← hnode] at hne
      exact hne hsame
    obtain ⟨random, hrandom⟩ := exists_drawn hweights hdrawable
    refine hpromise hattempt hforce hhostname previous hprevious hother [random] node
      (x.nodes.idxOf node) ?_ hsame
    rw [Call.select_eq_some hattempt hforce hhostname, ← hrandom]
    rw [← hrandom] at hidx
    refine ⟨getRandomNode_singleton hlength (fun _ ↦ hidx) [], ?_⟩
    rw [hrandom]
    exact hdrawable.getElem?
  · intro hremembered hattempt hforce hhostname previous hprevious hother draws node index hselect
      hsame
    obtain ⟨hindex, hnode⟩ := (Call.select_eq_some hattempt hforce hhostname).mp hselect
    have hmem : node ∈ x.nodes := List.mem_of_getElem? hnode
    by_cases hlength : x.nodes.length = 1
    · obtain ⟨only, honly⟩ := List.length_eq_one_iff.mp hlength
      obtain ⟨other, hotherMem, hne⟩ := hother
      rw [honly, List.mem_singleton] at hmem hotherMem
      rw [hotherMem, ← hmem] at hne
      exact hne hsame
    · obtain ⟨random, rfl, hallowed⟩ := getRandomNode_eq_some hlength hindex
      obtain ⟨used, hdrawable, hidx⟩ :=
        drawable_of_drawn hweights (List.ne_nil_of_mem hmem) random
      have hused := hdrawable.getElem?
      rw [hidx, hnode, Option.some.injEq] at hused
      subst hused
      refine hallowed hattempt ?_
      rw [← hidx]
      exact hremembered hattempt hforce hhostname previous hprevious hother node hdrawable hsame

end Retry

/-! ### When both promises are kept -/

/-- After every history of calls the draw and the call keep their promises exactly when the draw is
balanced and the node of the call before is at the remembered index. -/
theorem kept_iff_balanced (history : List (Call × List Random)) (x : Call)
    (lastUsedIndex attempt : ℤ) (nodes : List Server) (hnodes : 2 ≤ nodes.length)
    (hweights : ∀ server ∈ nodes, 0 ≤ server.weight)
    (hservers : ∀ server ∈ x.servers, 0 ≤ server.weight) :
    PicksWell lastUsedIndex attempt nodes ∧ RetriesElsewhere (controllerAfter history) x ↔
      Balanced lastUsedIndex attempt nodes ∧ Remembered (controllerAfter history) x :=
  and_congr (picksWell_iff hweights hnodes) (retriesElsewhere_iff hservers)

/-! ### Runs without a pinned node -/

/-- The remembered index is that of the node of the call before. -/
def Tracks (nodes : List Server) (s : Controller) : Prop :=
  ∀ previous ∈ s.previous, ∃ index : ℕ,
    s.lastUsedRandomIndex = index ∧ nodes[index]? = some previous

section Unpinned

variable {s : Controller} {x : Call}

/-- A call without a pinned node remembers the node it uses. -/
theorem Tracks.after (htracks : Tracks x.nodes s) (hpinned : x.pinnedNode = none)
    (draws : List Random) : Tracks x.nodes (s.after x draws) := by
  rw [Controller.after]
  rcases hselect : x.select s.lastUsedRandomIndex draws with _ | ⟨node, randomIndex⟩
  · exact htracks
  · intro previous hprevious
    obtain rfl := Option.mem_some_iff.mp hprevious
    refine ⟨randomIndex, rfl, ?_⟩
    by_cases hempty : x.nodes.isEmpty = true
    · rw [Call.select, if_pos hempty] at hselect
      cases hselect
    · rw [Call.select, if_neg hempty] at hselect
      obtain ⟨drawnIndex, -, hnode⟩ := Option.bind_eq_some_iff.mp hselect
      obtain ⟨used, hused, heq⟩ := Option.map_eq_some_iff.mp hnode
      rw [hpinned, Option.getD_none, ite_self] at heq
      obtain ⟨rfl, rfl⟩ := Prod.mk.inj heq
      exact hused

theorem Tracks.foldl {nodes : List Server} {history : List (Call × List Random)}
    (hall : ∀ call ∈ history, call.1.nodes = nodes ∧ call.1.pinnedNode = none)
    (htracks : Tracks nodes s) :
    Tracks nodes (history.foldl (fun s call ↦ s.after call.1 call.2) s) := by
  induction history generalizing s with
  | nil => exact htracks
  | cons call history ih =>
    obtain ⟨⟨rfl, hpinned⟩, hrest⟩ := List.forall_mem_cons.mp hall
    exact ih hrest (htracks.after hpinned call.2)

/-- As long as the nodes stay the same and none is pinned, every retry uses another node than the
call before it. -/
theorem retriesElsewhere_of_unpinned {history : List (Call × List Random)}
    (hservers : ∀ server ∈ x.servers, 0 ≤ server.weight) (hids : (x.nodes.map Server.id).Nodup)
    (hall : ∀ call ∈ history, call.1.nodes = x.nodes ∧ call.1.pinnedNode = none) :
    RetriesElsewhere (controllerAfter history) x := by
  rw [retriesElsewhere_iff hservers]
  intro _ _ _ previous hprevious _ node hdrawable hsame
  have htracks : Tracks x.nodes (controllerAfter history) := Tracks.foldl hall nofun
  obtain ⟨index, hindex, hget⟩ := htracks previous hprevious
  obtain rfl := List.inj_on_of_nodup_map hids hdrawable.mem (List.mem_of_getElem? hget) hsame
  obtain ⟨hlt, hget⟩ := List.getElem?_eq_some_iff.mp hget
  rw [hindex, ← hget, hids.of_map.idxOf_getElem]

end Unpinned

/-! ### Both promises broken -/

/-- A node of the datacenter 1. -/
def sampleNode (id : ℤ) (hostname : String) (weight : ℤ) : Server where
  id := id
  hostname := hostname
  ip := "10.0.0.1"
  ip2 := "10.0.0.2"
  ip3 := "10.0.0.3"
  datacenterId := 1
  weight := weight
  health := 0

/-- A call for two nodes of the same weight. -/
def sampleCall (pinnedIp : Option String) (attempt : ℤ) : Call where
  servers := [sampleNode 1 "a.example.com" 5, sampleNode 2 "b.example.com" 5]
  pinnedIp := pinnedIp
  attempt := attempt
  hostname := none
  forceNode := none

/-- A first call draws the first of two nodes, and the retry may only use the second one. -/
theorem kept_iff_balanced_unpinned :
    PicksWell 0 1 (sampleCall none 1).nodes ∧
      RetriesElsewhere (controllerAfter [(sampleCall none 0, [⟨0, by decide⟩])])
        (sampleCall none 1) := by
  have hservers : ∀ server ∈ (sampleCall none 1).servers, 0 ≤ server.weight := by decide
  have hweights : ∀ server ∈ (sampleCall none 1).nodes, 0 ≤ server.weight := by decide
  refine (kept_iff_balanced [(sampleCall none 0, [⟨0, by decide⟩])] (sampleCall none 1) 0 1
    (sampleCall none 1).nodes (by decide) hweights hservers).mpr ⟨⟨fun _ ↦ ?_, nofun⟩, ?_⟩
  · exact ⟨sampleNode 2 "b.example.com" 5,
      ⟨[sampleNode 1 "a.example.com" 5], [], by decide, Or.inr (by decide)⟩, by decide⟩
  · intro _ _ _ previous hprevious _ node hdrawable hsame
    have hfirst : controllerAfter [(sampleCall none 0, [⟨0, by decide⟩])] =
        ⟨0, some (sampleNode 1 "a.example.com" 5)⟩ := by decide
    rw [hfirst, Option.mem_some_iff] at hprevious
    subst hprevious
    have hmem : node ∈ (sampleCall none 1).servers := List.mem_of_mem_filter hdrawable.mem
    rw [hfirst]
    rcases List.mem_pair.mp hmem with rfl | rfl
    · decide
    · exact absurd hsame (by decide)

/-- The first call draws the first node and uses the second, which is pinned. The retry draws until
the index is not that of the first, and uses the second again. -/
theorem not_kept_pinned :
    ¬ ∀ (history : List (Call × List Random)) (x : Call) (lastUsedIndex attempt : ℤ)
        (nodes : List Server), 2 ≤ nodes.length → (∀ server ∈ nodes, 0 ≤ server.weight) →
        (∀ server ∈ x.servers, 0 ≤ server.weight) →
          PicksWell lastUsedIndex attempt nodes ∧
            RetriesElsewhere (controllerAfter history) x := by
  intro hpromise
  obtain ⟨-, hretries⟩ := hpromise
    [(sampleCall (some "b.example.com") 0, [⟨0, by decide⟩])] (sampleCall (some "b.example.com") 1)
    0 1 (sampleCall none 1).nodes (by decide) (by decide) (by decide)
  exact hretries (by decide) rfl rfl (sampleNode 2 "b.example.com" 5) (by decide)
    ⟨sampleNode 1 "a.example.com" 5, by decide, by decide⟩ [⟨2 ^ 52 + 1, by decide⟩]
    (sampleNode 2 "b.example.com" 5) 1 (by decide) rfl

/-- The second of two nodes has no weight. A retry with the first one excluded draws it for ever. -/
theorem not_kept_weightless :
    ¬ PicksWell 0 1 [sampleNode 1 "a.example.com" 5, sampleNode 2 "b.example.com" 0] := by
  intro hpromise
  obtain ⟨hallowed, -⟩ := (picksWell_iff (by decide) (by decide)).mp hpromise
  obtain ⟨node, ⟨before, after, heq, hreach⟩, hidx⟩ := hallowed (by decide)
  rcases before with _ | ⟨first, before⟩
  · obtain ⟨rfl, -⟩ := List.cons.inj heq
    exact hidx (by decide)
  · obtain ⟨rfl, hrest⟩ := List.cons.inj heq
    rcases before with _ | ⟨second, before⟩
    · obtain ⟨rfl, -⟩ := List.cons.inj hrest
      exact absurd hreach (by decide)
    · exact absurd (List.cons.inj hrest).2.symm (by simp)

end WindscribeVpn.Backend.NodeSelection
