import PeerLink.Route.Addresses

/-!
# Costs from received latencies

The costs of the edges come from the latencies in the global peer map, which the center
sends as `i32`. They are cast to `usize`, penalties are added, and both searches add them
up along paths. With latencies in `0 .. i32::MAX` nothing leaves `usize`; a negative one
becomes a huge cost.
-/

namespace PeerLink.Route

open PeerLink.Graph

/-- The `latency_ms` of each peer to each of its direct peers. -/
abbrev GlobalPeerMap := PeerMap (PeerMap Int32)

namespace GlobalPeerMap

def directedCost (map : GlobalPeerMap) (src dst : PeerId) : Option Int32 :=
  (map.lookup src).bind (·.lookup dst)

/-- `RouteCostCalculatorImpl::calculate_cost` -/
def calculateCost (map : GlobalPeerMap) (src dst : PeerId) : Int :=
  match map.directedCost src dst with
  | some cost => cost.toInt
  | none => ((map.directedCost dst src).map Int32.toInt).getD 500

end GlobalPeerMap

/-- The edges that the search for the next hops sees. -/
def searchedEdges (platform : Platform) (policy : NextHopPolicy) (g : PeerGraph) (start : Nat) :
    List (Arc Nat Nat) :=
  match policy with
  | .leastCost => g.edges
  | .leastHop => g.edges.filter (keepEdge (platform.dijkstra g.edges start normalizeEdgeCost))

/-- No cost is out of place: without the penalty each is below `AVOID_RELAY_COST`, and
neither an edge nor a sum of either search needs more than the 64 bits of `usize`. The
first search is the one of `petgraph`, with the same loop. -/
structure CostsSafe (platform : Platform) (info : SyncedRouteInfo) (g : PeerGraph)
    (start : Nat) : Prop where
  base : ∀ a ∈ g.edges, ∃ p base, g.nodes[a.src]? = some p ∧ base < AVOID_RELAY_COST ∧
    a.weight = base + if info.getAvoidRelayData p then AVOID_RELAY_COST else 0
  edge : ∀ a ∈ g.edges, a.weight < 2 ^ 64
  hops : ∀ k ∈ dijkstraSums platform.heap normalizeEdgeCost start g.edges, k < 2 ^ 64
  costs : ∀ policy, ∀ k ∈ dijkstraSums platform.heap Arc.weight start
    (searchedEdges platform policy g start), k < 2 ^ 64

/-! ## Bounds -/

section

variable {platform : Platform} {g : PeerGraph} {start : Nat}

theorem mem_searchedEdges {policy : NextHopPolicy} {a : Arc Nat Nat}
    (mem : a ∈ searchedEdges platform policy g start) : a ∈ g.edges := by
  cases policy with
  | leastCost => exact mem
  | leastHop => exact (List.mem_filter.mp mem).1

/-- In a graph of at most `2 ^ 32` nodes, costs below `2 ^ 32` do not add up to `2 ^ 64`. -/
theorem dijkstraSums_lt (heap : MinHeap Nat Nat) (inside : start < g.nodes.length)
    (size : g.nodes.length ≤ 2 ^ 32) {c : Arc Nat Nat → Nat} {edges : List (Arc Nat Nat)}
    (inRange : ∀ a ∈ edges, a.tgt < g.nodes.length) (bounded : ∀ a ∈ edges, c a < 2 ^ 32) :
    ∀ k ∈ dijkstraSums heap c start edges, k < 2 ^ 64 := by
  intro k mem
  obtain ⟨p, a, shortest, ha, rfl⟩ := mem_dijkstraSums heap mem
  have atMost : ∀ b ∈ {b | b ∈ edges}, c b ≤ 2 ^ 32 - 1 := fun b hb =>
    Nat.le_sub_one_of_lt (bounded b hb)
  have distance := shortest.cost_add_le (List.range g.nodes.length) (List.mem_range.mpr inside)
    (fun b hb => List.mem_range.mpr (inRange b hb)) atMost
  rw [List.length_range] at distance
  have last := bounded a ha
  calc cost c p + c a ≤ cost c p + (2 ^ 32 - 1) := Nat.add_le_add_left (by omega) _
    _ ≤ g.nodes.length * (2 ^ 32 - 1) := distance
    _ ≤ 2 ^ 32 * (2 ^ 32 - 1) := Nat.mul_le_mul_right _ size
    _ < 2 ^ 64 := by decide

theorem normalizeEdgeCost_lt (a : Arc Nat Nat) : normalizeEdgeCost a < 2 ^ 32 := by
  unfold normalizeEdgeCost AVOID_RELAY_COST
  split <;> decide

end

/-- The cost is the first latency that is found, or 500. -/
theorem GlobalPeerMap.calculateCost_eq (map : GlobalPeerMap) (src dst : PeerId) :
    map.calculateCost src dst =
      (((map.directedCost src dst).or (map.directedCost dst src)).map Int32.toInt).getD 500 := by
  unfold calculateCost
  cases map.directedCost src dst <;> rfl

/-- The cast keeps exactly the latencies that are not negative below the bound. -/
theorem cast_lt_iff (latency : Int32) :
    (latency.toInt % 2 ^ 64).toNat < AVOID_RELAY_COST ↔
      0 ≤ latency.toInt ∧ latency.toInt < AVOID_RELAY_COST := by
  have low := Int32.le_toInt latency
  have high := Int32.toInt_lt latency
  unfold AVOID_RELAY_COST
  omega

section

variable {platform : Platform} {map : GlobalPeerMap} {info : SyncedRouteInfo} {me : PeerId}

theorem edgeWeight_eq (info : SyncedRouteInfo) (calculateCost : PeerId → PeerId → Int)
    (p q : PeerId) : edgeWeight info calculateCost p q =
      (calculateCost p q % 2 ^ 64).toNat +
        if info.getAvoidRelayData p then AVOID_RELAY_COST else 0 := by
  unfold edgeWeight
  split <;> simp

theorem cast_calculateCost_lt {p q : PeerId}
    (range : ∀ latency, (map.directedCost p q).or (map.directedCost q p) = some latency →
      0 ≤ latency.toInt ∧ latency.toInt < AVOID_RELAY_COST) :
    (map.calculateCost p q % 2 ^ 64).toNat < AVOID_RELAY_COST := by
  rw [map.calculateCost_eq]
  cases found : (map.directedCost p q).or (map.directedCost q p) with
  | none => decide
  | some latency => exact (cast_lt_iff latency).mpr (range latency found)

/-- Edges below the bound make everything safe. -/
theorem CostsSafe.of_base {g : PeerGraph} {start : Nat} (wf : g.WellFormed)
    (inside : start < g.nodes.length) (size : g.nodes.length ≤ 2 ^ 32)
    (base : ∀ a ∈ g.edges, ∃ p base, g.nodes[a.src]? = some p ∧ base < AVOID_RELAY_COST ∧
      a.weight = base + if info.getAvoidRelayData p then AVOID_RELAY_COST else 0) :
    CostsSafe platform info g start := by
  have light : ∀ a ∈ g.edges, a.weight < 2 ^ 32 := by
    intro a ha
    obtain ⟨p, base, -, below, weight⟩ := base a ha
    unfold AVOID_RELAY_COST at below weight
    rw [weight]
    split <;> omega
  constructor
  · exact base
  · exact fun a ha => (light a ha).trans (by decide)
  · exact dijkstraSums_lt platform.heap inside size (fun a ha => (wf.inRange a ha).2)
      fun a _ => normalizeEdgeCost_lt a
  · exact fun policy => dijkstraSums_lt platform.heap inside size
      (fun a ha => (wf.inRange a (mem_searchedEdges ha)).2)
      fun a ha => light a (mem_searchedEdges ha)

/-- Without edges nothing is added up. -/
theorem CostsSafe.of_no_edges {g : PeerGraph} {start : Nat} (none : g.edges = []) :
    CostsSafe platform info g start := by
  have noSums : ∀ (c : Arc Nat Nat → Nat) (edges : List (Arc Nat Nat)),
      (∀ a ∈ edges, a ∈ g.edges) → ∀ k ∈ dijkstraSums platform.heap c start edges, k < 2 ^ 64 := by
    intro c edges sub k mem
    obtain ⟨-, a, -, ha, -⟩ := mem_dijkstraSums platform.heap mem
    have absurdity := sub a ha
    rw [none] at absurdity
    cases absurdity
  constructor
  · intro a ha
    rw [none] at ha
    cases ha
  · intro a ha
    rw [none] at ha
    cases ha
  · exact noSums _ _ fun _ => id
  · exact fun policy => noSums _ _ fun a ha => mem_searchedEdges ha

end

/-- **Costs are safe exactly on latencies from 0 up to `i32::MAX`.** Only the latencies
count that become an edge: those between known peers that are connected. -/
theorem costs_safe_iff (platform : Platform) (map : GlobalPeerMap) (info : SyncedRouteInfo)
    (me : PeerId) (ids : ∀ p, info.Known p → p < 2 ^ 32) :
    (∀ g start, buildPeerGraphFromSyncedInfo platform me info map.calculateCost =
        some (g, start) → CostsSafe platform info g start) ↔
      (info.Known me → ∀ p q latency, info.Known p → info.Known q → q ∈ info.connected p →
        (map.directedCost p q).or (map.directedCost q p) = some latency →
          0 ≤ latency.toInt ∧ latency.toInt < AVOID_RELAY_COST) := by
  constructor
  · intro safe known p q latency knownP knownQ connected found
    obtain ⟨g, start, built, -, rep⟩ := buildPeerGraph_spec platform map.calculateCost known
    obtain ⟨i, hi⟩ := List.mem_iff_getElem?.mp ((rep.nodes p).mpr knownP)
    obtain ⟨j, hj⟩ := List.mem_iff_getElem?.mp ((rep.nodes q).mpr knownQ)
    have edge : ⟨i, j, edgeWeight info map.calculateCost p q⟩ ∈ g.edges :=
      (rep.edges _).mpr ⟨p, q, hi, hj, connected, rfl⟩
    obtain ⟨p', base, hi', below, weight⟩ := (safe g start built).base _ edge
    cases hi.symm.trans hi'
    rw [edgeWeight_eq, map.calculateCost_eq, found] at weight
    rw [← Nat.add_right_cancel weight] at below
    exact (cast_lt_iff latency).mp below
  · intro range g start built
    by_cases known : info.Known me
    · obtain ⟨g', start', built', node, wf, nodes, edges⟩ :=
        buildPeerGraph_spec platform map.calculateCost known
      cases built.symm.trans built'
      refine .of_base wf (List.getElem?_eq_some_iff.mp node).1
        (length_le_of_ids wf.nodup fun p mem => ids p ((nodes p).mp mem)) fun a ha => ?_
      obtain ⟨p, q, hp, hq, connected, weight⟩ := (edges a).mp ha
      have knownP := (nodes p).mp (List.mem_of_getElem? hp)
      have knownQ := (nodes q).mp (List.mem_of_getElem? hq)
      exact ⟨p, _, hp, cast_calculateCost_lt fun latency =>
        range known p q latency knownP knownQ connected, weight.trans (edgeWeight_eq ..)⟩
    · obtain ⟨g', built', none, -⟩ := buildPeerGraph_unknown platform map.calculateCost known
      cases built.symm.trans built'
      exact .of_no_edges none

/-- Peers 1 and 2, with a connection from 1 to 2. -/
def pairInfo : SyncedRouteInfo where
  peerInfos :=
    ((∅ : PeerMap RoutePeerInfo).insert 1 { RoutePeerInfo.new with version := 1 }).insert 2
    { RoutePeerInfo.new with version := 1 }
  rawPeerInfos := ∅
  connMap := (∅ : PeerMap (Finset PeerId × Version)).insert 1 ({2}, 1)
  foreignNetwork := ∅
  version := 1

/-- The latency that peer 1 has reported to peer 2. -/
def pairLatency (latency : Int32) : GlobalPeerMap :=
  (∅ : GlobalPeerMap).insert 1 ((∅ : PeerMap Int32).insert 2 latency)

theorem pair_costs_safe :
    (pairLatency 20).calculateCost 1 2 = 20 ∧
      ∀ g start, buildPeerGraphFromSyncedInfo .reference 1 pairInfo
        (pairLatency 20).calculateCost = some (g, start) →
        CostsSafe .reference pairInfo g start := by
  refine ⟨by decide, (costs_safe_iff .reference (pairLatency 20) pairInfo 1 ?_).mpr ?_⟩
  · rintro p ⟨peerInfo, found, -⟩
    have small : ∀ item ∈ pairInfo.peerInfos.entries, item.1 < 2 ^ 32 := by decide
    exact small ⟨p, peerInfo⟩ (AList.mem_lookup_iff.mp found)
  · intro _ p q latency _ _ _ found
    have reported : ∀ src dst, (pairLatency 20).directedCost src dst = some latency →
        0 ≤ latency.toInt ∧ latency.toInt < AVOID_RELAY_COST := by
      intro src dst found
      obtain ⟨direct, row, listed⟩ := Option.bind_eq_some_iff.mp found
      have only : ∀ row ∈ (pairLatency 20).entries, ∀ item ∈ row.2.entries,
          0 ≤ item.2.toInt ∧ item.2.toInt < AVOID_RELAY_COST := by decide
      exact only ⟨_, _⟩ (AList.mem_lookup_iff.mp row) ⟨_, _⟩ (AList.mem_lookup_iff.mp listed)
    obtain there | ⟨-, back⟩ := Option.or_eq_some_iff.mp found
    · exact reported p q there
    · exact reported q p back

/-- A latency of -1 becomes the largest cost there is. -/
theorem negative_latency_unsafe :
    ∃ g start, buildPeerGraphFromSyncedInfo .reference 1 pairInfo
        (pairLatency (-1)).calculateCost = some (g, start) ∧
      ¬ CostsSafe .reference pairInfo g start := by
  obtain ⟨⟨g, start⟩, built, nodes, edge⟩ : ∃ graph ∈ buildPeerGraphFromSyncedInfo .reference 1
      pairInfo (pairLatency (-1)).calculateCost, graph.1.nodes = [2, 1] ∧
        ⟨1, 0, 2 ^ 64 - 1⟩ ∈ graph.1.edges := by decide +kernel
  refine ⟨g, start, built, fun safe => ?_⟩
  obtain ⟨p, base, node, below, weight⟩ := safe.base _ edge
  rw [show g.nodes = [2, 1] from nodes] at node
  cases node
  have bounded : 2 ^ 64 - 1 < AVOID_RELAY_COST := weight.trans_lt below
  exact absurd bounded (by decide)

end PeerLink.Route
