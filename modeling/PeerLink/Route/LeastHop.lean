import Mathlib.Data.Prod.Lex
import PeerLink.Route.Table

/-!
# What least-hop selection optimises

The two searches of `gen_next_hop_map_with_least_hop` choose, for every
reachable peer, a walk that is shortest for the normalised weights and cheapest
among those (`genNextHopMapWithLeastHop_spec`). A normalised weight packs two
counts into one number, and `rank_least` unpacks it for graphs small enough
that the hops cannot overflow into the avoid-relay count.
-/

namespace PeerLink.Route

open Best PeerLink.Graph

/-! ## Filling the map -/

/-- Every entry is older than the version about to be written. -/
structure NextHopTable.Before (t : NextHopTable) (version : Version) : Prop where
  older : ∀ p x, t.nextHopMap.lookup p = some x → x.version < version
  current : t.nextHopMapVersion ≤ version

variable {t t' : NextHopTable} {d : PeerId} {info : NextHopInfo} {g : PeerGraph}
  {costs : AList fun _ : Nat => Nat} {version : Version} {items : List (Σ _ : Nat, Nat × Nat)}
  {start : Nat}

theorem NextHopTable.new_before (version : Version) : NextHopTable.new.Before version :=
  ⟨by simp [NextHopTable.new], Nat.zero_le _⟩

theorem getNextHop_eq_some :
    t.getNextHop d = some info ↔
      t.nextHopMap.lookup d = some info ∧ t.nextHopMapVersion ≤ info.version := by
  unfold NextHopTable.getNextHop
  cases t.nextHopMap.lookup d with
  | none => simp
  | some entry =>
    simp only [Option.bind_some, Option.ite_none_right_eq_some, Option.some.injEq]
    constructor
    · rintro ⟨current, rfl⟩
      exact ⟨rfl, current⟩
    · rintro ⟨rfl, current⟩
      exact ⟨current, rfl⟩

structure PeerGraph.WellFormed (g : PeerGraph) : Prop where
  nodup : g.nodes.Nodup
  inRange : ∀ a ∈ g.edges, a.src < g.nodes.length ∧ a.tgt < g.nodes.length

def PeerGraph.arcs (g : PeerGraph) : Set (Arc Nat Nat) := {a | a ∈ g.edges}

/-- Newer entries are better. -/
def nextHopRank (info : NextHopInfo) : Versionᵒᵈ := OrderDual.toDual info.version

theorem putNextHop_keep (t : NextHopTable) (d : PeerId) (info : NextHopInfo) :
    t.putNextHop d info = { t with nextHopMap := keep nextHopRank t.nextHopMap d info } := by
  unfold NextHopTable.putNextHop keep
  cases t.nextHopMap.lookup d with
  | none => rfl
  | some old =>
    simp only [nextHopRank, OrderDual.toDual_lt_toDual]
    split <;> rfl

theorem foldl_putNextHop (puts : List (PeerId × NextHopInfo)) (t : NextHopTable) :
    puts.foldl (fun t e => t.putNextHop e.1 e.2) t =
      { t with nextHopMap := keepAll nextHopRank t.nextHopMap puts } := by
  induction puts generalizing t with
  | nil => rfl
  | cons e puts ih =>
    rw [List.foldl_cons, ih, putNextHop_keep]
    rfl

/-- The entry that one pass of the loop over `next_hops` puts. -/
def nextHopEntry (graph : PeerGraph) (costs : AList fun _ : Nat => Nat) (version : Version)
    (item : Σ _ : Nat, Nat × Nat) : Option (PeerId × NextHopInfo) := do
  let nextHopPeerId ← graph.nodes[item.2.1]?
  let cost ← costs.lookup item.1
  let dstPeerId ← graph.nodes[item.1]?
  return (dstPeerId,
    { nextHopPeerId, pathLatency := cost % AVOID_RELAY_COST, pathLen := item.2.2, version })

/-- The entry that the loop writes for one node. -/
def IsEntry (g : PeerGraph) (costs : AList fun _ : Nat => Nat) (version : Version)
    (item : Σ _ : Nat, Nat × Nat) (info : NextHopInfo) : Prop :=
  ∃ hop cost, g.nodes[item.2.1]? = some hop ∧ costs.lookup item.1 = some cost ∧
    info = ⟨hop, cost % AVOID_RELAY_COST, item.2.2, version⟩

theorem nextHopEntry_eq_some {item : Σ _ : Nat, Nat × Nat} :
    nextHopEntry g costs version item = some (d, info) ↔
      g.nodes[item.1]? = some d ∧ IsEntry g costs version item info := by
  constructor
  · intro entry
    obtain ⟨hop, nextHop, entry⟩ := Option.bind_eq_some_iff.mp entry
    obtain ⟨cost, paid, entry⟩ := Option.bind_eq_some_iff.mp entry
    obtain ⟨dst, node, entry⟩ := Option.bind_eq_some_iff.mp entry
    cases entry
    exact ⟨node, hop, cost, nextHop, paid, rfl⟩
  · rintro ⟨node, hop, cost, nextHop, paid, rfl⟩
    simp [nextHopEntry, nextHop, paid, node]

theorem mem_mapM {α β : Type} {f : α → Option β} {l : List α} {r : List β}
    (run : l.mapM f = some r) {y : β} : y ∈ r ↔ ∃ x ∈ l, f x = some y := by
  induction l generalizing r with
  | nil =>
    cases run
    simp
  | cons head rest ih =>
    rw [List.mapM_cons] at run
    obtain ⟨first, here, run⟩ := Option.bind_eq_some_iff.mp run
    obtain ⟨later, there, run⟩ := Option.bind_eq_some_iff.mp run
    cases run
    simp [ih there, here, eq_comm]

theorem mapM_returns_iff {α β : Type} {f : α → Option β} {l : List α} :
    (∃ r, l.mapM f = some r) ↔ ∀ x ∈ l, ∃ y, f x = some y := by
  induction l with
  | nil => simp
  | cons head rest ih =>
    rw [List.forall_mem_cons, ← ih]
    constructor
    · rintro ⟨r, run⟩
      rw [List.mapM_cons] at run
      obtain ⟨first, here, run⟩ := Option.bind_eq_some_iff.mp run
      obtain ⟨later, there, -⟩ := Option.bind_eq_some_iff.mp run
      exact ⟨⟨first, here⟩, later, there⟩
    · rintro ⟨⟨first, here⟩, later, there⟩
      exact ⟨first :: later, by simp [here, there]⟩

theorem putEntries_eq (graph : PeerGraph) (costs : AList fun _ : Nat => Nat) (version : Version)
    (items : List (Σ _ : Nat, Nat × Nat)) (t : NextHopTable) :
    items.foldlM (putEntry graph costs version) t =
      (items.mapM (nextHopEntry graph costs version)).map fun entries =>
        entries.foldl (fun t e => t.putNextHop e.1 e.2) t := by
  induction items generalizing t with
  | nil => rfl
  | cons item rest ih =>
    have step : putEntry graph costs version t item =
        (nextHopEntry graph costs version item).map fun e => t.putNextHop e.1 e.2 := by
      unfold putEntry nextHopEntry
      cases graph.nodes[item.2.1]? <;> cases costs.lookup item.1 <;>
        cases graph.nodes[item.1]? <;> rfl
    rw [List.foldlM_cons, List.mapM_cons, step]
    cases nextHopEntry graph costs version item with
    | none => rfl
    | some e =>
      simp only [Option.map_some, Option.bind_eq_bind, Option.bind_some, ih]
      cases rest.mapM (nextHopEntry graph costs version) <;> rfl

/-- Over an older table, the loop and the new version leave the next hops of its items and
no others. -/
theorem putEntries_getNextHop
    (entries : ∀ item ∈ items, item.1 < g.nodes.length ∧ ∃ info, IsEntry g costs version item info)
    (before : t.Before version) :
    ∃ t', items.foldlM (putEntry g costs version) t = some t' ∧
      (∀ item ∈ items, ∀ d, g.nodes[item.1]? = some d →
        ∃ info, NextHopTable.getNextHop
          { t' with nextHopMapVersion := max t'.nextHopMapVersion version } d = some info) ∧
      ∀ d info, NextHopTable.getNextHop
          { t' with nextHopMapVersion := max t'.nextHopMapVersion version } d = some info →
        ∃ item ∈ items, g.nodes[item.1]? = some d ∧ IsEntry g costs version item info := by
  obtain ⟨puts, run⟩ : ∃ puts, items.mapM (nextHopEntry g costs version) = some puts := by
    refine mapM_returns_iff.mpr fun item mem => ?_
    obtain ⟨bound, info, entry⟩ := entries item mem
    exact ⟨_, nextHopEntry_eq_some.mpr ⟨List.getElem?_eq_getElem bound, entry⟩⟩
  have current : max t.nextHopMapVersion version = version := max_eq_right before.current
  have best := @keepAll_isBest _ _ _ _ _ nextHopRank t.nextHopMap puts
  rw [putEntries_eq, run, Option.map_some]
  refine ⟨_, rfl, ?_⟩
  rw [foldl_putNextHop, current]
  refine ⟨fun item mem d node => ?_, fun d info hop => ?_⟩
  · obtain ⟨-, info, entry⟩ := entries item mem
    have put := (mem_mapM run).mpr ⟨item, mem, nextHopEntry_eq_some.mpr ⟨node, entry⟩⟩
    obtain ⟨kept, stored, newer⟩ := (best d).le info put
    obtain ⟨_, _, _, _, rfl⟩ := entry
    exact ⟨kept, getNextHop_eq_some.mpr ⟨stored, OrderDual.toDual_le_toDual.mp newer⟩⟩
  · obtain ⟨stored, recent⟩ := getNextHop_eq_some.mp hop
    obtain old | put := (best d).from_ info stored
    · -- an entry that was there is older than the version just written
      exact absurd (before.older d info old) (Nat.not_lt.mpr recent)
    · obtain ⟨item, mem, entry⟩ := (mem_mapM run).mp put
      exact ⟨item, mem, nextHopEntry_eq_some.mp entry⟩

/-- The table's version is raised to that of the build. -/
theorem genNextHopMapWithLeastCost_version {platform : Platform}
    (run : genNextHopMapWithLeastCost platform t g start version = some t') :
    t'.nextHopMapVersion = max t.nextHopMapVersion version := by
  unfold genNextHopMapWithLeastCost at run
  split at run
  · obtain ⟨⟨costs, nextHops⟩, -, run⟩ := Option.bind_eq_some_iff.mp run
    obtain ⟨filled, fold, run⟩ := Option.bind_eq_some_iff.mp run
    cases run
    rw [putEntries_eq] at fold
    obtain ⟨puts, -, rfl⟩ := Option.map_eq_some_iff.mp fold
    rw [foldl_putNextHop]
  · cases run

theorem PeerGraph.WellFormed.walk_inRange (wf : g.WellFormed) {v : Nat}
    {p : List (Arc Nat Nat)} (inside : start < g.nodes.length)
    (walk : IsWalk g.arcs start p v) : ∀ m ∈ vertices start p, m < g.nodes.length :=
  walk.vertices_subset (S := {m | m < g.nodes.length}) inside fun a ha => (wf.inRange a ha).2

/-- The stored entry tells the first hop, the length and the latency of `p`. -/
structure Describes (g : PeerGraph) (start : Nat) (p : List (Arc Nat Nat))
    (info : NextHopInfo) : Prop where
  nextHop : g.nodes[firstHop start p]? = some info.nextHopPeerId
  pathLen : info.pathLen = p.length
  pathLatency : info.pathLatency = cost Arc.weight p % AVOID_RELAY_COST

/-- The table has an entry for exactly the peers reachable from `start`, and
each describes a walk that `Chosen` allows. -/
structure Fills (g : PeerGraph) (start : Nat) (t : NextHopTable)
    (Chosen : List (Arc Nat Nat) → Nat → Prop) : Prop where
  reachable : ∀ d, (∃ info, t.getNextHop d = some info) ↔
    ∃ i, g.nodes[i]? = some d ∧ Reachable g.arcs start i
  chosen : ∀ i d info, g.nodes[i]? = some d → t.getNextHop d = some info →
    ∃ p, Chosen p i ∧ Describes g start p info

section
variable (platform : Platform)

theorem genNextHopMapWithLeastCost_spec (wf : g.WellFormed) (inside : start < g.nodes.length)
    (before : t.Before version) :
    ∃ t', genNextHopMapWithLeastCost platform t g start version = some t' ∧
      Fills g start t' fun p i => IsShortest g.arcs Arc.weight start p i := by
  obtain ⟨costs, nextHops, search, reached, -, described⟩ :=
    dijkstraWithFirstHop_spec platform.heap Arc.weight start g.edges
  have walks : ∀ item ∈ platform.nextHops.order nextHops.entries, ∃ p,
      IsShortest g.arcs Arc.weight start p item.1 ∧
      costs.lookup item.1 = some (cost Arc.weight p) ∧
      item.2 = (firstHop start p, p.length) := by
    intro item hitem
    have found := platform.nextHops.mem_entries.mp hitem
    obtain ⟨p, shortest, price, hop⟩ := described item.1
      (mem_iff_lookup.mpr ⟨_, found⟩)
    exact ⟨p, shortest, price, Option.some.inj (found.symm.trans hop)⟩
  have describes : ∀ item ∈ platform.nextHops.order nextHops.entries, ∀ info,
      IsEntry g costs version item info →
      ∃ p, IsShortest g.arcs Arc.weight start p item.1 ∧ Describes g start p info := by
    rintro item hitem info ⟨hop, price, hhop, hprice, rfl⟩
    obtain ⟨p, shortest, hcost, eq⟩ := walks item hitem
    rw [eq] at hhop
    refine ⟨p, shortest, hhop, by rw [eq], ?_⟩
    rw [Option.some.inj (hprice.symm.trans hcost)]
  have entries : ∀ item ∈ platform.nextHops.order nextHops.entries,
      item.1 < g.nodes.length ∧ ∃ info, IsEntry g costs version item info := by
    intro item hitem
    obtain ⟨p, shortest, hcost, eq⟩ := walks item hitem
    have inRange := wf.walk_inRange inside shortest.walk
    obtain ⟨hop, hhop⟩ : ∃ hop, g.nodes[item.2.1]? = some hop := by
      rw [eq]
      exact ⟨_, List.getElem?_eq_getElem (inRange _ (firstHop_mem_vertices start p))⟩
    exact ⟨inRange _ shortest.walk.end_mem_vertices, _, _, _, hhop, hcost, rfl⟩
  obtain ⟨t', run, written, found⟩ := putEntries_getNextHop entries before
  refine ⟨_, by simp [genNextHopMapWithLeastCost, inside, search, run]; rfl, ?_, ?_⟩
  · intro d
    constructor
    · rintro ⟨info, stored⟩
      obtain ⟨item, hitem, node, entry⟩ := found d info stored
      obtain ⟨p, shortest, -⟩ := describes item hitem info entry
      exact ⟨item.1, node, p, shortest.walk⟩
    · rintro ⟨i, node, reach⟩
      obtain ⟨hop, hhop⟩ := mem_iff_lookup.mp ((reached i).mpr reach)
      exact written ⟨i, hop⟩ (platform.nextHops.mem_entries.mpr hhop) d node
  · intro i d info node stored
    obtain ⟨item, hitem, node', entry⟩ := found d info stored
    have bound := (List.getElem?_eq_some_iff.mp node).1
    have same : i = item.1 := (List.getElem?_inj bound wf.nodup).mp (node.trans node'.symm)
    exact same ▸ describes item hitem info entry

/-! ## The two searches -/

/-- The subgraph keeps exactly the edges that are tight for the first search. -/
theorem keepEdge_iff (a : Arc Nat Nat) :
    a ∈ g.edges.filter (keepEdge (platform.dijkstra g.edges start normalizeEdgeCost)) ↔
      a ∈ tight g.arcs normalizeEdgeCost start := by
  have dist := platform.dijkstra_spec g.edges start normalizeEdgeCost
  simp only [List.mem_filter, tight, Set.mem_ofPred_eq]
  refine and_congr Iff.rfl ?_
  unfold keepEdge
  constructor
  · intro kept
    split at kept
    · rename_i d d' src tgt
      have sum : d + normalizeEdgeCost a = d' := by simpa using kept
      exact ⟨d, (dist _ _).mp src, sum ▸ (dist _ _).mp tgt⟩
    · cases kept
  · rintro ⟨d, src, tgt⟩
    rw [(dist _ _).mpr src, (dist _ _).mpr tgt]
    simp

/-- The walk of an entry: shortest for the normalised weights, and of least
weight among the shortest. -/
structure Selected (g : PeerGraph) (start : Nat) (p : List (Arc Nat Nat)) (v : Nat) : Prop where
  shortest : IsShortest g.arcs normalizeEdgeCost start p v
  cheapest : ∀ q, IsShortest g.arcs normalizeEdgeCost start q v →
    cost Arc.weight p ≤ cost Arc.weight q

theorem genNextHopMapWithLeastHop_spec (wf : g.WellFormed) (inside : start < g.nodes.length)
    (before : t.Before version) :
    ∃ t', genNextHopMapWithLeastHop platform t g start version = some t' ∧
      Fills g start t' (Selected g start) := by
  set sub : PeerGraph := ⟨g.nodes,
    g.edges.filter (keepEdge (platform.dijkstra g.edges start normalizeEdgeCost))⟩ with hsub
  have arcs : sub.arcs = tight g.arcs normalizeEdgeCost start :=
    Set.ext fun a => keepEdge_iff platform a
  have walks : ∀ p v, IsWalk sub.arcs start p v ↔
      IsShortest g.arcs normalizeEdgeCost start p v := by
    intro p v
    rw [arcs]
    exact isWalk_tight_iff
  have wf' : sub.WellFormed :=
    ⟨wf.nodup, fun a ha => wf.inRange a (List.mem_filter.mp ha).1⟩
  obtain ⟨t', run, reachable, chosen⟩ :=
    genNextHopMapWithLeastCost_spec platform wf' inside before
  refine ⟨t', ?_, ?_, ?_⟩
  · rw [genNextHopMapWithLeastHop, if_pos inside]
    exact run
  · intro d
    rw [reachable d]
    refine exists_congr fun i => and_congr Iff.rfl ?_
    constructor
    · rintro ⟨p, walk⟩
      exact ⟨p, ((walks p i).mp walk).walk⟩
    · intro reach
      obtain ⟨p, shortest⟩ := reach.exists_shortest (c := normalizeEdgeCost)
      exact ⟨p, (walks p i).mpr shortest⟩
  · intro i d info node found
    obtain ⟨p, cheapest, describes⟩ := chosen i d info node found
    refine ⟨p, ⟨(walks p i).mp cheapest.walk, fun q hq => ?_⟩,
      ⟨describes.nextHop, describes.pathLen, describes.pathLatency⟩⟩
    exact cheapest.least q ((walks q i).mpr hq)

end

/-! ## Unpacking the normalised weight -/

/-- The weights of a graph whose edges cost `base`, with the penalty on the
edges that leave an avoid-relay node. -/
structure Weighted (g : PeerGraph) (avoid : Nat → Bool) (base : Arc Nat Nat → Nat) : Prop where
  base_lt : ∀ a ∈ g.edges, base a < AVOID_RELAY_COST
  weight : ∀ a ∈ g.edges,
    a.weight = if avoid a.src then base a + AVOID_RELAY_COST else base a

def avoidHops (avoid : Nat → Bool) (p : List (Arc Nat Nat)) : Nat := p.countP (avoid ·.src)

/-- Edges leaving avoid-relay nodes, then edges, then base costs. -/
def rank (avoid : Nat → Bool) (base : Arc Nat Nat → Nat) (p : List (Arc Nat Nat)) :
    Nat ×ₗ Nat ×ₗ Nat :=
  toLex (avoidHops avoid p, toLex (p.length, cost base p))

section
variable {v : Nat} {avoid : Nat → Bool} {base : Arc Nat Nat → Nat}
  {p q : List (Arc Nat Nat)}

variable (h : Weighted g avoid base)
include h

theorem Weighted.normalize :
    ∀ a ∈ g.arcs, normalizeEdgeCost a = packed (avoid ·.src) AVOID_RELAY_COST a := by
  intro a mem
  have small := h.base_lt a mem
  have weight := h.weight a mem
  unfold normalizeEdgeCost packed
  cases flag : avoid a.src with
  | true =>
    simp only [flag, if_true] at weight ⊢
    rw [if_pos (by omega)]
    omega
  | false =>
    simp only [flag, Bool.false_eq_true, if_false] at weight ⊢
    rw [if_neg (by omega)]

theorem Weighted.normalized_cost {u : Nat} (walk : IsWalk g.arcs u p v) :
    cost normalizeEdgeCost p = p.length + AVOID_RELAY_COST * avoidHops avoid p := by
  rw [walk.cost_congr h.normalize, cost_packed]
  rfl

theorem Weighted.weight_cost {u : Nat} (walk : IsWalk g.arcs u p v) :
    cost Arc.weight p = cost base p + AVOID_RELAY_COST * avoidHops avoid p := by
  induction p generalizing u with
  | nil => rfl
  | cons a p ih =>
    rw [cost_cons, ih walk.2.2, h.weight a walk.1, cost_cons, avoidHops, avoidHops,
      List.countP_cons, Nat.mul_add]
    cases avoid a.src <;> simp <;> omega

/-- With at most `AVOID_RELAY_COST + 1` nodes, the hops of a shortest walk never
outweigh an avoid-relay edge. -/
theorem Weighted.shortest_lex (wf : g.WellFormed) (inside : start < g.nodes.length)
    (size : g.nodes.length ≤ AVOID_RELAY_COST + 1)
    (shortest : IsShortest g.arcs normalizeEdgeCost start p v) (walk : IsWalk g.arcs start q v) :
    avoidHops avoid p < avoidHops avoid q ∨
      (avoidHops avoid p = avoidHops avoid q ∧ p.length ≤ q.length) := by
  refine (shortest.congr h.normalize).packed_lex (List.range g.nodes.length)
    (List.mem_range.mpr inside) ?_ (by rwa [List.length_range]) walk
  intro a ha
  exact List.mem_range.mpr (wf.inRange a ha).2

theorem Selected.rank_least (wf : g.WellFormed) (inside : start < g.nodes.length)
    (size : g.nodes.length ≤ AVOID_RELAY_COST + 1) (selected : Selected g start p v)
    (walk : IsWalk g.arcs start q v) : rank avoid base p ≤ rank avoid base q := by
  have walk' := selected.shortest.walk
  rw [rank, rank, Prod.Lex.toLex_le_toLex]
  obtain fewer | ⟨same, le⟩ := h.shortest_lex wf inside size selected.shortest walk
  · exact .inl fewer
  · refine .inr ⟨same, ?_⟩
    rw [Prod.Lex.toLex_le_toLex]
    obtain shorter | equal := Nat.lt_or_eq_of_le le
    · exact .inl shorter
    · -- a walk with the same two counts is also shortest, so the second search compared it
      have price : cost normalizeEdgeCost q = cost normalizeEdgeCost p := by
        rw [h.normalized_cost walk, h.normalized_cost walk', same, equal]
      have cheaper := selected.cheapest q (selected.shortest.isDist.shortest walk price)
      rw [h.weight_cost walk, h.weight_cost walk', same] at cheaper
      exact .inr ⟨equal, Nat.le_of_add_le_add_right cheaper⟩

theorem Weighted.latency (walk : IsWalk g.arcs start p v) (describes : Describes g start p info)
    (small : cost base p < AVOID_RELAY_COST) : info.pathLatency = cost base p := by
  rw [describes.pathLatency, h.weight_cost walk, Nat.add_mul_mod_self_left]
  exact Nat.mod_eq_of_lt small

end

/-- What least-hop selection promises: an entry for exactly the reachable
peers, and each tells of a walk of least rank. -/
structure LeastHopOptimal (g : PeerGraph) (start : Nat) (avoid : Nat → Bool)
    (base : Arc Nat Nat → Nat) (t : NextHopTable) : Prop where
  reachable : ∀ d, (∃ info, t.getNextHop d = some info) ↔
    ∃ i, g.nodes[i]? = some d ∧ Reachable g.arcs start i
  optimal : ∀ i d info, g.nodes[i]? = some d → t.getNextHop d = some info →
    ∃ p, IsWalk g.arcs start p i ∧
      (∀ q, IsWalk g.arcs start q i → rank avoid base p ≤ rank avoid base q) ∧
      g.nodes[firstHop start p]? = some info.nextHopPeerId ∧
      info.pathLen = p.length ∧
      (cost base p < AVOID_RELAY_COST → info.pathLatency = cost base p)

/-- **Least-hop selection is optimal.** In a graph of at most
`AVOID_RELAY_COST + 1` peers, every reachable peer gets the first hop, length
and latency of a walk with the fewest edges out of avoid-relay peers, then the
fewest edges, then the least base cost. -/
theorem least_hop_optimal (platform : Platform) {t : NextHopTable} {g : PeerGraph}
    {start : Nat} {version : Version} {avoid : Nat → Bool} {base : Arc Nat Nat → Nat}
    (wf : g.WellFormed) (weights : Weighted g avoid base) (inside : start < g.nodes.length)
    (before : t.Before version) (size : g.nodes.length ≤ AVOID_RELAY_COST + 1) :
    ∃ t', genNextHopMapWithLeastHop platform t g start version = some t' ∧
      LeastHopOptimal g start avoid base t' := by
  obtain ⟨t', run, reachable, chosen⟩ :=
    genNextHopMapWithLeastHop_spec platform wf inside before
  refine ⟨t', run, reachable, ?_⟩
  intro i d info node found
  obtain ⟨p, selected, describes⟩ := chosen i d info node found
  have walk := selected.shortest.walk
  exact ⟨p, walk, fun q hq => selected.rank_least weights wf inside size hq,
    describes.nextHop, describes.pathLen, weights.latency walk describes⟩

/-! ## A platform, and graphs to run it on -/

/-- Maps are read in their stored order, and petgraph's search is the one
verified here. -/
def Platform.reference : Platform where
  heap := .selection
  peerInfos := .stored _
  nodeIndices := .stored _
  nextHops := .stored _
  dijkstra edges start edgeCost v :=
    (dijkstraWithFirstHop .selection edgeCost start edges).bind fun result =>
      result.1.lookup v
  dijkstra_spec := by
    intro edges start edgeCost v d
    obtain ⟨costs, nextHops, search, reached, domain, described⟩ :=
      dijkstraWithFirstHop_spec .selection edgeCost start edges
    simp only [search, Option.bind_some]
    constructor
    · intro found
      have scored : v ∈ costs := mem_iff_lookup.mpr ⟨_, found⟩
      obtain ⟨p, shortest, price, -⟩ := described v ((domain v).mp scored)
      exact ⟨p, shortest, Option.some.inj (price.symm.trans found)⟩
    · rintro ⟨p, shortest, rfl⟩
      obtain ⟨q, shortest', price, -⟩ := described v ((reached v).mpr ⟨p, shortest.walk⟩)
      rw [price, shortest.isDist.unique shortest'.isDist]

/-- Peer 10 reaches peer 30 through peer 20, which avoids relaying, or 40. -/
def relayGraph : PeerGraph :=
  ⟨[10, 20, 30, 40], [⟨0, 1, 5⟩, ⟨1, 2, AVOID_RELAY_COST + 1⟩, ⟨0, 3, 7⟩, ⟨3, 2, 9⟩]⟩

def relayBase (a : Arc Nat Nat) : Nat := a.weight % AVOID_RELAY_COST

theorem relayGraph_optimal :
    relayGraph.WellFormed ∧ Weighted relayGraph (· == 1) relayBase ∧
      ∃ t, genNextHopMapWithLeastHop .reference .new relayGraph 0 1 = some t ∧
        t.getNextHop 30 = some ⟨40, 16, 2, 1⟩ ∧
        LeastHopOptimal relayGraph 0 (· == 1) relayBase t := by
  have wf : relayGraph.WellFormed := ⟨by decide, by decide⟩
  have weights : Weighted relayGraph (· == 1) relayBase := ⟨by decide, by decide⟩
  obtain ⟨t, run, optimal⟩ := least_hop_optimal .reference wf weights
    (by decide : 0 < relayGraph.nodes.length) (NextHopTable.new_before 1) (by decide)
  have entry : (genNextHopMapWithLeastHop .reference .new relayGraph 0 1).bind
      (·.getNextHop 30) = some ⟨40, 16, 2, 1⟩ := by decide +kernel
  rw [run] at entry
  exact ⟨wf, weights, t, run, entry, optimal⟩

/-! ## Past the bound

Node 0 reaches node 2 through the avoid-relay node 1, or over a chain of `hops`
edges that no avoid-relay node is on. A chain longer than `AVOID_RELAY_COST + 2`
loses against the avoid-relay edge. -/

/-- The node after `k` edges of the chain. -/
def chainNode (hops k : Nat) : Nat := if k = 0 then 0 else if k = hops then 2 else k + 2

def chainArc (hops k : Nat) : Arc Nat Nat := ⟨chainNode hops k, chainNode hops (k + 1), 0⟩

def detour (hops : Nat) : PeerGraph :=
  ⟨List.range (hops + 2),
    ⟨0, 1, 0⟩ :: ⟨1, 2, AVOID_RELAY_COST⟩ :: (List.range hops).map (chainArc hops)⟩

section
variable {hops : Nat}

theorem mem_detour {a : Arc Nat Nat} :
    a ∈ (detour hops).edges ↔ a = ⟨0, 1, 0⟩ ∨ a = ⟨1, 2, AVOID_RELAY_COST⟩ ∨
      ∃ k < hops, a = chainArc hops k := by
  simp only [detour, List.mem_cons, List.mem_map, List.mem_range]
  refine or_congr Iff.rfl (or_congr Iff.rfl (exists_congr fun k => and_congr Iff.rfl ?_))
  exact eq_comm

theorem chainNode_lt (long : 1 < hops) {k : Nat} (le : k ≤ hops) :
    chainNode hops k < hops + 2 ∧ chainNode hops k ≠ 1 := by
  unfold chainNode
  split
  · omega
  · split <;> omega

theorem detour_wellFormed (long : 1 < hops) : (detour hops).WellFormed := by
  refine ⟨List.nodup_range, ?_⟩
  have size : (detour hops).nodes.length = hops + 2 := List.length_range
  intro a ha
  rw [size]
  obtain rfl | rfl | ⟨k, lt, rfl⟩ := mem_detour.mp ha
  · constructor <;> simp only <;> omega
  · constructor <;> simp only <;> omega
  · exact ⟨(chainNode_lt long (by omega)).1, (chainNode_lt long lt).1⟩

theorem detour_weighted (long : 1 < hops) : Weighted (detour hops) (· == 1) fun _ => 0 := by
  refine ⟨fun _ _ => by decide, ?_⟩
  intro a ha
  obtain rfl | rfl | ⟨k, lt, rfl⟩ := mem_detour.mp ha
  · simp
  · simp
  · have light := (chainNode_lt long (Nat.le_of_lt lt)).2
    simp [chainArc, light]

theorem chain_isWalk {k : Nat} (le : k ≤ hops) :
    IsWalk (detour hops).arcs 0 ((List.range k).map (chainArc hops)) (chainNode hops k) := by
  induction k with
  | zero => rfl
  | succ k ih =>
    rw [List.range_succ, List.map_append]
    exact (ih (by omega)).append ⟨mem_detour.mpr (.inr (.inr ⟨k, by omega, rfl⟩)), rfl, rfl⟩

theorem chain_avoidHops (long : 1 < hops) :
    avoidHops (· == 1) ((List.range hops).map (chainArc hops)) = 0 := by
  refine List.countP_eq_zero.mpr fun a ha => ?_
  obtain ⟨k, hk, rfl⟩ := List.mem_map.mp ha
  have light := (chainNode_lt long (Nat.le_of_lt (List.mem_range.mp hk))).2
  simp [chainArc, light]

/-- How many edges of the chain lead to a node. -/
def chainDepth (hops m : Nat) : Nat := if m = 2 then hops else m - 2

theorem chainDepth_chainNode {k : Nat} (le : k ≤ hops) :
    chainDepth hops (chainNode hops k) = k := by
  unfold chainNode chainDepth
  split
  · rw [if_neg (by omega)]
    omega
  · split
    · rw [if_pos rfl]
      omega
    · rw [if_neg (by omega)]
      omega

/-- A walk to node 2 without the avoid-relay edge is as long as the chain. -/
theorem detour_long {p : List (Arc Nat Nat)}
    (walk : IsWalk (detour hops).arcs 0 p 2) (light : avoidHops (· == 1) p = 0) :
    hops ≤ p.length := by
  have bound := walk.potential_le (c := fun _ => 1) (·.src == 1) (chainDepth hops) ?_ light
  · simpa [chainDepth, cost_one] using bound
  · intro a ha light
    obtain rfl | rfl | ⟨k, lt, rfl⟩ := mem_detour.mp ha
    · simp [chainDepth]
    · simp at light
    · simp only [chainArc]
      rw [chainDepth_chainNode lt, chainDepth_chainNode (Nat.le_of_lt lt)]

theorem detour_not_optimal (long : AVOID_RELAY_COST + 2 < hops)
    (fills : Fills (detour hops) 0 t (Selected (detour hops) 0)) :
    ¬ LeastHopOptimal (detour hops) 0 (· == 1) (fun _ => 0) t := by
  intro optimal
  have long' : 1 < hops := by omega
  have weights := detour_weighted long'
  have node : (detour hops).nodes[2]? = some 2 := by
    simp only [detour]
    rw [List.getElem?_range (by omega)]
  have short : IsWalk (detour hops).arcs 0 [⟨0, 1, 0⟩, ⟨1, 2, AVOID_RELAY_COST⟩] 2 :=
    ⟨mem_detour.mpr (.inl rfl), rfl, mem_detour.mpr (.inr (.inl rfl)), rfl, rfl⟩
  have chain : IsWalk (detour hops).arcs 0 ((List.range hops).map (chainArc hops)) 2 := by
    have walk := chain_isWalk (Nat.le_refl hops)
    have last : chainNode hops hops = 2 := by
      unfold chainNode
      rw [if_neg (by omega), if_pos rfl]
    rwa [last] at walk
  obtain ⟨info, found⟩ := (fills.reachable 2).mpr ⟨2, node, _, short⟩
  obtain ⟨p, selected, describes⟩ := fills.chosen 2 2 info node found
  obtain ⟨r, walk, least, -, pathLen, -⟩ := optimal.optimal 2 2 info node found
  -- the table's walk is no longer than the one through node 1
  have cheap := selected.shortest.least _ short
  rw [weights.normalized_cost selected.shortest.walk, weights.normalized_cost short] at cheap
  have hops_p : p.length ≤ AVOID_RELAY_COST + 2 := by
    have one : avoidHops (· == 1) [⟨0, 1, 0⟩, ⟨1, 2, AVOID_RELAY_COST⟩] = 1 := rfl
    rw [one] at cheap
    simp only [List.length_cons, List.length_nil] at cheap
    omega
  -- the walk of least rank avoids node 1
  have none_avoided : avoidHops (· == 1) r = 0 := by
    have le := Prod.Lex.monotone_fst _ _ (least _ chain)
    simp only [rank, ofLex_toLex, chain_avoidHops long'] at le
    omega
  have hops_r := detour_long walk none_avoided
  have same := pathLen.symm.trans describes.pathLen
  omega

end

/-- With a chain of `AVOID_RELAY_COST + 3` edges the selected walk has an edge
out of an avoid-relay node, though a walk without one exists. -/
theorem least_hop_detour :
    (detour (AVOID_RELAY_COST + 3)).WellFormed ∧
      Weighted (detour (AVOID_RELAY_COST + 3)) (· == 1) (fun _ => 0) ∧
      ∃ t, genNextHopMapWithLeastHop .reference .new (detour (AVOID_RELAY_COST + 3)) 0 1 =
          some t ∧
        ¬ LeastHopOptimal (detour (AVOID_RELAY_COST + 3)) 0 (· == 1) (fun _ => 0) t := by
  generalize size : AVOID_RELAY_COST + 3 = hops
  have wf : (detour hops).WellFormed := detour_wellFormed (by omega)
  have inside : 0 < (detour hops).nodes.length := by
    simp only [detour, List.length_range]
    omega
  obtain ⟨t, run, fills⟩ := genNextHopMapWithLeastHop_spec .reference wf inside
    (NextHopTable.new_before 1)
  exact ⟨wf, detour_weighted (by omega), t, run, detour_not_optimal (by omega) fills⟩

end PeerLink.Route
