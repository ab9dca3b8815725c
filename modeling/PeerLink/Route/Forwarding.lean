import PeerLink.Route.LeastHop

/-!
# Following next hops across nodes

Every node builds its own graph, with its own costs and in its own order, from
the same synced infos. `buildPeerGraph_spec` says what these graphs have in
common, `entry_selected` carries a table entry back to the links between peers,
and `least_hop_delivers` follows the entries of all nodes.
-/

namespace PeerLink.Route

open PeerLink.Graph

/-! ## The graph of one node -/

/-- Peers whose own info has arrived; the others are placeholders. -/
def SyncedRouteInfo.Known (info : SyncedRouteInfo) (p : PeerId) : Prop :=
  ∃ peerInfo, info.peerInfos.lookup p = some peerInfo ∧ peerInfo.version ≠ 0

def SyncedRouteInfo.connected (info : SyncedRouteInfo) (p : PeerId) : Finset PeerId :=
  (info.getConnectedPeers p).getD ∅

/-- What holds of the nodes collected so far. -/
structure PeerNodes.Good (myPeerId : PeerId) (st : PeerNodes) : Prop where
  nodup : st.graph.nodes.Nodup
  index : ∀ p i, st.index.lookup p = some i ↔ st.graph.nodes[i]? = some p
  start : ∀ i, st.start = some i ↔ st.graph.nodes[i]? = some myPeerId
  edges : st.graph.edges = []

variable {α : Type} {myPeerId p : PeerId} {st : PeerNodes} {info : SyncedRouteInfo}

theorem getElem?_concat_iff (l : List α) (x y : α) (i : Nat) :
    (l ++ [x])[i]? = some y ↔ l[i]? = some y ∨ (i = l.length ∧ x = y) := by
  obtain lt | rfl | gt := Nat.lt_trichotomy i l.length
  · rw [List.getElem?_append_left lt]
    simp [Nat.ne_of_lt lt]
  · simp
  · rw [List.getElem?_eq_none (by simp; omega), List.getElem?_eq_none (by omega)]
    simp [Nat.ne_of_gt gt]

theorem PeerNodes.Good.add {item : Σ _ : PeerId, RoutePeerInfo} (good : st.Good myPeerId)
    (fresh : item.1 ∉ st.graph.nodes) : (st.add myPeerId item).Good myPeerId := by
  unfold PeerNodes.add
  split
  · exact good
  · have unindexed : ∀ i, st.graph.nodes[i]? ≠ some item.1 := fun i hi =>
      fresh (List.mem_of_getElem? hi)
    constructor
    · simpa [PeerGraph.addNode] using good.nodup.concat fresh
    · intro p i
      simp only [PeerGraph.addNode, getElem?_concat_iff]
      by_cases here : p = item.1
      · subst here
        rw [AList.lookup_insert]
        simp [unindexed i, eq_comm]
      · rw [AList.lookup_insert_ne here, good.index p i]
        simp [Ne.symm here]
    · intro i
      simp only [PeerGraph.addNode, getElem?_concat_iff]
      by_cases here : item.1 = myPeerId
      · rw [if_pos here, ← here]
        simp [unindexed i, eq_comm]
      · rw [if_neg here, good.start i]
        simp [here]
    · exact good.edges

theorem PeerNodes.add_nodes (myPeerId : PeerId) (st : PeerNodes)
    (item : Σ _ : PeerId, RoutePeerInfo) (p : PeerId) :
    p ∈ (st.add myPeerId item).graph.nodes ↔
      p ∈ st.graph.nodes ∨ (p = item.1 ∧ item.2.version ≠ 0) := by
  unfold PeerNodes.add
  split
  · simp [*]
  · simp [PeerGraph.addNode, *]

theorem PeerNodes.fold_good {items : List (Σ _ : PeerId, RoutePeerInfo)}
    (good : st.Good myPeerId) (keys : (items.map Sigma.fst).Nodup)
    (fresh : ∀ item ∈ items, item.1 ∉ st.graph.nodes) :
    (items.foldl (PeerNodes.add myPeerId) st).Good myPeerId ∧
      ∀ p, p ∈ (items.foldl (PeerNodes.add myPeerId) st).graph.nodes ↔
        p ∈ st.graph.nodes ∨ ∃ item ∈ items, p = item.1 ∧ item.2.version ≠ 0 := by
  induction items generalizing st with
  | nil => exact ⟨good, by simp⟩
  | cons item rest ih =>
    obtain ⟨once, keys'⟩ := List.nodup_cons.mp keys
    have fresh' : ∀ other ∈ rest, other.1 ∉ (st.add myPeerId item).graph.nodes := by
      intro other hother mem
      obtain old | ⟨same, -⟩ := (st.add_nodes myPeerId item other.1).mp mem
      · exact fresh other (by simp [hother]) old
      · exact once (same ▸ List.mem_map_of_mem hother)
    obtain ⟨good', nodes⟩ := ih (good.add (fresh item (by simp))) keys' fresh'
    refine ⟨good', fun p => ?_⟩
    rw [List.foldl_cons, nodes p, st.add_nodes]
    simp only [List.exists_mem_cons_iff, or_assoc]

theorem collectPeers_spec (platform : Platform) (myPeerId : PeerId) (info : SyncedRouteInfo) :
    (collectPeers platform myPeerId info).Good myPeerId ∧
      ∀ p, p ∈ (collectPeers platform myPeerId info).graph.nodes ↔ info.Known p := by
  have perm := platform.peerInfos.perm info.peerInfos.entries
  have keys : ((platform.peerInfos.order info.peerInfos.entries).map Sigma.fst).Nodup :=
    (perm.map Sigma.fst).nodup_iff.mpr info.peerInfos.keys_nodup
  have empty : PeerNodes.Good myPeerId ⟨.new, ∅, none⟩ := by
    constructor <;> simp [PeerGraph.new]
  obtain ⟨good, nodes⟩ := PeerNodes.fold_good empty keys (by simp [PeerGraph.new])
  refine ⟨good, fun p => ?_⟩
  rw [collectPeers, nodes p]
  simp only [PeerGraph.new, List.not_mem_nil, false_or, perm.mem_iff]
  constructor
  · rintro ⟨item, mem, rfl, version⟩
    exact ⟨item.2, AList.mem_lookup_iff.mpr mem, version⟩
  · rintro ⟨peerInfo, found, version⟩
    exact ⟨⟨p, peerInfo⟩, AList.mem_lookup_iff.mp found, rfl, version⟩

section
variable {calculateCost : PeerId → PeerId → Int} {index : PeerMap Nat}

/-- The edges that the inner loop adds for one peer. -/
def connArcs (info : SyncedRouteInfo) (calculateCost : PeerId → PeerId → Int)
    (index : PeerMap Nat) (src : Σ _ : PeerId, Nat) : List (Arc Nat Nat) :=
  ((info.connected src.1).sort (· ≤ ·)).filterMap fun dst =>
    (index.lookup dst).map fun dstNodeIdx =>
      ⟨src.2, dstNodeIdx, edgeWeight info calculateCost src.1 dst⟩

theorem addConn_fold {src : Σ _ : PeerId, Nat} {nodes : List PeerId}
    (inside : src.2 < nodes.length)
    (targets : ∀ p i, index.lookup p = some i → i < nodes.length) (dsts : List PeerId)
    (edges : List (Arc Nat Nat)) :
    dsts.foldlM (addConn info calculateCost index src) ⟨nodes, edges⟩ =
      some ⟨nodes, edges ++ dsts.filterMap fun dst =>
        (index.lookup dst).map fun dstNodeIdx =>
          ⟨src.2, dstNodeIdx, edgeWeight info calculateCost src.1 dst⟩⟩ := by
  induction dsts generalizing edges with
  | nil => simp
  | cons dst rest ih =>
    cases found : index.lookup dst with
    | none => simp [addConn, found, ih]
    | some i =>
      have bound := targets dst i found
      simp [addConn, found, PeerGraph.addEdge, inside, bound, ih]

theorem addConns_fold {nodes : List PeerId} {srcs : List (Σ _ : PeerId, Nat)}
    (inside : ∀ src ∈ srcs, src.2 < nodes.length)
    (targets : ∀ p i, index.lookup p = some i → i < nodes.length)
    (edges : List (Arc Nat Nat)) :
    srcs.foldlM (addConns info calculateCost index) ⟨nodes, edges⟩ =
      some ⟨nodes, edges ++ srcs.flatMap (connArcs info calculateCost index)⟩ := by
  induction srcs generalizing edges with
  | nil => simp
  | cons src rest ih =>
    have step : addConns info calculateCost index ⟨nodes, edges⟩ src =
        some ⟨nodes, edges ++ connArcs info calculateCost index src⟩ :=
      addConn_fold (inside src (by simp)) targets _ edges
    have rest_eq := ih (fun other hother => inside other (by simp [hother]))
    simp [step, rest_eq]

/-- What `buildPeerGraph_spec` says of a graph. -/
structure Represents (info : SyncedRouteInfo) (calculateCost : PeerId → PeerId → Int)
    (g : PeerGraph) : Prop where
  wf : g.WellFormed
  nodes : ∀ p, p ∈ g.nodes ↔ info.Known p
  edges : ∀ a, a ∈ g.edges ↔ ∃ p q, g.nodes[a.src]? = some p ∧ g.nodes[a.tgt]? = some q ∧
    q ∈ info.connected p ∧ a.weight = edgeWeight info calculateCost p q

/-- The graph a node builds: its nodes are the known peers, and it has one edge
for each connection between them. -/
theorem buildPeerGraph_spec (platform : Platform)
    (calculateCost : PeerId → PeerId → Int) (known : info.Known myPeerId) :
    ∃ g start, buildPeerGraphFromSyncedInfo platform myPeerId info calculateCost =
        some (g, start) ∧ g.nodes[start]? = some myPeerId ∧ Represents info calculateCost g := by
  obtain ⟨good, nodes⟩ := collectPeers_spec platform myPeerId info
  generalize collected : collectPeers platform myPeerId info = st at good nodes
  have perm := platform.nodeIndices.perm st.index.entries
  have item : ∀ src, src ∈ platform.nodeIndices.order st.index.entries ↔
      st.graph.nodes[src.2]? = some src.1 := by
    intro src
    rw [perm.mem_iff, ← good.index]
    exact AList.mem_lookup_iff.symm
  obtain ⟨start, hstart⟩ := List.mem_iff_getElem?.mp ((nodes myPeerId).mpr known)
  have built : buildPeerGraphFromSyncedInfo platform myPeerId info calculateCost =
      some (⟨st.graph.nodes, (platform.nodeIndices.order st.index.entries).flatMap
        (connArcs info calculateCost st.index)⟩, start) := by
    have folded : (platform.nodeIndices.order st.index.entries).foldlM
        (addConns info calculateCost st.index) ⟨st.graph.nodes, []⟩ = _ :=
      addConns_fold
        (fun src hsrc => (List.getElem?_eq_some_iff.mp ((item src).mp hsrc)).1)
        (fun p i hi => (List.getElem?_eq_some_iff.mp ((good.index p i).mp hi)).1) []
    have graph : st.graph = ⟨st.graph.nodes, []⟩ := by rw [← good.edges]
    simp only [buildPeerGraphFromSyncedInfo, collected, (good.start start).mpr hstart]
    rw [graph, folded]
    rfl
  have edges : ∀ a, a ∈ (platform.nodeIndices.order st.index.entries).flatMap
      (connArcs info calculateCost st.index) ↔ ∃ p q, st.graph.nodes[a.src]? = some p ∧
        st.graph.nodes[a.tgt]? = some q ∧ q ∈ info.connected p ∧
        a.weight = edgeWeight info calculateCost p q := by
    intro a
    simp only [List.mem_flatMap, connArcs, List.mem_filterMap, Finset.mem_sort,
      Option.map_eq_some_iff]
    constructor
    · rintro ⟨src, hsrc, dst, conn, i, hi, rfl⟩
      exact ⟨src.1, dst, (item src).mp hsrc, (good.index dst i).mp hi, conn, rfl⟩
    · rintro ⟨p, q, hp, hq, conn, weight⟩
      refine ⟨⟨p, a.src⟩, (item ⟨p, a.src⟩).mpr hp, q, conn, a.tgt, (good.index q _).mpr hq, ?_⟩
      rw [← weight]
  refine ⟨_, start, built, hstart, ⟨good.nodup, fun a ha => ?_⟩, nodes, edges⟩
  obtain ⟨p, q, hp, hq, -⟩ := (edges a).mp ha
  exact ⟨(List.getElem?_eq_some_iff.mp hp).1, (List.getElem?_eq_some_iff.mp hq).1⟩

/-! ## Links between peers -/

/-- The connections between known peers, which all nodes agree on. -/
def links (info : SyncedRouteInfo) : Set (Arc PeerId Unit) :=
  {a | info.Known a.src ∧ info.Known a.tgt ∧ a.tgt ∈ info.connected a.src}

/-- A hop counts one, and `AVOID_RELAY_COST` more when its source avoids
relaying. -/
def hopCost (info : SyncedRouteInfo) : Arc PeerId Unit → Nat :=
  packed (fun a => info.getAvoidRelayData a.src) AVOID_RELAY_COST

/-- The walk that a table entry stands for, in terms of peers. -/
structure SelectedLinks (info : SyncedRouteInfo) (calculateCost : PeerId → PeerId → Int)
    (s : PeerId) (p : List (Arc PeerId Unit)) (d : PeerId) : Prop where
  shortest : IsShortest (links info) (hopCost info) s p d
  cheapest : ∀ q, IsShortest (links info) (hopCost info) s q d →
    cost (fun a => edgeWeight info calculateCost a.src a.tgt) p ≤
      cost (fun a => edgeWeight info calculateCost a.src a.tgt) q

/-- The range of the cost function. -/
def CostInRange (calculateCost : PeerId → PeerId → Int) : Prop :=
  ∀ p q, 0 ≤ calculateCost p q ∧ calculateCost p q < AVOID_RELAY_COST

def nodeOf (g : PeerGraph) (i : Nat) : PeerId := g.nodes[i]?.getD 0

theorem nodeOf_eq {g : PeerGraph} {i : Nat} (h : g.nodes[i]? = some p) :
    nodeOf g i = p := by simp [nodeOf, h]

theorem CostInRange.base_lt
    (range : CostInRange calculateCost) (p q : PeerId) :
    (calculateCost p q % 2 ^ 64).toNat < AVOID_RELAY_COST := by
  obtain ⟨low, high⟩ := range p q
  omega

variable {g : PeerGraph}

section
variable (rep : Represents info calculateCost g)
include rep

theorem Represents.weighted (range : CostInRange calculateCost) :
    Weighted g (fun i => info.getAvoidRelayData (nodeOf g i)) fun a =>
      (calculateCost (nodeOf g a.src) (nodeOf g a.tgt) % 2 ^ 64).toNat := by
  refine ⟨fun a _ => range.base_lt _ _, fun a ha => ?_⟩
  obtain ⟨p, q, hp, hq, -, weight⟩ := (rep.edges a).mp ha
  rw [nodeOf_eq hp, nodeOf_eq hq, weight]
  rfl

theorem Represents.arcs : ∀ a ∈ g.arcs, a.map (nodeOf g) (fun _ => ()) ∈ links info := by
  intro a ha
  obtain ⟨p, q, hp, hq, conn, -⟩ := (rep.edges a).mp ha
  refine ⟨?_, ?_, ?_⟩ <;> simp only [Arc.map_src, Arc.map_tgt, nodeOf_eq hp, nodeOf_eq hq]
  · exact (rep.nodes p).mp (List.mem_of_getElem? hp)
  · exact (rep.nodes q).mp (List.mem_of_getElem? hq)
  · exact conn

theorem Represents.lifts :
    ∀ b ∈ links info, ∀ u ∈ {i | i < g.nodes.length}, b.src = nodeOf g u →
      ∃ a ∈ g.arcs, a.src = u ∧ a.tgt ∈ {i | i < g.nodes.length} ∧
        a.map (nodeOf g) (fun _ => ()) = b := by
  rintro ⟨p, q, ⟨⟩⟩ ⟨-, known, conn⟩ u inside src
  have hu : g.nodes[u]? = some p := by
    have node := List.getElem?_eq_getElem (l := g.nodes) inside
    have same : p = _ := src.trans (nodeOf_eq node)
    rw [same]
    exact node
  obtain ⟨i, hi⟩ := List.mem_iff_getElem?.mp ((rep.nodes q).mpr known)
  refine ⟨⟨u, i, edgeWeight info calculateCost p q⟩,
    (rep.edges _).mpr ⟨p, q, hu, hi, conn, rfl⟩, rfl,
    (List.getElem?_eq_some_iff.mp hi).1, ?_⟩
  simp [Arc.map, nodeOf_eq hu, nodeOf_eq hi]

theorem Represents.nodeOf_inj {i j : Nat} (hi : i < g.nodes.length) (hj : j < g.nodes.length)
    (same : nodeOf g i = nodeOf g j) : i = j := by
  have at_i := List.getElem?_eq_getElem hi
  have at_j := List.getElem?_eq_getElem hj
  rw [nodeOf_eq at_i, nodeOf_eq at_j] at same
  exact (List.getElem?_inj hi rep.wf.nodup).mp (at_i.trans (same ▸ at_j.symm))

/-- Shortest walks between nodes are shortest walks between peers. -/
theorem Represents.shortest_iff (range : CostInRange calculateCost) {start v : Nat}
    {p : List (Arc Nat Nat)} (inside : start < g.nodes.length) (walk : IsWalk g.arcs start p v) :
    IsShortest (links info) (hopCost info) (nodeOf g start)
        (p.map (Arc.map (nodeOf g) fun _ => ())) (nodeOf g v) ↔
      IsShortest g.arcs normalizeEdgeCost start p v := by
  have bound := rep.wf.walk_inRange inside walk v walk.end_mem_vertices
  refine isShortest_map_iff (S := {i | i < g.nodes.length}) rep.arcs rep.lifts
    (fun a ha => ?_) (fun m hm same => rep.nodeOf_inj hm bound same) inside walk
  exact (rep.weighted range).normalize a ha

theorem Represents.weight_cost {u v : Nat} {p : List (Arc Nat Nat)} (walk : IsWalk g.arcs u p v) :
    cost (fun a => edgeWeight info calculateCost a.src a.tgt)
        (p.map (Arc.map (nodeOf g) fun _ => ())) = cost Arc.weight p := by
  rw [cost_map]
  refine walk.cost_congr fun a ha => ?_
  obtain ⟨x, y, hx, hy, -, weight⟩ := (rep.edges a).mp ha
  simp only [Arc.map_src, Arc.map_tgt]
  rw [nodeOf_eq hx, nodeOf_eq hy, weight]

/-- A table of peer `s` that stands for walks over the links. -/
structure Routes (info : SyncedRouteInfo) (calculateCost : PeerId → PeerId → Int) (s : PeerId)
    (t : NextHopTable) : Prop where
  reachable : ∀ d, (∃ e, t.getNextHop d = some e) ↔ Reachable (links info) s d
  selected : ∀ d e, t.getNextHop d = some e → ∃ p, SelectedLinks info calculateCost s p d ∧
    e.nextHopPeerId = firstHop s p ∧ e.pathLen = p.length

variable {s : PeerId} {start : Nat} {t : NextHopTable}

/-- A filled table reaches the peers that the links reach. -/
theorem Represents.reachable (node : g.nodes[start]? = some s)
    {Chosen : List (Arc Nat Nat) → Nat → Prop} (fills : Fills g start t Chosen) (d : PeerId) :
    (∃ e, t.getNextHop d = some e) ↔ Reachable (links info) s d := by
  have inside : start < g.nodes.length := (List.getElem?_eq_some_iff.mp node).1
  have here : nodeOf g start = s := nodeOf_eq node
  rw [fills.reachable d]
  constructor
  · rintro ⟨i, hi, p, walk⟩
    have image := walk.map rep.arcs
    rw [here, nodeOf_eq hi] at image
    exact ⟨_, image⟩
  · rintro ⟨p, walk⟩
    rw [← here] at walk
    obtain ⟨q, i, walk', bound, hi, -⟩ :=
      walk.lift (S := {i | i < g.nodes.length}) rep.lifts inside
    have at_i := List.getElem?_eq_getElem (l := g.nodes) bound
    rw [nodeOf_eq at_i] at hi
    exact ⟨i, hi ▸ at_i, q, walk'⟩

/-- Reads a filled table at the level of peers. -/
theorem Represents.routes (range : CostInRange calculateCost) (node : g.nodes[start]? = some s)
    (fills : Fills g start t (Selected g start)) : Routes info calculateCost s t := by
  have inside : start < g.nodes.length := (List.getElem?_eq_some_iff.mp node).1
  have here : nodeOf g start = s := nodeOf_eq node
  constructor
  · exact rep.reachable node fills
  · intro d e found
    obtain ⟨i, hi, -⟩ := (fills.reachable d).mp ⟨e, found⟩
    obtain ⟨p, selected, describes⟩ := fills.chosen i d e hi found
    have walk := selected.shortest.walk
    refine ⟨p.map (Arc.map (nodeOf g) fun _ => ()), ⟨?_, ?_⟩, ?_, ?_⟩
    · have image := (rep.shortest_iff range inside walk).mpr selected.shortest
      rwa [here, nodeOf_eq hi] at image
    · intro q hq
      have lifted := hq.walk
      rw [← here] at lifted
      obtain ⟨r, j, walk', bound, hj, rfl⟩ :=
        lifted.lift (S := {i | i < g.nodes.length}) rep.lifts inside
      have same : j = i := rep.nodeOf_inj bound (List.getElem?_eq_some_iff.mp hi).1
        (hj.trans (nodeOf_eq hi).symm)
      subst same
      rw [rep.weight_cost walk, rep.weight_cost walk']
      rw [← here, ← nodeOf_eq hi] at hq
      exact selected.cheapest r ((rep.shortest_iff range inside walk').mp hq)
    · rw [← here, firstHop_map, nodeOf_eq describes.nextHop]
    · rw [describes.pathLen, List.length_map]

end

theorem buildNextHopMap_routes (platform : Platform) (known : info.Known s)
    (range : CostInRange calculateCost) (before : t.Before info.version) :
    ∃ t', buildNextHopMap platform t s info .leastHop calculateCost = some t' ∧
      Routes info calculateCost s t' := by
  obtain ⟨g, start, built, node, rep⟩ := buildPeerGraph_spec platform calculateCost known
  have inside : start < g.nodes.length := (List.getElem?_eq_some_iff.mp node).1
  have nonempty : g.nodes ≠ [] := List.ne_nil_of_length_pos (by omega)
  obtain ⟨t', run, fills⟩ := genNextHopMapWithLeastHop_spec platform rep.wf inside before
  refine ⟨t', ?_, rep.routes range node fills⟩
  simp [buildNextHopMap, built, nonempty, run]

end

/-! ## Forwarding node by node -/

/-- Handing a packet for `d` to the next hop of each node's table visits these
peers. -/
inductive Follows (table : PeerId → NextHopTable) (d : PeerId) : PeerId → List PeerId → Prop
  | arrived : Follows table d d [d]
  | hop {s : PeerId} {e : NextHopInfo} {visited : List PeerId} (away : s ≠ d)
      (entry : (table s).getNextHop d = some e)
      (rest : Follows table d e.nextHopPeerId visited) : Follows table d s (s :: visited)

theorem Follows.head {table : PeerId → NextHopTable} {d s : PeerId} {visited : List PeerId}
    (h : Follows table d s visited) : ∃ tail, visited = s :: tail := by
  cases h with
  | arrived => exact ⟨[], rfl⟩
  | hop _ _ _ => exact ⟨_, rfl⟩

/-- One peer's entry for `d` counts one hop more than the next peer's. -/
def OneCloser (table : PeerId → NextHopTable) (d a b : PeerId) : Prop :=
  ∃ x y, (table a).getNextHop d = some x ∧ (table b).getNextHop d = some y ∧
    x.pathLen = y.pathLen + 1

structure Delivers (table : PeerId → NextHopTable) (s d : PeerId) (e : NextHopInfo)
    (visited : List PeerId) : Prop where
  entry : (table s).getNextHop d = some e
  follows : Follows table d s visited
  nodup : visited.Nodup
  length : visited.length = e.pathLen + 1
  closer : visited.IsChain (OneCloser table d)

def SyncedRouteInfo.knownPeers (info : SyncedRouteInfo) : List PeerId :=
  (info.peerInfos.entries.filter fun item => item.2.version ≠ 0).map Sigma.fst

theorem SyncedRouteInfo.mem_knownPeers (known : info.Known p) : p ∈ info.knownPeers := by
  obtain ⟨peerInfo, found, version⟩ := known
  exact List.mem_map.mpr ⟨⟨p, peerInfo⟩,
    List.mem_filter.mpr ⟨AList.mem_lookup_iff.mp found, by simpa using version⟩, rfl⟩

section
variable {info : SyncedRouteInfo} {calculateCost : PeerId → PeerId → PeerId → Int}
  {table : PeerId → NextHopTable} {s d : PeerId}

variable (size : info.knownPeers.length ≤ AVOID_RELAY_COST + 1)
include size

/-- With few enough peers all shortest walks between two peers have one length. -/
theorem shortest_length_unique (known : info.Known s) {p q : List (Arc PeerId Unit)}
    (hp : IsShortest (links info) (hopCost info) s p d)
    (hq : IsShortest (links info) (hopCost info) s q d) : p.length = q.length := by
  have closed : ∀ a ∈ links info, a.tgt ∈ info.knownPeers := fun a ha =>
    SyncedRouteInfo.mem_knownPeers ha.2.1
  have start := SyncedRouteInfo.mem_knownPeers known
  have lower := hp.packed_lex info.knownPeers start closed size hq.walk
  have upper := hq.packed_lex info.knownPeers start closed size hp.walk
  omega

/-- One hop: the next peer is known and its own entry counts one hop less. -/
theorem Routes.step (routes : ∀ s, info.Known s → Routes info (calculateCost s) s (table s))
    (known : info.Known s) {e : NextHopInfo} (entry : (table s).getNextHop d = some e) {n : Nat}
    (hops : e.pathLen = n + 1) :
    s ≠ d ∧ info.Known e.nextHopPeerId ∧
      ∃ e', (table e.nextHopPeerId).getNextHop d = some e' ∧ e'.pathLen = n := by
  obtain ⟨p, selected, nextHop, pathLen⟩ := (routes s known).selected d e entry
  have shortest := selected.shortest
  cases p with
  | nil => simp [pathLen] at hops
  | cons a rest =>
    obtain ⟨mem, rfl, walk⟩ := shortest.walk
    have hop : e.nextHopPeerId = a.tgt := nextHop
    have next : info.Known e.nextHopPeerId := hop ▸ mem.2.1
    have suffix : IsShortest (links info) (hopCost info) e.nextHopPeerId rest d := by
      rw [hop]
      exact IsShortest.right (p := [a]) shortest ⟨mem, rfl, rfl⟩ walk
    refine ⟨?_, next, ?_⟩
    · rintro rfl
      have free := shortest.least [] rfl
      rw [hopCost, cost_packed, cost_packed] at free
      simp at free
    · obtain ⟨e', entry'⟩ := ((routes _ next).reachable d).mpr ⟨rest, suffix.walk⟩
      obtain ⟨q, selected', -, pathLen'⟩ := (routes _ next).selected d e' entry'
      have same := shortest_length_unique size next selected'.shortest suffix
      refine ⟨e', entry', ?_⟩
      simp only [List.length_cons] at pathLen
      omega

theorem Routes.delivers (routes : ∀ s, info.Known s → Routes info (calculateCost s) s (table s))
    {n : Nat} (known : info.Known s) {e : NextHopInfo} (entry : (table s).getNextHop d = some e)
    (hops : e.pathLen = n) :
    ∃ visited, Delivers table s d e visited ∧
      ∀ m ∈ visited, ∃ x, (table m).getNextHop d = some x ∧ x.pathLen ≤ n := by
  induction n generalizing s e with
  | zero =>
    obtain ⟨p, selected, -, pathLen⟩ := (routes s known).selected d e entry
    have empty : p = [] := List.length_eq_zero_iff.mp (pathLen.symm.trans hops)
    subst empty
    obtain rfl : s = d := selected.shortest.walk
    refine ⟨[s], ⟨entry, .arrived, by simp, by simp [hops], .singleton s⟩, ?_⟩
    intro m hm
    rw [List.mem_singleton.mp hm]
    exact ⟨e, entry, hops.le⟩
  | succ n ih =>
    obtain ⟨away, next, e', entry', hops'⟩ := Routes.step size routes known entry hops
    obtain ⟨visited, delivers, bounded⟩ := ih next entry' hops'
    refine ⟨s :: visited, ⟨entry, .hop away entry delivers.follows, ?_, ?_, ?_⟩, ?_⟩
    · -- every later peer counts fewer hops than `s`
      refine List.nodup_cons.mpr ⟨fun again => ?_, delivers.nodup⟩
      obtain ⟨x, found, le⟩ := bounded s again
      obtain rfl := Option.some.inj (entry.symm.trans found)
      omega
    · rw [List.length_cons, delivers.length, hops, hops']
    · obtain ⟨tail, rfl⟩ := delivers.follows.head
      exact List.isChain_cons_cons.mpr ⟨⟨e, e', entry, entry', by omega⟩, delivers.closer⟩
    · intro m hm
      obtain rfl | hm := List.mem_cons.mp hm
      · exact ⟨e, entry, hops.le⟩
      · obtain ⟨x, found, le⟩ := bounded m hm
        exact ⟨x, found, by omega⟩

end

/-- All nodes can build their tables, whatever each of them had before. -/
theorem exists_tables (info : SyncedRouteInfo) (platform : PeerId → Platform)
    (calculateCost : PeerId → PeerId → PeerId → Int) (previous : PeerId → NextHopTable)
    (range : ∀ s, CostInRange (calculateCost s))
    (before : ∀ s, (previous s).Before info.version) :
    ∃ table : PeerId → NextHopTable,
      (∀ s, info.Known s → buildNextHopMap (platform s) (previous s) s info .leastHop
        (calculateCost s) = some (table s)) ∧
      ∀ s, info.Known s → Routes info (calculateCost s) s (table s) := by
  have : Nonempty NextHopTable := ⟨.new⟩
  choose! table built routes using fun s (known : info.Known s) =>
    buildNextHopMap_routes (platform s) known (range s) (before s)
  exact ⟨table, built, routes⟩

/-- **Least-hop routing delivers.** All nodes build least-hop tables from the
same infos, which know at most `AVOID_RELAY_COST + 1` peers, each with its own
costs. Then following next hops from any peer to any peer reachable from it
visits no peer twice, takes exactly the stored number of hops, and every step
leaves one hop less. -/
theorem least_hop_delivers (info : SyncedRouteInfo) (platform : PeerId → Platform)
    (calculateCost : PeerId → PeerId → PeerId → Int) (previous : PeerId → NextHopTable)
    (range : ∀ s, CostInRange (calculateCost s))
    (before : ∀ s, (previous s).Before info.version)
    (size : info.knownPeers.length ≤ AVOID_RELAY_COST + 1) :
    ∃ table : PeerId → NextHopTable,
      (∀ s, info.Known s → buildNextHopMap (platform s) (previous s) s info .leastHop
        (calculateCost s) = some (table s)) ∧
      ∀ s d, info.Known s → Reachable (links info) s d →
        ∃ e visited, Delivers table s d e visited := by
  obtain ⟨table, built, routes⟩ :=
    exists_tables info platform calculateCost previous range before
  refine ⟨table, built, fun s d known reach => ?_⟩
  obtain ⟨e, entry⟩ := ((routes s known).reachable d).mpr reach
  obtain ⟨visited, delivers, -⟩ := Routes.delivers size routes known entry rfl
  exact ⟨e, visited, delivers⟩

/-- Peer 1 is connected to peer 2, and peer 2 to peer 3. -/
def lineInfo : SyncedRouteInfo where
  peerInfos := ([1, 2, 3].map fun p : PeerId =>
    ⟨p, { RoutePeerInfo.new with peerId := p, version := 1 }⟩).toAList
  rawPeerInfos := ∅
  connMap := [⟨1, ({2}, 1)⟩, ⟨2, ({1, 3}, 1)⟩, ⟨3, ({2}, 1)⟩].toAList
  foreignNetwork := ∅
  version := 1

theorem line_delivers :
    lineInfo.Known 1 ∧ Reachable (links lineInfo) 1 3 ∧
      ∃ table e visited, buildNextHopMap .reference .new 1 lineInfo .leastHop (fun _ _ => 0) =
          some (table 1) ∧ Delivers table 1 3 e visited := by
  have one : lineInfo.Known 1 := ⟨_, rfl, by decide⟩
  have two : lineInfo.Known 2 := ⟨_, rfl, by decide⟩
  have three : lineInfo.Known 3 := ⟨_, rfl, by decide⟩
  have reach : Reachable (links lineInfo) 1 3 :=
    ⟨[⟨1, 2, ()⟩, ⟨2, 3, ()⟩], ⟨one, two, by decide⟩, rfl, ⟨two, three, by decide⟩, rfl, rfl⟩
  obtain ⟨table, built, delivers⟩ := least_hop_delivers lineInfo (fun _ => .reference)
    (fun _ _ _ => 0) (fun _ => .new)
    (fun _ _ _ => ⟨Int.le_refl 0, (by decide : (0 : Int) < AVOID_RELAY_COST)⟩)
    (fun _ => NextHopTable.new_before _) (by decide)
  obtain ⟨e, visited, arrives⟩ := delivers 1 3 one reach
  exact ⟨one, reach, table, e, visited, built 1 one, arrives⟩

/-! ## Past the bound

Peer 0 reaches peer 3 through peer 1 and then through the avoid-relay peer 2, or
over a chain of `hops` links. A chain of `AVOID_RELAY_COST + 2` links ties with
the avoid-relay link, so each node's own costs break the tie: peer 0 counts on
the short way, and peer 1 takes the long one. -/

def tabulate {α : Type} (n : Nat) (f : PeerId → α) : PeerMap α :=
  ⟨(List.range n).map fun p => ⟨p, f p⟩, by
    rw [List.NodupKeys, List.keys, List.map_map]
    exact List.nodup_range.map fun _ _ h => h⟩

theorem tabulate_lookup {n : Nat} {f : PeerId → α} {x : α} :
    (tabulate n f).lookup p = some x ↔ p < n ∧ f p = x := by
  rw [← Option.mem_def, AList.mem_lookup_iff]
  simp only [tabulate, List.mem_map, List.mem_range]
  constructor
  · rintro ⟨q, lt, eq⟩
    cases eq
    exact ⟨lt, rfl⟩
  · rintro ⟨lt, rfl⟩
    exact ⟨p, lt, rfl⟩

def forkConns (hops p : Nat) : Finset Nat :=
  if p = 0 then {1}
  else if p = 1 then {2, 4}
  else if p = 2 then {3}
  else if p = 3 then ∅
  else if p = hops + 2 then {3}
  else {p + 1}

def forkPeer (p : PeerId) : RoutePeerInfo :=
  { RoutePeerInfo.new with peerId := p, version := 1, featureFlag := some ⟨p == 2⟩ }

def forkInfo (hops : Nat) : SyncedRouteInfo where
  peerInfos := tabulate (hops + 3) forkPeer
  rawPeerInfos := ∅
  connMap := tabulate (hops + 3) fun p => (forkConns hops p, 1)
  foreignNetwork := ∅
  version := 1

/-- Peer 0 sees a latency of one on the links of the chain, the others none. -/
def forkCost (s p q : Nat) : Int := if s = 0 ∧ (4 ≤ p ∨ 4 ≤ q) then 1 else 0

theorem forkCost_inRange (s : PeerId) : CostInRange (forkCost s) := by
  intro p q
  unfold forkCost AVOID_RELAY_COST
  split <;> omega

section
variable {hops : Nat}

variable {p : List (Arc Nat Unit)} {k u v : Nat}

theorem fork_known {p : Nat} : (forkInfo hops).Known p ↔ p < hops + 3 := by
  constructor
  · rintro ⟨peerInfo, found, -⟩
    exact (tabulate_lookup.mp found).1
  · intro lt
    exact ⟨forkPeer p, tabulate_lookup.mpr ⟨lt, rfl⟩, by simp [forkPeer]⟩

theorem fork_connected {p : Nat} (lt : p < hops + 3) :
    (forkInfo hops).connected p = forkConns hops p := by
  have found : (forkInfo hops).connMap.lookup p = some (forkConns hops p, 1) :=
    tabulate_lookup.mpr ⟨lt, rfl⟩
  simp [SyncedRouteInfo.connected, SyncedRouteInfo.getConnectedPeers, found]

theorem fork_avoid {p : Nat} (lt : p < hops + 3) :
    (forkInfo hops).getAvoidRelayData p = (p == 2) := by
  have found : (forkInfo hops).peerInfos.lookup p = some (forkPeer p) :=
    tabulate_lookup.mpr ⟨lt, rfl⟩
  simp [SyncedRouteInfo.getAvoidRelayData, found, forkPeer]

theorem fork_weight {p : Nat} (lt : p < hops + 3) (s q : Nat) :
    edgeWeight (forkInfo hops) (forkCost s) p q =
      (if s = 0 ∧ (4 ≤ p ∨ 4 ≤ q) then 1 else 0) + if p = 2 then AVOID_RELAY_COST else 0 := by
  rw [edgeWeight, fork_avoid lt]
  unfold forkCost
  by_cases far : s = 0 ∧ (4 ≤ p ∨ 4 ≤ q)
  · rw [if_pos far, if_pos far]
    by_cases avoid : p = 2 <;> simp [avoid]
  · rw [if_neg far, if_neg far]
    by_cases avoid : p = 2 <;> simp [avoid]

/-- The links of the fork, one by one. -/
theorem mem_fork (long : 2 < hops) {p q : Nat} : ⟨p, q, ()⟩ ∈ links (forkInfo hops) ↔
    p = 0 ∧ q = 1 ∨ p = 1 ∧ q = 2 ∨ p = 1 ∧ q = 4 ∨ p = 2 ∧ q = 3 ∨ p = hops + 2 ∧ q = 3 ∨
      4 ≤ p ∧ p < hops + 2 ∧ q = p + 1 := by
  have link : (⟨p, q, ()⟩ : Arc Nat Unit) ∈ links (forkInfo hops) ↔
      p < hops + 3 ∧ q < hops + 3 ∧ q ∈ forkConns hops p := by
    simp only [links, Set.mem_ofPred_eq, fork_known]
    refine and_congr_right fun lt => ?_
    rw [fork_connected lt]
  rw [link]
  unfold forkConns
  split_ifs
  all_goals
    simp only [Finset.mem_insert, Finset.mem_singleton, Finset.notMem_empty, and_false,
      false_iff]
    omega

theorem fork_direct (long : 2 < hops) :
    IsWalk (links (forkInfo hops)) 0 [⟨0, 1, ()⟩, ⟨1, 2, ()⟩, ⟨2, 3, ()⟩] 3 :=
  ⟨(mem_fork long).mpr (by simp), rfl, (mem_fork long).mpr (by simp), rfl,
    (mem_fork long).mpr (by simp), rfl, rfl⟩

theorem fork_first (long : 2 < hops) (walk : IsWalk (links (forkInfo hops)) 0 p 3) :
    ∃ rest, p = ⟨0, 1, ()⟩ :: rest := by
  cases p with
  | nil => cases walk
  | cons a rest =>
    obtain ⟨p, q, ⟨⟩⟩ := a
    obtain ⟨mem, src, -⟩ := walk
    have link := (mem_fork long).mp mem
    obtain rfl : p = 0 := src
    obtain rfl : q = 1 := by omega
    exact ⟨rest, rfl⟩

/-- The links from peer 1 over the chain, up to peer `k`. -/
def forkChain (k : Nat) : List (Arc Nat Unit) :=
  ⟨1, 4, ()⟩ :: (List.range k).map fun i => ⟨i + 4, i + 5, ()⟩

theorem forkChain_isWalk (long : 2 < hops) (lt : k + 2 < hops + 1) :
    IsWalk (links (forkInfo hops)) 1 (forkChain k) (k + 4) := by
  induction k with
  | zero => exact ⟨(mem_fork long).mpr (by omega), rfl, rfl⟩
  | succ k ih =>
    have walk := ih (by omega)
    rw [forkChain, List.range_succ, List.map_append, ← List.cons_append]
    exact walk.append ⟨(mem_fork long).mpr (by omega), rfl, by simp⟩

/-- The whole way from peer 1 to peer 3 over a chain of `k + 2` links. -/
def forkWay (k : Nat) : List (Arc Nat Unit) := forkChain k ++ [⟨k + 4, 3, ()⟩]

theorem forkWay_length (k : Nat) : (forkWay k).length = k + 2 := by
  simp [forkWay, forkChain]

theorem forkWay_isWalk (long : 2 < k + 2) :
    IsWalk (links (forkInfo (k + 2))) 1 (forkWay k) 3 :=
  (forkChain_isWalk long (by omega)).append ⟨(mem_fork long).mpr (by simp), rfl, rfl⟩

theorem forkWay_light (k : Nat) : ∀ a ∈ forkWay k, a.src ≠ 2 := by
  intro a ha
  simp only [forkWay, forkChain, List.cons_append, List.mem_cons, List.mem_append, List.mem_map,
    List.mem_range, List.not_mem_nil, or_false] at ha
  obtain rfl | ⟨i, _, rfl⟩ | rfl := ha
  · decide
  · simp
  · simp

/-- Along light links a walk cannot skip the chain. -/
def forkDepth (hops p : Nat) : Nat := if p = 3 then hops + 1 else if 4 ≤ p then p - 2 else p

theorem forkDepth_le (long : 2 < hops) : ∀ a ∈ links (forkInfo hops), (a.src == 2) = false →
    forkDepth hops a.tgt ≤ forkDepth hops a.src + 1 := by
  intro (a : Arc Nat Unit) ha light
  have link := (mem_fork long).mp ha
  have avoid : a.src ≠ 2 := by simpa using light
  unfold forkDepth
  split_ifs <;> omega

/-- Every walk to peer 3 has three links from peer 0 and two from peer 1. -/
def forkHops (p : Nat) : Nat := if p = 3 then 3 else min p 2

theorem forkHops_le (long : 2 < hops) : ∀ a ∈ links (forkInfo hops),
    forkHops a.tgt ≤ forkHops a.src + 1 := by
  intro a ha
  have link := (mem_fork long).mp ha
  unfold forkHops
  split_ifs <;> omega

/-- The costs peer 0 sees along light links. -/
def forkLatency (hops p : Nat) : Nat := if p = 3 then hops else p - 3

theorem forkLatency_le (long : 2 < hops) : ∀ a ∈ links (forkInfo hops), (a.src == 2) = false →
    forkLatency hops a.tgt ≤ forkLatency hops a.src +
      edgeWeight (forkInfo hops) (forkCost 0) a.src a.tgt := by
  intro (a : Arc Nat Unit) ha light
  have link := (mem_fork long).mp ha
  have avoid : a.src ≠ 2 := by simpa using light
  rw [fork_weight (fork_known.mp ha.1), if_neg avoid]
  unfold forkLatency
  split_ifs <;> omega

theorem fork_hopCost (walk : IsWalk (links (forkInfo hops)) u p v) :
    cost (hopCost (forkInfo hops)) p = p.length + AVOID_RELAY_COST * p.countP (·.src == 2) := by
  rw [← cost_packed]
  refine walk.cost_congr fun a ha => ?_
  simp only [hopCost, packed, fork_avoid (fork_known.mp ha.1)]

section
variable (tie : hops = AVOID_RELAY_COST + 2)
include tie

theorem fork_long : 2 < hops := by
  subst tie
  decide

/-- Peer 0 prefers the avoid-relay link to the latencies of the chain. -/
theorem fork_entry_zero (selected : SelectedLinks (forkInfo hops) (forkCost 0) 0 p 3) :
    p.countP (·.src == 2) ≠ 0 := by
  intro light
  have long := fork_long tie
  have walk := selected.shortest.walk
  have depth : hops + 1 ≤ 0 + cost _ p :=
    walk.potential_le (c := fun _ => 1) _ (forkDepth hops) (forkDepth_le long) light
  have latency : hops ≤ 0 + cost _ p :=
    walk.potential_le _ (forkLatency hops) (forkLatency_le long) light
  rw [cost_one] at depth
  rw [Nat.zero_add] at latency
  -- the direct way costs as much as the chain
  have shortest : IsShortest (links (forkInfo hops)) (hopCost (forkInfo hops)) 0
      [⟨0, 1, ()⟩, ⟨1, 2, ()⟩, ⟨2, 3, ()⟩] 3 := by
    refine ⟨fork_direct long, fun q hq => le_trans ?_ (selected.shortest.least q hq)⟩
    rw [fork_hopCost (fork_direct long), fork_hopCost walk, light]
    simp
    omega
  have cheapest := latency.trans (selected.cheapest _ shortest)
  simp only [cost_cons, cost_nil] at cheapest
  rw [fork_weight (by omega), fork_weight (by omega), fork_weight (by omega)] at cheapest
  simp at cheapest
  omega

end

theorem fork_weight_ge {s : Nat} (walk : IsWalk (links (forkInfo hops)) u p v) :
    AVOID_RELAY_COST * p.countP (·.src == 2) ≤
      cost (fun a => edgeWeight (forkInfo hops) (forkCost s) a.src a.tgt) p := by
  induction p generalizing u with
  | nil => simp
  | cons a p ih =>
    have tail := ih walk.2.2
    rw [cost_cons, List.countP_cons, Nat.mul_add, fork_weight (fork_known.mp walk.1.1)]
    by_cases avoid : a.src = 2
    · rw [if_pos avoid, if_pos (by simp [avoid])]
      omega
    · rw [if_neg avoid, if_neg (by simp [avoid])]
      omega

/-- Peer 1, which sees no latencies, takes the chain. -/
theorem fork_entry_one (tie : hops = AVOID_RELAY_COST + 2)
    (selected : SelectedLinks (forkInfo hops) (forkCost 1) 1 p 3) :
    p.countP (·.src == 2) = 0 := by
  have long := fork_long tie
  obtain ⟨k, rfl⟩ : ∃ k, hops = k + 2 := ⟨hops - 2, by omega⟩
  have walk := selected.shortest.walk
  have way := forkWay_isWalk long
  have light : (forkWay k).countP (·.src == 2) = 0 :=
    List.countP_eq_zero.mpr fun a ha => by simpa using forkWay_light k a ha
  have two : 3 ≤ 1 + cost _ p := walk.potential_le (c := fun _ => 1) (fun _ => false) forkHops
    (fun a ha _ => forkHops_le long a ha) (by simp)
  rw [cost_one] at two
  unfold AVOID_RELAY_COST at tie
  by_contra heavy
  have short : IsShortest (links (forkInfo (k + 2))) (hopCost (forkInfo (k + 2))) 1
      (forkWay k) 3 := by
    refine ⟨way, fun q hq => le_trans ?_ (selected.shortest.least q hq)⟩
    rw [fork_hopCost way, fork_hopCost walk, light, forkWay_length, AVOID_RELAY_COST]
    omega
  have free : cost (fun a => edgeWeight (forkInfo (k + 2)) (forkCost 1) a.src a.tgt)
      (forkWay k) = 0 := by
    refine List.sum_eq_zero fun w hw => ?_
    obtain ⟨a, ha, rfl⟩ := List.mem_map.mp hw
    rw [fork_weight (fork_known.mp (way.arcs a ha).1), if_neg (forkWay_light k a ha)]
    simp
  have weight := (fork_weight_ge walk).trans ((selected.cheapest _ short).trans free.le)
  unfold AVOID_RELAY_COST at weight
  omega

end

/-- With a chain of `AVOID_RELAY_COST + 2` links, peer 0 stores three hops to
peer 3 while its next hop, peer 1, stores `AVOID_RELAY_COST + 2`. -/
theorem least_hop_fork :
    (∀ s, CostInRange (forkCost s)) ∧ (forkInfo (AVOID_RELAY_COST + 2)).Known 0 ∧
      Reachable (links (forkInfo (AVOID_RELAY_COST + 2))) 0 3 ∧
      ∃ table : PeerId → NextHopTable,
        (∀ s, (forkInfo (AVOID_RELAY_COST + 2)).Known s → buildNextHopMap .reference .new s
          (forkInfo (AVOID_RELAY_COST + 2)) .leastHop (forkCost s) = some (table s)) ∧
        ¬ ∃ e visited, Delivers table 0 3 e visited := by
  generalize tie : AVOID_RELAY_COST + 2 = hops
  have long := fork_long tie.symm
  have known : ∀ s < hops + 3, (forkInfo hops).Known s := fun s lt => fork_known.mpr lt
  obtain ⟨table, built, routes⟩ := exists_tables (forkInfo hops) (fun _ => .reference) forkCost
    (fun _ => .new) forkCost_inRange fun _ => NextHopTable.new_before _
  refine ⟨forkCost_inRange, known 0 (by omega), ⟨_, fork_direct long⟩, table, built, ?_⟩
  rintro ⟨e, visited, delivers⟩
  obtain ⟨p, selected, nextHop, pathLen⟩ :=
    (routes 0 (known 0 (by omega))).selected 3 e delivers.entry
  obtain ⟨tail, rfl⟩ := fork_first long selected.shortest.walk
  -- the packet goes to peer 1, whose entry is not one hop closer
  cases delivers.follows with
  | hop away entry rest =>
    obtain rfl := Option.some.inj (delivers.entry.symm.trans entry)
    rw [nextHop] at rest
    obtain ⟨others, rfl⟩ := rest.head
    obtain ⟨x, y, hx, hy, closer⟩ := (List.isChain_cons_cons.mp delivers.closer).1
    obtain rfl := Option.some.inj (delivers.entry.symm.trans hx)
    obtain ⟨q, selected', -, pathLen'⟩ := (routes 1 (known 1 (by omega))).selected 3 y hy
    have around : IsWalk (links (forkInfo hops)) 0 (⟨0, 1, ()⟩ :: q) 3 :=
      ⟨(mem_fork long).mpr (by simp), rfl, selected'.shortest.walk⟩
    have least := selected.shortest.least _ around
    have heavy := fork_entry_zero tie.symm selected
    rw [fork_hopCost selected.shortest.walk, fork_hopCost around,
      List.countP_cons_of_neg (l := q) (by simp), fork_entry_one tie.symm selected', ← pathLen,
      List.length_cons, ← pathLen',
      AVOID_RELAY_COST] at least
    omega

end PeerLink.Route
