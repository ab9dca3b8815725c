import PeerLink.Route.Dijkstra
import PeerLink.Route.Synced

/-!
# The next hop table

`build_peer_graph_from_synced_info` turns the synced infos into a weighted
graph, and the two `gen_next_hop_map` functions search it. What the hash maps,
the heap and petgraph leave open is collected in `Platform`, so that every
result holds whatever they choose.
-/

namespace PeerLink.Route

open PeerLink.Graph

def AVOID_RELAY_COST : Nat := 2147483647

/-- The order in which a hash map hands out its entries. -/
structure IterOrder (α : Type) where
  order : List α → List α
  perm : ∀ l, (order l).Perm l

def IterOrder.stored (α : Type) : IterOrder α := ⟨id, fun _ => .refl _⟩

/-- Whatever the order, the entries of a map are handed out. -/
theorem IterOrder.mem_entries {K V : Type} [DecidableEq K] (order : IterOrder (Σ _ : K, V))
    {m : AList fun _ : K => V} {item : Σ _ : K, V} :
    item ∈ order.order m.entries ↔ m.lookup item.1 = some item.2 := by
  rw [(order.perm _).mem_iff]
  exact AList.mem_lookup_iff.symm

/-- `Graph<PeerId, usize, Directed>`: node indices are positions in `nodes`. -/
structure PeerGraph where
  nodes : List PeerId
  edges : List (Arc Nat Nat)

structure Platform where
  heap : MinHeap Nat Nat
  peerInfos : IterOrder (Σ _ : PeerId, RoutePeerInfo)
  nodeIndices : IterOrder (Σ _ : PeerId, Nat)
  nextHops : IterOrder (Σ _ : Nat, Nat × Nat)
  /-- `petgraph::algo::dijkstra` without a goal. -/
  dijkstra : List (Arc Nat Nat) → Nat → (Arc Nat Nat → Nat) → Nat → Option Nat
  dijkstra_spec : ∀ edges start edgeCost v d,
    dijkstra edges start edgeCost v = some d ↔ IsDist {a | a ∈ edges} edgeCost start v d

namespace PeerGraph

def new : PeerGraph := ⟨[], []⟩

/-- `add_node`, which returns the new node's index. -/
def addNode (g : PeerGraph) (peerId : PeerId) : PeerGraph × Nat :=
  ({ g with nodes := g.nodes ++ [peerId] }, g.nodes.length)

/-- `add_edge` panics unless both ends are nodes. -/
def addEdge (g : PeerGraph) (src tgt weight : Nat) : Option PeerGraph :=
  if src < g.nodes.length ∧ tgt < g.nodes.length then
    some { g with edges := g.edges ++ [⟨src, tgt, weight⟩] }
  else
    none

end PeerGraph

/-! ## The peer graph -/

/-- The graph under construction, `peer_id_to_node_index` and `start_node_idx`. -/
structure PeerNodes where
  graph : PeerGraph
  index : PeerMap Nat
  start : Option Nat

def PeerNodes.add (myPeerId : PeerId) (st : PeerNodes) (item : Σ _ : PeerId, RoutePeerInfo) :
    PeerNodes :=
  if item.2.version = 0 then
    st
  else
    let (graph, nodeIdx) := st.graph.addNode item.1
    { graph
      index := st.index.insert item.1 nodeIdx
      start := if item.1 = myPeerId then some nodeIdx else st.start }

def collectPeers (platform : Platform) (myPeerId : PeerId) (info : SyncedRouteInfo) :
    PeerNodes :=
  (platform.peerInfos.order info.peerInfos.entries).foldl (PeerNodes.add myPeerId)
    ⟨.new, ∅, none⟩

variable (info : SyncedRouteInfo) (calculateCost : PeerId → PeerId → Int)

/-- `calculate_cost(..) as usize`, with the penalty of an avoid-relay peer. -/
def edgeWeight (src dst : PeerId) : Nat :=
  let cost := (calculateCost src dst % 2 ^ 64).toNat
  if info.getAvoidRelayData src then cost + AVOID_RELAY_COST else cost

def addConn (index : PeerMap Nat) (src : Σ _ : PeerId, Nat) (graph : PeerGraph) (dst : PeerId) :
    Option PeerGraph :=
  match index.lookup dst with
  | none => some graph
  | some dstNodeIdx =>
    graph.addEdge src.2 dstNodeIdx (edgeWeight info calculateCost src.1 dst)

def addConns (index : PeerMap Nat) (graph : PeerGraph) (src : Σ _ : PeerId, Nat) :
    Option PeerGraph :=
  let connectedPeers := (info.getConnectedPeers src.1).getD ∅
  (connectedPeers.sort (· ≤ ·)).foldlM (addConn info calculateCost index src) graph

/-- `NodeIndex::end()` -/
def nodeIndexEnd : Nat := 2 ^ 32 - 1

def buildPeerGraphFromSyncedInfo (platform : Platform) (myPeerId : PeerId)
    (info : SyncedRouteInfo) (calculateCost : PeerId → PeerId → Int) :
    Option (PeerGraph × Nat) :=
  let peers := collectPeers platform myPeerId info
  match peers.start with
  | none => some (peers.graph, nodeIndexEnd)
  | some start => do
    let graph ← (platform.nodeIndices.order peers.index.entries).foldlM
      (addConns info calculateCost peers.index) peers.graph
    return (graph, start)

/-! ## The next hop map -/

structure NextHopInfo where
  nextHopPeerId : PeerId
  pathLatency : Nat
  pathLen : Nat
  version : Version
  deriving DecidableEq

/-- The next hops of a `RouteTable`. -/
structure NextHopTable where
  nextHopMap : PeerMap NextHopInfo
  nextHopMapVersion : Version

namespace NextHopTable

def new : NextHopTable := ⟨∅, 0⟩

def getNextHop (t : NextHopTable) (dstPeerId : PeerId) : Option NextHopInfo :=
  (t.nextHopMap.lookup dstPeerId).bind fun x =>
    if t.nextHopMapVersion ≤ x.version then some x else none

/-- `entry(dst).and_modify(..).or_insert(..)`: only an older entry is replaced. -/
def putNextHop (t : NextHopTable) (dstPeerId : PeerId) (info : NextHopInfo) : NextHopTable :=
  match t.nextHopMap.lookup dstPeerId with
  | some old =>
    if old.version < info.version then
      { t with nextHopMap := t.nextHopMap.insert dstPeerId info }
    else
      t
  | none => { t with nextHopMap := t.nextHopMap.insert dstPeerId info }

end NextHopTable

variable (platform : Platform) (t : NextHopTable) (graph : PeerGraph)

/-- One pass of the loop over `next_hops`. -/
def putEntry (costs : AList fun _ : Nat => Nat) (version : Version) (t : NextHopTable)
    (item : Σ _ : Nat, Nat × Nat) : Option NextHopTable := do
  let nextHopPeerId ← graph.nodes[item.2.1]?
  let cost ← costs.lookup item.1
  let dstPeerId ← graph.nodes[item.1]?
  return t.putNextHop dstPeerId
    { nextHopPeerId, pathLatency := cost % AVOID_RELAY_COST, pathLen := item.2.2, version }

/-- Marking a start outside the graph as visited panics. -/
def genNextHopMapWithLeastCost (startNode : Nat) (version : Version) : Option NextHopTable :=
  if startNode < graph.nodes.length then do
    let (costs, nextHops) ← dijkstraWithFirstHop platform.heap Arc.weight startNode graph.edges
    let t ← (platform.nextHops.order nextHops.entries).foldlM (putEntry graph costs version) t
    return { t with nextHopMapVersion := max t.nextHopMapVersion version }
  else
    none

def normalizeEdgeCost (e : Arc Nat Nat) : Nat :=
  if AVOID_RELAY_COST ≤ e.weight then AVOID_RELAY_COST + 1 else 1

/-- Whether an edge is kept in the subgraph of the first search's shortest paths. -/
def keepEdge (pathLenMap : Nat → Option Nat) (e : Arc Nat Nat) : Bool :=
  match pathLenMap e.src, pathLenMap e.tgt with
  | some srcPathLen, some tgtPathLen => srcPathLen + normalizeEdgeCost e == tgtPathLen
  | _, _ => false

def genNextHopMapWithLeastHop (startNode : Nat) (version : Version) : Option NextHopTable :=
  if startNode < graph.nodes.length then
    let pathLenMap := platform.dijkstra graph.edges startNode normalizeEdgeCost
    let subgraph : PeerGraph := ⟨graph.nodes, graph.edges.filter (keepEdge pathLenMap)⟩
    genNextHopMapWithLeastCost platform t subgraph startNode version
  else
    none

inductive NextHopPolicy where
  | leastHop
  | leastCost

/-- The part of `build_from_synced_info` that fills the next hop map. -/
def buildNextHopMap (myPeerId : PeerId) (info : SyncedRouteInfo) (policy : NextHopPolicy)
    (calculateCost : PeerId → PeerId → Int) : Option NextHopTable := do
  let (graph, startNode) ← buildPeerGraphFromSyncedInfo platform myPeerId info calculateCost
  if graph.nodes.length = 0 then
    return t
  else
    match policy with
    | .leastHop => genNextHopMapWithLeastHop platform t graph startNode info.version
    | .leastCost => genNextHopMapWithLeastCost platform t graph startNode info.version

end PeerLink.Route
