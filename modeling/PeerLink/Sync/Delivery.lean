import PeerLink.Route.Forwarding
import PeerLink.Sync.Convergence

/-!
# Nodes that have heard the same

Each node stores what it hears in its own order, and builds its next hops from its own store.
-/

namespace PeerLink.Sync.Update

open Route PeerLink.Graph SyncedRouteInfo

/-- What a table stands for depends on the lookups in the store. -/
theorem routes_congr {s s' : SyncedRouteInfo} {costs : PeerId → PeerId → Int} {n : PeerId}
    {t : NextHopTable} (peers : ∀ p, s.peerInfos.lookup p = s'.peerInfos.lookup p)
    (conns : ∀ p, s.connMap.lookup p = s'.connMap.lookup p)
    (routes : Routes s costs n t) : Routes s' costs n t := by
  have arcs : links s = links s' := by
    simp only [links, Known, connected, getConnectedPeers, peers, conns]
  have avoid : s.getAvoidRelayData = s'.getAvoidRelayData := by
    funext p
    simp only [getAvoidRelayData, peers]
  refine ⟨fun d => arcs ▸ routes.reachable d, fun d e entry => ?_⟩
  obtain ⟨p, ⟨shortest, cheapest⟩, first⟩ := routes.selected d e entry
  unfold hopCost edgeWeight at *
  rw [arcs, avoid] at shortest cheapest
  exact ⟨p, ⟨shortest, cheapest⟩, first⟩

/-- **Nodes that have heard the same deliver.** The peers that `me` knows have applied the same
updates, each in its own order and with its own repetitions, and build least-hop tables from their
own stores and costs. Then following the tables reaches every peer in reach, visits no peer twice
and takes the stored number of hops. -/
theorem heard_alike_delivers {routeIdOf : PeerId → Nat} {updates : List Update}
    (consistent : Consistent routeIdOf updates) {start : SyncedRouteInfo}
    (ids : RouteIds routeIdOf start.peerInfos) (me : PeerId) (heard : PeerId → List Update)
    (platform : PeerId → Platform) {calculateCost : PeerId → PeerId → PeerId → Int}
    (range : ∀ n, CostInRange (calculateCost n)) :
    let store n := applyAll n (routeIdOf n) start (heard n)
    let Known := (store me).Known
    Known me → (store me).knownPeers.length ≤ AVOID_RELAY_COST + 1 →
    (∀ n, Known n → ∀ update, update ∈ heard n ↔ update ∈ updates) →
    ∃ table : PeerId → NextHopTable,
      (∀ n, Known n → buildNextHopMap (platform n) .new n (store n) .leastHop (calculateCost n) =
        some (table n)) ∧
      ∀ n d, Known n → Reachable (links (store me)) n d →
        ∃ e visited, Delivers table n d e visited := by
  intro store Known known size same
  have newest n (there : Known n) : Newest start updates (store n) := by
    have stored := @applyAll_newest start _ (heard n) n ids fun u mem =>
      consistent.route u ((same n there u).mp mem)
    constructor <;> intro p
    · simpa only [infosOf, same n there] using stored.peerInfos p
    · simpa only [rowsOf, same n there] using stored.connMap p
  have peers n (there : Known n) p :=
    ((newest n there).peerInfos p).unique (consistent.infos_apart p) ((newest me known).peerInfos p)
  have : Nonempty NextHopTable := ⟨.new⟩
  choose! table built routes using fun n (there : Known n) =>
    buildNextHopMap_routes (platform n)
      (there.imp fun _ info => ⟨(peers n there n).trans info.1, info.2⟩) (range n)
      (NextHopTable.new_before (store n).version)
  have alike n (there : Known n) : Routes (store me) (calculateCost n) n (table n) := by
    refine routes_congr (peers n there) (fun p => ?_) (routes n there)
    exact ((newest n there).connMap p).unique (consistent.rows_apart p)
      ((newest me known).connMap p)
  refine ⟨table, built, fun n d there reach => ?_⟩
  obtain ⟨e, entry⟩ := ((alike n there).reachable d).mpr reach
  obtain ⟨visited, delivers, -⟩ := Routes.delivers size alike there entry rfl
  exact ⟨e, visited, delivers⟩

/-- Nodes 2 and 3 know of their link, and hear of each other more than once. -/
theorem pair_delivers :
    let linked : SyncedRouteInfo :=
      { new with connMap := [⟨2, ({3}, 1)⟩, ⟨3, ({2}, 1)⟩].toAList }
    let store n := applyAll n (n * 10) linked (.replicate (n + 1) pairInfos)
    ∃ table e visited, (∀ n ∈ [2, 3], buildNextHopMap .reference .new n (store n) .leastHop
      (fun _ _ => 0) = some (table n)) ∧ Delivers table 2 3 e visited := by
  intro linked store
  have known : ∀ p ∈ [2, 3], ∃ info ∈ (store 2).peerInfos.lookup p, info.version ≠ 0 := by
    decide +kernel
  obtain ⟨table, built, delivers⟩ := @heard_alike_delivers (· * 10) [pairInfos]
    ⟨by decide, by decide, by decide, by simp [pairInfos, rows], by simp [pairInfos, rows]⟩
    linked (by simp [RouteIds, linked, new]) 2 (fun n => .replicate (n + 1) pairInfos)
    (fun _ => .reference) (fun _ _ _ => 0) (fun _ _ _ => ⟨le_rfl, by simp [AVOID_RELAY_COST]⟩)
    (known 2 (by simp)) (by decide +kernel) fun n _ u => by simp
  obtain ⟨e, visited, arrives⟩ := delivers 2 3 (known 2 (by simp))
    ⟨[⟨2, 3, ()⟩], ⟨known 2 (by simp), known 3 (by simp), by decide +kernel⟩, rfl, rfl⟩
  exact ⟨table, e, visited, fun n mem => built n (known n mem), arrives⟩

end PeerLink.Sync.Update
