import PeerLink.Route.Forwarding
import PeerLink.Schedule.Turns

/-!
# Builds at the same time

Several `build_from_synced_info` calls share one next hop table. What a build puts does
not depend on the table, so a build is a list of atomic actions: one for each entry, and
`set_if_larger` at the end. The table keeps the newest entry of each peer and the largest
version, in whatever order the actions come.
-/

namespace PeerLink.Route

open Best Schedule PeerLink.Graph

/-- The atomic actions of a build on the next hop table. -/
inductive TableAction where
  | putNextHop (dstPeerId : PeerId) (info : NextHopInfo)
  | setIfLarger (version : Version)

def TableAction.apply (t : NextHopTable) : TableAction → NextHopTable
  | putNextHop dstPeerId info => t.putNextHop dstPeerId info
  | setIfLarger version => { t with nextHopMapVersion := max t.nextHopMapVersion version }

/-- A call with the graph that it has read. -/
structure Build where
  platform : Platform
  graph : PeerGraph
  startNode : Nat
  policy : NextHopPolicy
  version : Version
  wellFormed : graph.WellFormed

namespace Build

/-- The graph that is searched last. -/
def searched (b : Build) : PeerGraph :=
  match b.policy with
  | .leastCost => b.graph
  | .leastHop =>
    ⟨b.graph.nodes, b.graph.edges.filter
      (keepEdge (b.platform.dijkstra b.graph.edges b.startNode normalizeEdgeCost))⟩

/-- The entries in the order in which they are put; a start outside the graph panics. -/
def entries (b : Build) : Option (List (PeerId × NextHopInfo)) :=
  if b.startNode < b.graph.nodes.length then do
    let (costs, nextHops) ←
      dijkstraWithFirstHop b.platform.heap Arc.weight b.startNode b.searched.edges
    (b.platform.nextHops.order nextHops.entries).mapM (nextHopEntry b.searched costs b.version)
  else
    none

/-- All that the call does to the table. Without a peer in the graph it returns at once. -/
def actions (b : Build) : Option (List TableAction) :=
  if b.graph.nodes.length = 0 then
    some []
  else
    b.entries.map fun entries =>
      entries.map (fun e => .putNextHop e.1 e.2) ++ [.setIfLarger b.version]

end Build

/-! ## The actions of a build are the build -/

/-- What the two `gen_next_hop_map` functions do is what the actions do. -/
theorem Build.actions_eq (b : Build) (t : NextHopTable) (peers : b.graph.nodes.length ≠ 0) :
    b.actions.map (·.foldl TableAction.apply t) =
      match b.policy with
      | .leastHop => genNextHopMapWithLeastHop b.platform t b.graph b.startNode b.version
      | .leastCost => genNextHopMapWithLeastCost b.platform t b.graph b.startNode b.version := by
  have search : genNextHopMapWithLeastCost b.platform t b.searched b.startNode b.version =
      b.actions.map (·.foldl TableAction.apply t) := by
    have nodes : b.searched.nodes = b.graph.nodes := by
      unfold searched
      split <;> rfl
    unfold genNextHopMapWithLeastCost actions entries
    rw [nodes, if_neg peers]
    by_cases inside : b.startNode < b.graph.nodes.length
    · rw [if_pos inside, if_pos inside]
      cases dijkstraWithFirstHop b.platform.heap Arc.weight b.startNode b.searched.edges with
      | none => rfl
      | some found =>
        simp only [Option.bind_eq_bind, Option.bind_some, putEntries_eq]
        cases (b.platform.nextHops.order found.2.entries).mapM
          (nextHopEntry b.searched found.1 b.version) with
        | none => rfl
        | some entries => simp [List.foldl_map, TableAction.apply]
    · rw [if_neg inside, if_neg inside]
      rfl
  rw [← search]
  cases policy : b.policy with
  | leastCost => simp [searched, policy]
  | leastHop =>
    simp only [searched, policy, genNextHopMapWithLeastHop]
    by_cases inside : b.startNode < b.graph.nodes.length
    · rw [if_pos inside]
    · rw [if_neg inside]
      simp [genNextHopMapWithLeastCost, inside]

/-- A build from synced infos is the build with the graph that they make. -/
theorem buildNextHopMap_actions {platform : Platform} {me : PeerId} {info : SyncedRouteInfo}
    {calculateCost : PeerId → PeerId → Int} {graph : PeerGraph} {startNode : Nat}
    (built : buildPeerGraphFromSyncedInfo platform me info calculateCost = some (graph, startNode))
    (wellFormed : graph.WellFormed) (policy : NextHopPolicy) (t : NextHopTable) :
    buildNextHopMap platform t me info policy calculateCost =
      (Build.actions ⟨platform, graph, startNode, policy, info.version, wellFormed⟩).map
        (·.foldl TableAction.apply t) := by
  simp only [buildNextHopMap, built, Option.bind_eq_bind, Option.bind_some]
  by_cases peers : graph.nodes.length = 0
  · rw [if_pos peers]
    simp [Build.actions, peers]
  · rw [if_neg peers]
    have result := Build.actions_eq
      ⟨platform, graph, startNode, policy, info.version, wellFormed⟩ t peers
    cases policy <;> exact result.symm

/-! ## Any order of actions -/

def putsOf (done : List TableAction) : List (PeerId × NextHopInfo) :=
  done.filterMap fun
    | .putNextHop dstPeerId info => some (dstPeerId, info)
    | .setIfLarger _ => none

section
variable {done : List TableAction}

variable {d : PeerId} {info : NextHopInfo}

theorem mem_putsOf :
    (d, info) ∈ putsOf done ↔ TableAction.putNextHop d info ∈ done := by
  unfold putsOf
  rw [List.mem_filterMap]
  constructor
  · rintro ⟨action, mem, put⟩
    cases action with
    | putNextHop dst other =>
      cases put
      exact mem
    | setIfLarger version => cases put
  · exact fun mem => ⟨_, mem, rfl⟩

theorem applied_nextHopMap (done : List TableAction) (t : NextHopTable) :
    (done.foldl TableAction.apply t).nextHopMap =
      keepAll nextHopRank t.nextHopMap (putsOf done) := by
  induction done generalizing t with
  | nil => rfl
  | cons action rest ih =>
    rw [List.foldl_cons, ih]
    cases action with
    | putNextHop d info =>
      simp only [TableAction.apply, putNextHop_keep]
      rfl
    | setIfLarger version => rfl

/-- The table has the largest version that was set. -/
theorem applied_version_le {version : Version} (done : List TableAction) (t : NextHopTable) :
    (done.foldl TableAction.apply t).nextHopMapVersion ≤ version ↔
      t.nextHopMapVersion ≤ version ∧ ∀ v, TableAction.setIfLarger v ∈ done → v ≤ version := by
  induction done generalizing t with
  | nil => simp
  | cons action rest ih =>
    rw [List.foldl_cons, ih]
    cases action with
    | putNextHop d info => simp [TableAction.apply, putNextHop_keep]
    | setIfLarger v => simp [TableAction.apply, and_assoc]

/-- A next hop was put, and no version after its own was set. -/
theorem getNextHop_put (hop : (done.foldl TableAction.apply .new).getNextHop d = some info) :
    TableAction.putNextHop d info ∈ done ∧
      (done.foldl TableAction.apply .new).nextHopMapVersion ≤ info.version := by
  obtain ⟨stored, current⟩ := getNextHop_eq_some.mp hop
  rw [applied_nextHopMap] at stored
  have best := @keepAll_isBest _ _ _ _ _ nextHopRank NextHopTable.new.nextHopMap (putsOf done) d
  refine ⟨?_, current⟩
  obtain old | put := best.from_ info stored
  · simp [NextHopTable.new] at old
  · exact mem_putsOf.mp put

/-- An entry of the table's version is found, itself or another one. -/
theorem getNextHop_of_put (put : TableAction.putNextHop d info ∈ done)
    (current : (done.foldl TableAction.apply .new).nextHopMapVersion ≤ info.version) :
    ∃ info', (done.foldl TableAction.apply .new).getNextHop d = some info' := by
  have best := @keepAll_isBest _ _ _ _ _ nextHopRank NextHopTable.new.nextHopMap (putsOf done) d
  obtain ⟨info', stored, newer⟩ := best.le info (mem_putsOf.mpr put)
  rw [← applied_nextHopMap] at stored
  exact ⟨info', getNextHop_eq_some.mpr ⟨stored,
    current.trans (OrderDual.toDual_le_toDual.mp newer)⟩⟩

end

/-! ## What one build puts -/

namespace Build

/-- The peer can be reached in the graph of the build. -/
def Reaches (b : Build) (d : PeerId) : Prop :=
  ∃ i, b.graph.nodes[i]? = some d ∧ Reachable b.graph.arcs b.startNode i

/-- The build has computed this entry for the peer. -/
def Computes (b : Build) (d : PeerId) (info : NextHopInfo) : Prop :=
  ∃ entries, b.entries = some entries ∧ (d, info) ∈ entries

variable {b : Build}

variable {actions : List TableAction} {action : TableAction}

theorem Computes.version {d : PeerId} {info : NextHopInfo} (computes : b.Computes d info) :
    info.version = b.version := by
  obtain ⟨entries, run, mem⟩ := computes
  unfold Build.entries at run
  split at run
  · obtain ⟨found, -, run⟩ := Option.bind_eq_some_iff.mp run
    obtain ⟨item, -, entry⟩ := (mem_mapM run).mp mem
    obtain ⟨hop, -, entry⟩ := Option.bind_eq_some_iff.mp entry
    obtain ⟨cost, -, entry⟩ := Option.bind_eq_some_iff.mp entry
    obtain ⟨dst, -, entry⟩ := Option.bind_eq_some_iff.mp entry
    cases entry
    rfl
  · cases run

variable (run : b.actions = some actions)
include run

/-- Which actions a build with a peer takes. -/
theorem mem_actions (peers : b.graph.nodes.length ≠ 0) :
    action ∈ actions ↔
      (∃ d info, action = .putNextHop d info ∧ b.Computes d info) ∨
        action = .setIfLarger b.version := by
  unfold Build.actions at run
  rw [if_neg peers] at run
  obtain ⟨entries, computed, rfl⟩ := Option.map_eq_some_iff.mp run
  have computes : ∀ d info, b.Computes d info ↔ (d, info) ∈ entries := by
    intro d info
    simp [Computes, computed]
  simp only [List.mem_append, List.mem_map, List.mem_singleton, Prod.exists, computes]
  refine or_congr (exists₂_congr fun d info => ?_) .rfl
  rw [and_comm, eq_comm]

theorem actions_peers (mem : action ∈ actions) : b.graph.nodes.length ≠ 0 := by
  intro empty
  simp only [Build.actions, empty, ↓reduceIte] at run
  cases run
  simp at mem

/-- A build that returns has an entry for exactly the peers it reaches. -/
theorem computes_iff_reaches (peers : b.graph.nodes.length ≠ 0) (d : PeerId) :
    (∃ info, b.Computes d info) ↔ b.Reaches d := by
  obtain ⟨entries, computed, -⟩ := Option.map_eq_some_iff.mp ((if_neg peers).symm.trans run)
  have inside : b.startNode < b.graph.nodes.length := by
    by_contra outside
    simp [Build.entries, outside] at computed
  -- the build alone, over an empty table, is the one whose result is known
  have alone : ∃ Chosen, Fills b.graph b.startNode (actions.foldl TableAction.apply .new)
      Chosen := by
    have result := b.actions_eq .new peers
    rw [run, Option.map_some] at result
    cases policy : b.policy with
    | leastHop =>
      obtain ⟨t, gen, fills⟩ := genNextHopMapWithLeastHop_spec b.platform b.wellFormed inside
        (NextHopTable.new_before b.version)
      simp only [policy, gen, Option.some.injEq] at result
      exact ⟨_, result ▸ fills⟩
    | leastCost =>
      obtain ⟨t, gen, fills⟩ := genNextHopMapWithLeastCost_spec b.platform b.wellFormed inside
        (NextHopTable.new_before b.version)
      simp only [policy, gen, Option.some.injEq] at result
      exact ⟨_, result ▸ fills⟩
  obtain ⟨Chosen, fills⟩ := alone
  rw [Reaches, ← fills.reachable d]
  have version : (actions.foldl TableAction.apply .new).nextHopMapVersion ≤ b.version := by
    refine (applied_version_le actions .new).mpr ⟨Nat.zero_le _, fun v set => ?_⟩
    obtain ⟨_, _, other, -⟩ | same := (mem_actions run peers).mp set
    · cases other
    · exact (TableAction.setIfLarger.inj same).le
  constructor
  · rintro ⟨info, computes⟩
    refine getNextHop_of_put ((mem_actions run peers).mpr (.inl ⟨d, info, rfl, computes⟩)) ?_
    rw [computes.version]
    exact version
  · rintro ⟨info, hop⟩
    obtain ⟨d', info', same, computes⟩ | other := (mem_actions run peers).mp (getNextHop_put hop).1
    · cases same
      exact ⟨info, computes⟩
    · cases other

end Build

/-! ## Any number of builds -/

/-- No build of a graph with peers has a later version. -/
structure Latest (builds : List Build) (b : Build) : Prop where
  mem : b ∈ builds
  peers : b.graph.nodes.length ≠ 0
  latest : ∀ other ∈ builds, other.graph.nodes.length ≠ 0 → other.version ≤ b.version

section
variable {builds : List Build} {actions : List (List TableAction)}

/-- The entries that are put are those that builds with a peer compute, and the versions
that are set are theirs. -/
theorem mem_actions_flatten (returns : builds.mapM Build.actions = some actions)
    {action : TableAction} :
    action ∈ actions.flatten ↔ ∃ b ∈ builds, b.graph.nodes.length ≠ 0 ∧
      ((∃ d info, action = .putNextHop d info ∧ b.Computes d info) ∨
        action = .setIfLarger b.version) := by
  rw [List.mem_flatten]
  constructor
  · rintro ⟨own, mem, here⟩
    obtain ⟨b, hb, run⟩ := (mem_mapM returns).mp mem
    have peers := Build.actions_peers run here
    exact ⟨b, hb, peers, (Build.mem_actions run peers).mp here⟩
  · rintro ⟨b, hb, peers, here⟩
    obtain ⟨own, run⟩ := mapM_returns_iff.mp ⟨_, returns⟩ b hb
    exact ⟨own, (mem_mapM returns).mpr ⟨b, hb, run⟩, (Build.mem_actions run peers).mpr here⟩

end

/-- **Concurrent builds.** When builds that return have finished on an empty table, in
whatever interleaving, a peer has a next hop exactly if it is reached in a build of the
latest version among those that have a peer in their graph, and such a build has computed
the next hop. -/
theorem concurrent_builds_converge (builds : List Build) (actions : List (List TableAction))
    (returns : builds.mapM Build.actions = some actions) (left : Threads NextHopTable TableAction)
    (turns : Turns TableAction.apply ⟨.new, actions⟩ left) (finished : Finished left)
    (d : PeerId) :
    ((∃ info, left.state.getNextHop d = some info) ↔ ∃ b, Latest builds b ∧ b.Reaches d) ∧
      ∀ info, left.state.getNextHop d = some info →
        ∃ b, Latest builds b ∧ b.Computes d info := by
  obtain ⟨done, state, perm⟩ := finished.permuted turns
  rw [state]
  have sets := ((applied_version_le done .new).mp le_rfl).2
  have ran : ∀ action, action ∈ done ↔ action ∈ actions.flatten := fun _ => perm.mem_iff
  have computed : ∀ info, (done.foldl TableAction.apply .new).getNextHop d = some info →
      ∃ b, Latest builds b ∧ b.Computes d info := by
    intro info hop
    obtain ⟨put, current⟩ := getNextHop_put hop
    obtain ⟨b, hb, peers, ⟨_, _, same, computes⟩ | other⟩ :=
      (mem_actions_flatten returns).mp ((ran _).mp put)
    · cases same
      refine ⟨b, ⟨hb, peers, fun other hother peers' => ?_⟩, computes⟩
      have set : TableAction.setIfLarger other.version ∈ done :=
        (ran _).mpr ((mem_actions_flatten returns).mpr ⟨other, hother, peers', .inr rfl⟩)
      calc other.version ≤ _ := sets _ set
        _ ≤ info.version := current
        _ = b.version := computes.version
    · cases other
  refine ⟨⟨?_, ?_⟩, computed⟩
  · rintro ⟨info, hop⟩
    obtain ⟨b, latest, computes⟩ := computed info hop
    obtain ⟨own, run⟩ := mapM_returns_iff.mp ⟨_, returns⟩ b latest.mem
    exact ⟨b, latest, (Build.computes_iff_reaches run latest.peers d).mp ⟨info, computes⟩⟩
  · rintro ⟨b, latest, reaches⟩
    obtain ⟨own, run⟩ := mapM_returns_iff.mp ⟨_, returns⟩ b latest.mem
    obtain ⟨info, computes⟩ := (Build.computes_iff_reaches run latest.peers d).mpr reaches
    have put : TableAction.putNextHop d info ∈ done :=
      (ran _).mpr ((mem_actions_flatten returns).mpr
        ⟨b, latest.mem, latest.peers, .inl ⟨d, info, rfl, computes⟩⟩)
    refine getNextHop_of_put put ?_
    rw [computes.version]
    -- the version of the table is the first one or was set by some build
    refine (applied_version_le done .new).mpr ⟨Nat.zero_le _, fun v set => ?_⟩
    obtain ⟨other, hother, peers, ⟨_, _, same, -⟩ | same⟩ :=
      (mem_actions_flatten returns).mp ((ran _).mp set)
    · cases same
    · exact (TableAction.setIfLarger.inj same).le.trans (latest.latest other hother peers)

/-! ### A newer build without a peer -/

def pairGraph : PeerGraph := ⟨[1, 2], [⟨0, 1, 0⟩]⟩

/-- Peer 1 reaches peer 2. -/
def pairBuild (version : Version) : Build where
  platform := .reference
  graph := pairGraph
  startNode := 0
  policy := .leastHop
  version := version
  wellFormed := ⟨by decide, by decide⟩

/-- The infos of all peers, the own one included, have gone. -/
def emptyBuild (version : Version) : Build where
  platform := .reference
  graph := .new
  startNode := nodeIndexEnd
  policy := .leastHop
  version := version
  wellFormed := ⟨by decide, by decide⟩

theorem pairBuilds_converge :
    ∃ actions left, [pairBuild 2, pairBuild 1].mapM Build.actions = some actions ∧
      Turns TableAction.apply ⟨.new, actions⟩ left ∧ Finished left ∧
      ((∃ info, left.state.getNextHop 2 = some info) ↔
        ∃ b, Latest [pairBuild 2, pairBuild 1] b ∧ b.Reaches 2) ∧
      ∀ info, left.state.getNextHop 2 = some info →
        ∃ b, Latest [pairBuild 2, pairBuild 1] b ∧ b.Computes 2 info := by
  obtain ⟨actions, returns, -⟩ : ∃ actions ∈ [pairBuild 2, pairBuild 1].mapM
    Build.actions, True := by
    decide +kernel
  obtain ⟨left, turns, finished, -⟩ := exists_finished TableAction.apply .new actions
  exact ⟨actions, left, returns, turns, finished,
    concurrent_builds_converge _ actions returns left turns finished 2⟩

/-- The later build returns without a peer, and the next hop of the earlier one stays. -/
theorem emptyBuild_keeps_next_hop :
    ∃ actions left info, [pairBuild 1, emptyBuild 2].mapM Build.actions = some actions ∧
      Turns TableAction.apply ⟨.new, actions⟩ left ∧ Finished left ∧
      left.state.getNextHop 2 = some info ∧
      ¬ ∃ b ∈ [pairBuild 1, emptyBuild 2],
        (∀ other ∈ [pairBuild 1, emptyBuild 2], other.version ≤ b.version) ∧ b.Reaches 2 := by
  obtain ⟨actions, returns, info, hop, -⟩ : ∃ actions ∈ [pairBuild 1, emptyBuild 2].mapM
    Build.actions,
      ∃ info ∈ (actions.flatten.foldl TableAction.apply .new).getNextHop 2, True := by
    decide +kernel
  obtain ⟨left, turns, finished, state⟩ := exists_finished TableAction.apply .new actions
  refine ⟨actions, left, info, returns, turns, finished, state ▸ hop, ?_⟩
  rintro ⟨b, mem, latest, i, node, -⟩
  have version : 2 ≤ b.version := latest (emptyBuild 2) (by simp)
  obtain rfl | rfl : b = pairBuild 1 ∨ b = emptyBuild 2 := by simpa using mem
  · exact absurd version (by decide)
  · simp [emptyBuild, PeerGraph.new] at node

end PeerLink.Route
