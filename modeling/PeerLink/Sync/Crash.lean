import PeerLink.Sync.Defined
import PeerLink.Sync.Received

/-!
# Messages that crash a node

`do_sync_route_info` with the two route tables that it rebuilds. A message is stored
first, and then its contents are used: bits are read at positions that the message does
not have to contain, keys and networks are unwrapped that it may leave out or misspell.
What the node knows afterwards is the newest of what it knew and what it was told
(`received`), so whether it gets through can be told from the message and the state
before it.
-/

namespace PeerLink.Route

open Best

/-! ## Builds over any table -/

/-- The table has an entry for the peer that a build of this version takes for its own. -/
def NextHopTable.Recent (t : NextHopTable) (version : Version) (p : PeerId) : Prop :=
  ∃ entry, t.nextHopMap.lookup p = some entry ∧ version ≤ entry.version

variable {syncedInfo : SyncedRouteInfo} {me : PeerId}

/-- After a build the entries of its version are those of the peers that can be reached,
and those that were there. -/
theorem buildNextHopMap_recent (platform : Platform) (policy : NextHopPolicy)
    (calculateCost : PeerId → PeerId → Int) (known : syncedInfo.Known me) (t : NextHopTable) :
    ∃ hops, buildNextHopMap platform t me syncedInfo policy calculateCost = some hops ∧
      ∀ p, hops.Recent syncedInfo.version p ↔
        Reaches syncedInfo me p ∨ t.Recent syncedInfo.version p := by
  obtain ⟨g, start, built, node, rep⟩ := buildPeerGraph_spec platform calculateCost known
  have peers : g.nodes.length ≠ 0 :=
    Nat.ne_zero_of_lt (List.getElem?_eq_some_iff.mp node).1
  obtain ⟨-, -, fresh, -, -, run, builtFor⟩ := buildNextHopMap_builtFor platform policy
    calculateCost known (NextHopTable.new_before syncedInfo.version)
  rw [buildNextHopMap_actions built rep.wf] at run ⊢
  obtain ⟨actions, computed, rfl⟩ := Option.map_eq_some_iff.mp run
  have version : ∀ d info, TableAction.putNextHop d info ∈ actions →
      info.version = syncedInfo.version := by
    intro d info put
    rcases (Build.mem_actions computed peers).mp put with ⟨_, _, same, computes⟩ | other
    · cases same
      exact computes.version
    · cases other
  -- what the same actions leave in an empty table tells which peers they put
  have puts : ∀ p, (∃ info, TableAction.putNextHop p info ∈ actions) ↔ Reaches syncedInfo me p := by
    intro p
    rw [← builtFor.reaches p]
    constructor
    · rintro ⟨info, put⟩
      exact getNextHop_of_put put (by rw [builtFor.version, version p info put])
    · rintro ⟨info, hop⟩
      exact ⟨info, (getNextHop_put hop).1⟩
  refine ⟨_, by rw [computed]; rfl, fun p => ?_⟩
  have best := @keepAll_isBest _ _ _ _ _ nextHopRank t.nextHopMap (putsOf actions) p
  simp only [NextHopTable.Recent, applied_nextHopMap]
  constructor
  · rintro ⟨entry, stored, recent⟩
    obtain old | put := best.from_ entry stored
    · exact .inr ⟨entry, old, recent⟩
    · exact .inl ((puts p).mp ⟨entry, mem_putsOf.mp put⟩)
  · rintro (reach | ⟨entry, old, recent⟩)
    · obtain ⟨info, put⟩ := (puts p).mpr reach
      obtain ⟨entry, stored, newer⟩ := best.le info (mem_putsOf.mpr put)
      have le : info.version ≤ entry.version := OrderDual.toDual_le_toDual.mp newer
      exact ⟨entry, stored, (version p info put).symm.le.trans le⟩
    · obtain ⟨kept, stored, rfl | newer⟩ := best.old_le entry old
      · exact ⟨kept, stored, recent⟩
      · have lt : entry.version < kept.version := OrderDual.toDual_lt_toDual.mp newer
        exact ⟨kept, stored, recent.trans lt.le⟩

/-- Every network that the info advertises can be parsed. -/
def Parses (parse : String → Option Cidr) (info : RoutePeerInfo) : Prop :=
  ∀ text ∈ info.proxyCidrs, (parse text).isSome = true

/-- A build has a start and parses what it meets, or it has nothing to do. -/
def BuildSafe (parse : String → Option Cidr) (syncedInfo : SyncedRouteInfo) (me : PeerId)
    (t : NextHopTable) : Prop :=
  (syncedInfo.Known me ∧ ∀ p info, Reaches syncedInfo me p ∨ t.Recent syncedInfo.version p →
      syncedInfo.peerInfos.lookup p = some info → Parses parse info) ∨
    ∀ p, ¬ syncedInfo.Known p

theorem BuildSafe.congr {parse : String → Option Cidr} {t : NextHopTable} {other : SyncedRouteInfo}
    (peerInfos : other.peerInfos = syncedInfo.peerInfos)
    (connMap : other.connMap = syncedInfo.connMap)
    (version : other.version = syncedInfo.version) :
    BuildSafe parse other me t ↔ BuildSafe parse syncedInfo me t := by
  obtain ⟨_, _, _, _, _⟩ := other
  cases peerInfos
  cases connMap
  cases version
  exact Iff.rfl

theorem unparsable_iff {parse : String → Option Cidr} {item : Σ _ : PeerId, NextHopInfo} :
    ¬ Unparsable parse syncedInfo item ↔ (syncedInfo.version ≤ item.2.version →
      ∀ info, syncedInfo.peerInfos.lookup item.1 = some info → Parses parse info) := by
  simp [Unparsable, Parses, not_and, not_exists, ← Option.ne_none_iff_isSome]

/-- A build returns exactly if it is safe, whatever the table holds. -/
theorem buildFromSyncedInfo_returns_iff (platform : Platform)
    (order : IterOrder (Σ _ : PeerId, NextHopInfo)) (parse : String → Option Cidr) (t : RouteTable)
    (policy : NextHopPolicy) (calculateCost : PeerId → PeerId → Int) (mine : me < 2 ^ 32)
    (ids : ∀ p, syncedInfo.Known p → p < 2 ^ 32) :
    (buildFromSyncedInfo platform order parse t me syncedInfo policy calculateCost).2 = false ↔
      BuildSafe parse syncedInfo me t.toNextHopTable := by
  by_cases known : syncedInfo.Known me
  · obtain ⟨g, start, built, node, -⟩ := buildPeerGraph_spec platform calculateCost known
    have peers : g.nodes.length ≠ 0 :=
      Nat.ne_zero_of_lt (List.getElem?_eq_some_iff.mp node).1
    obtain ⟨hops, run, recent⟩ :=
      buildNextHopMap_recent platform policy calculateCost known t.toNextHopTable
    have entries : ∀ item, item ∈ order.order hops.nextHopMap.entries ↔
        hops.nextHopMap.lookup item.1 = some item.2 := fun _ => order.mem_entries
    simp only [buildFromSyncedInfo, built, peers, ↓reduceIte, run, putPeers_returns_iff,
      unparsable_iff, entries]
    constructor
    · intro parses
      refine .inl ⟨known, fun p info met stored => ?_⟩
      obtain ⟨entry, found, current⟩ := (recent p).mpr met
      exact parses ⟨p, entry⟩ found current info stored
    · rintro (⟨-, parses⟩ | none)
      · intro item found current info stored
        exact parses item.1 info ((recent item.1).mp ⟨item.2, found, current⟩) stored
      · exact absurd known (none me)
  · rw [build_unknown platform order policy calculateCost known mine ids]
    exact ⟨.inr, fun safe => safe.resolve_left fun h => known h.1⟩

end PeerLink.Route

namespace PeerLink.Sync

open Route Best SyncedRouteInfo

/-! ## A node with its route tables -/

structure Router extends Node where
  routeTable : RouteTable
  routeTableWithCost : RouteTable

/-- Third-party behaviour, iteration orders and the cost calculator during one request. -/
structure RebuildEnv where
  orders : MapOrders
  platform : NextHopPolicy → Platform
  nextHopOrder : NextHopPolicy → IterOrder (Σ _ : PeerId, NextHopInfo)
  parse : String → Option Cidr
  calculateCost : PeerId → PeerId → Int

namespace Router

variable (r : Router) (request : SyncRouteInfoRequest) (env : RebuildEnv)

def peerReachable (p : PeerId) : Bool := (r.routeTable.getNextHop p).isSome

/-- One of the two builds of `update_route_table`. -/
def build (policy : NextHopPolicy) (t : RouteTable) : RouteTable × Bool :=
  buildFromSyncedInfo (env.platform policy) (env.nextHopOrder policy) env.parse t r.myPeerId
    r.syncedRouteInfo policy env.calculateCost

/-- `update_route_table`; the flag says that it panicked. -/
def updateRouteTable : Router × Bool :=
  match r.build env .leastHop r.routeTable with
  | (t, true) => ({ r with routeTable := t }, true)
  | (t, false) =>
    let (t', panicked) := r.build env .leastCost r.routeTableWithCost
    ({ r with routeTable := t, routeTableWithCost := t' }, panicked)

/-- `update_route_table_and_cached_local_conn_bitmap`, if infos or rows came in. -/
def refresh (r : Router) : Router × Option Fault :=
  if request.peerInfos.isSome || request.connBitmap.isSome then
    match r.updateRouteTable env with
    | (r, true) => (r, some .panicked)
    | (r, false) =>
      ({ r with toNode := r.updateCachedLocalConnBitmap ⟨env.orders, r.peerReachable⟩ }, none)
  else
    (r, none)

/-- What `do_sync_route_info` does before the rebuild. -/
def takeInfosAndRows (randomId : SessionId) : Node × Option Fault :=
  let from_ := request.myPeerId
  let node := (r.getOrCreateSession from_ randomId).modifySession from_
    (·.updateDstSessionId request.mySessionId)
  Node.andThen (Node.takePeerInfos from_ request.peerInfos node)
    (Node.takeConnBitmap from_ request.connBitmap)

/-- `do_sync_route_info` up to the response, with the rebuild of the tables. -/
def doSyncRouteInfo (randomId : SessionId) (env : RebuildEnv) : Router × Option Fault :=
  let from_ := request.myPeerId
  match r.takeInfosAndRows request randomId with
  | (node, some fault) => ({ r with toNode := node }, some fault)
  | (node, none) =>
    match refresh request env { r with toNode := node } with
    | (r, some fault) => (r, some fault)
    | (r, none) =>
      let (node, fault) := Node.andThen
        (Node.takeForeignNetwork from_ request.foreignNetworkInfos r.toNode) fun node =>
          (node.modifySession from_ ({ · with dstIsInitiator := request.isInitiator }), none)
      ({ r with toNode := node }, fault)

variable {request : SyncRouteInfoRequest} {env : RebuildEnv} {r r' : Router}

@[simp] theorem updateRouteTable_toNode (r : Router) (env : RebuildEnv) :
    (r.updateRouteTable env).1.toNode = r.toNode := by
  unfold updateRouteTable
  split <;> rfl

end Router

/-! ## Stage by stage -/

/-- The bytes hold a bit for each pair of listed peers. -/
def BitsFit (connBitmap : Option RouteConnBitmap) : Prop :=
  ∀ b, connBitmap = some b → (b.peerIds.length * b.peerIds.length + 7) / 8 ≤ b.bitmap.length

/-- No item leaves out its key or its value. -/
def NetworksPresent (foreignNetwork : Option (List ForeignNetworkInfo)) : Prop :=
  ∀ items, foreignNetwork = some items →
    ∀ item ∈ items, item.key.isSome = true ∧ item.value.isSome = true

def infosOf (peerInfos : Option (List RawPeerInfo)) : List RoutePeerInfo :=
  (peerInfos.getD []).map (·.known)

/-- No info of the message gives away a duplicated peer id, ours or the sender's, by the
check that is made before it is stored. -/
def NoDuplicatePeerId (node : Node) (from_ : PeerId) (peerInfos : Option (List RawPeerInfo)) :
    Prop :=
  ∀ (k : Nat) (info : RoutePeerInfo), (infosOf peerInfos)[k]? = some info →
    let s := merged node.syncedRouteInfo ((infosOf peerInfos).take k)
    s.checkDuplicatePeerId node.myPeerId node.myPeerRouteId from_
      (if info.peerId = from_ then (s.peerInfos.lookup from_).map (·.peerRouteId) else none) info =
        none

/-- A stage of a request: the node is still the same and has the session of the sender. -/
structure SameNode (p : PeerId) (node node' : Node) : Prop where
  myPeerId : node'.myPeerId = node.myPeerId
  session : (node.sessions.lookup p).isSome = true → (node'.sessions.lookup p).isSome = true

section

variable {p : PeerId} {node node' node'' : Node}

theorem SameNode.trans (first : SameNode p node node') (second : SameNode p node' node'') :
    SameNode p node node'' :=
  ⟨second.myPeerId.trans first.myPeerId, fun had => second.session (first.session had)⟩

theorem sameNode_modifySession (node : Node) (p : PeerId)
    (f : SyncRouteSession → SyncRouteSession) : SameNode p node (node.modifySession p f) := by
  unfold Node.modifySession
  split
  · refine ⟨rfl, fun _ => ?_⟩
    rw [AList.lookup_insert, Option.isSome_some]
  · exact ⟨rfl, id⟩

/-- Both parts of the message up to the rebuild store, and then note it in the session. -/
theorem storeThenSave_same (updated : SyncedRouteInfo × Option Fault)
    (f : SyncRouteSession → SyncRouteSession) :
    let result := Node.andThen ({ node with syncedRouteInfo := updated.1 }, updated.2) fun node =>
      (node.modifySession p f, none)
    result.2 = updated.2 ∧ SameNode p node result.1 ∧ result.1.syncedRouteInfo = updated.1 := by
  obtain ⟨synced, fault⟩ := updated
  have stored : SameNode p node { node with syncedRouteInfo := synced } := ⟨rfl, id⟩
  cases fault with
  | some fault => exact ⟨rfl, stored, rfl⟩
  | none =>
    exact ⟨rfl, stored.trans (sameNode_modifySession _ p f), Node.modifySession_synced ..⟩

theorem takePeerInfos_stage {peerInfos : Option (List RawPeerInfo)}
    (single : NoDuplicatePeerId node p peerInfos) :
    let result := Node.takePeerInfos p peerInfos node
    let s := node.syncedRouteInfo
    let s' := result.1.syncedRouteInfo
    result.2 = none ∧ SameNode p node result.1 ∧ Keeps s (keyed (infosOf peerInfos)) [] s' ∧
      s'.version = raised s.version ((infosOf peerInfos).any (isNewInfo s)) := by
  cases peerInfos with
  | none => exact ⟨rfl, ⟨rfl, id⟩, .refl _, rfl⟩
  | some raws =>
    have returns : (node.syncedRouteInfo.updatePeerInfos node.myPeerId node.myPeerRouteId p
        (raws.map (·.known)) raws).2 = none := by
      rw [updatePeerInfos_snd, storePeerInfos_returns_iff]
      intro k info found
      refine ⟨single k info found, ?_⟩
      rw [List.getElem?_map] at found
      obtain ⟨raw, there, rfl⟩ := Option.map_eq_some_iff.mp found
      rw [there]
      rfl
    obtain ⟨fault, same, synced⟩ := @storeThenSave_same p node
      (node.syncedRouteInfo.updatePeerInfos node.myPeerId node.myPeerRouteId p
        (raws.map (·.known)) raws) (·.updateDstSavedPeerInfoVersion (raws.map (·.known)))
    obtain ⟨keeps, version⟩ := updatePeerInfos_received returns
    intro result s s'
    have stored : s' = _ := synced
    exact ⟨fault.trans returns, same, stored ▸ keeps, stored ▸ version⟩

def idsOf (connBitmap : Option RouteConnBitmap) : List PeerId := (connBitmap.map listedIds).getD []

def rowsOf (connBitmap : Option RouteConnBitmap) : List (PeerId × (Finset PeerId × Version)) :=
  (connBitmap.map receivedRows).getD []

theorem takeConnBitmap_stage (node : Node) (p : PeerId) (connBitmap : Option RouteConnBitmap) :
    let result := Node.takeConnBitmap p connBitmap node
    let s := node.syncedRouteInfo
    let s' := result.1.syncedRouteInfo
    (result.2 = none ↔ BitsFit connBitmap) ∧ (result.2 = none ∨ result.2 = some .panicked) ∧
      SameNode p node result.1 ∧ (result.2 = none →
        Keeps s (placeholders .new (idsOf connBitmap))
          (placeholders (∅, 0) (idsOf connBitmap) ++ rowsOf connBitmap) s' ∧
        s'.version = raised (raised s.version ((idsOf connBitmap).any (isNewId s)))
          ((rowsOf connBitmap).any (isNewRow s))) := by
  cases connBitmap with
  | none =>
    exact ⟨iff_of_true rfl nofun, .inl rfl, ⟨rfl, id⟩,
      fun _ => ⟨.refl _, rfl⟩⟩
  | some b =>
    obtain ⟨fault, same, synced⟩ := @storeThenSave_same p node
      (node.syncedRouteInfo.updateConnMap b) (·.updateDstSavedConnBitmapVersion b)
    have fits : BitsFit (some b) ↔ (node.syncedRouteInfo.updateConnMap b).2 = none := by
      rw [updateConnMap_returns_iff]
      exact ⟨fun fit => fit b rfl, fun fit other same => Option.some.inj same ▸ fit⟩
    intro result s s'
    have stored : s' = _ := synced
    have stops : result.2 = _ := fault
    rw [stops]
    refine ⟨fits.symm, updateConnMap_fault _ b, same, fun returns => ?_⟩
    rw [stored]
    exact updateConnMap_received returns

theorem raiseForeign_fault (saved : ForeignNetworkMap Version) (items : List ForeignNetworkInfo) :
    ((raiseForeign saved items).2 = none ↔
        ∀ item ∈ items, item.key.isSome = true ∧ item.value.isSome = true) ∧
      ((raiseForeign saved items).2 = none ∨ (raiseForeign saved items).2 = some .panicked) := by
  induction items generalizing saved with
  | nil => simp [raiseForeign]
  | cons item rest ih =>
    obtain ⟨key, value⟩ := item
    cases key with
    | none => simp [raiseForeign]
    | some key =>
      cases value with
      | none => simp [raiseForeign]
      | some value => simpa [raiseForeign] using ih (raise saved key value.version)

theorem takeForeignNetwork_stage {foreignNetwork : Option (List ForeignNetworkInfo)}
    (session : (node.sessions.lookup p).isSome = true) :
    let result := Node.takeForeignNetwork p foreignNetwork node
    (result.2 = none ↔ NetworksPresent foreignNetwork) ∧
      (result.2 = none ∨ result.2 = some .panicked) := by
  cases foreignNetwork with
  | none => exact ⟨iff_of_true rfl nofun, .inl rfl⟩
  | some items =>
    obtain ⟨own, found⟩ := Option.isSome_iff_exists.mp session
    have raised := raiseForeign_fault own.dstSavedForeignNetworkVersions items
    have result : (Node.takeForeignNetwork p (some items) node).2 =
        (raiseForeign own.dstSavedForeignNetworkVersions items).2 := by
      simp only [Node.takeForeignNetwork, found]
      rfl
    dsimp only
    rw [result]
    refine ⟨raised.1.trans ?_, raised.2⟩
    exact ⟨fun all other same => Option.some.inj same ▸ all, fun all => all items rfl⟩

end

/-! ## The rebuild -/

/-- The message makes the node rebuild its tables. -/
def Rebuilds (request : SyncRouteInfoRequest) : Prop :=
  request.peerInfos.isSome = true ∨ request.connBitmap.isSome = true

/-- Both builds are safe. -/
def TablesSafe (parse : String → Option Cidr) (syncedInfo : SyncedRouteInfo) (me : PeerId)
    (r : Router) : Prop :=
  BuildSafe parse syncedInfo me r.routeTable.toNextHopTable ∧
    BuildSafe parse syncedInfo me r.routeTableWithCost.toNextHopTable

namespace Router

variable {r : Router} {env : RebuildEnv}

theorem updateRouteTable_returns_iff (mine : r.myPeerId < 2 ^ 32)
    (ids : ∀ p, r.syncedRouteInfo.Known p → p < 2 ^ 32) :
    (r.updateRouteTable env).2 = false ↔
      TablesSafe env.parse r.syncedRouteInfo r.myPeerId r := by
  have hop : (r.build env .leastHop r.routeTable).2 = false ↔ _ :=
    buildFromSyncedInfo_returns_iff _ _ env.parse r.routeTable .leastHop env.calculateCost mine ids
  have cost : (r.build env .leastCost r.routeTableWithCost).2 = false ↔ _ :=
    buildFromSyncedInfo_returns_iff _ _ env.parse r.routeTableWithCost .leastCost
      env.calculateCost mine ids
  unfold TablesSafe
  rw [← hop, ← cost]
  unfold updateRouteTable
  split
  · rename_i panics
    simp [panics]
  · rename_i returns
    simp [returns]

theorem refresh_stage {request : SyncRouteInfoRequest} (mine : r.myPeerId < 2 ^ 32)
    (ids : ∀ p, r.syncedRouteInfo.Known p → p < 2 ^ 32) :
    let result := refresh request env r
    (result.2 = none ↔
        (Rebuilds request → TablesSafe env.parse r.syncedRouteInfo r.myPeerId r)) ∧
      (result.2 = none ∨ result.2 = some .panicked) ∧
      ∀ p, SameNode p r.toNode result.1.toNode := by
  have tables := @updateRouteTable_returns_iff r env mine ids
  have same := updateRouteTable_toNode r env
  unfold refresh
  by_cases wanted : (request.peerInfos.isSome || request.connBitmap.isSome) = true
  · have rebuilds : Rebuilds request := Bool.or_eq_true_iff.mp wanted
    rw [if_pos wanted]
    cases built : r.updateRouteTable env with
    | mk after panicked =>
      rw [built] at tables same
      cases panicked with
      | true =>
        refine ⟨iff_of_false (by simp) fun safe => ?_, .inr rfl, fun p => ?_⟩
        · exact absurd (tables.mpr (safe rebuilds)) (by simp)
        · exact same ▸ ⟨rfl, id⟩
      | false =>
        refine ⟨iff_of_true rfl fun _ => tables.mp rfl, .inl rfl, fun p => ?_⟩
        have node : after.toNode = r.toNode := same
        refine ⟨?_, ?_⟩
        · exact (Node.updateCachedLocalConnBitmap_same after.toNode _).1.trans
            (congrArg Node.myPeerId node)
        · rw [(Node.updateCachedLocalConnBitmap_same after.toNode _).2, node]
          exact id
  · have idle : ¬ Rebuilds request := fun rebuilds => wanted (Bool.or_eq_true_iff.mpr rebuilds)
    rw [if_neg wanted]
    exact ⟨iff_of_true rfl fun rebuilds => absurd rebuilds idle, .inl rfl, fun p => ⟨rfl, id⟩⟩

end Router

/-! ## A whole request -/

/-- What the node knows once it has kept the newest of what it knew and what it is told. -/
def received (s : SyncedRouteInfo) (request : SyncRouteInfoRequest) : SyncedRouteInfo :=
  let infos := infosOf request.peerInfos
  let ids := idsOf request.connBitmap
  let rows := rowsOf request.connBitmap
  { s with
    peerInfos := keepAll infoRank s.peerInfos (keyed infos ++ placeholders .new ids)
    connMap := keepAll rowRank s.connMap (placeholders (∅, 0) ids ++ rows)
    version := raised (raised (raised s.version (infos.any (isNewInfo s)))
      (ids.any (isNewId (merged s infos)))) (rows.any (isNewRow s)) }

variable {s : SyncedRouteInfo} {request : SyncRouteInfoRequest} {p : PeerId}

/-- An info was there, was sent or is a placeholder. -/
theorem received_origin
    {info : RoutePeerInfo} (found : (received s request).peerInfos.lookup p = some info) :
    s.peerInfos.lookup p = some info ∨ (info ∈ infosOf request.peerInfos ∧ info.peerId = p) ∨
      info = .new := by
  have best := @keepAll_isBest _ _ _ _ _ infoRank s.peerInfos
    (keyed (infosOf request.peerInfos) ++ placeholders .new (idsOf request.connBitmap)) p
  obtain old | new := best.from_ info found
  · exact .inl old
  · rcases List.mem_append.mp new with sent | placeholder
    · exact .inr (.inl (mem_keyed.mp sent))
    · exact .inr (.inr (mem_placeholders.mp placeholder).2)

theorem received_known (known : s.Known p)
    (request : SyncRouteInfoRequest) : (received s request).Known p := by
  obtain ⟨info, found, nonzero⟩ := known
  have best := @keepAll_isBest _ _ _ _ _ infoRank s.peerInfos
    (keyed (infosOf request.peerInfos) ++ placeholders .new (idsOf request.connBitmap)) p
  obtain ⟨kept, stored, rfl | newer⟩ := best.old_le info found
  · exact ⟨kept, stored, nonzero⟩
  · have lt : info.version < kept.version := OrderDual.toDual_lt_toDual.mp newer
    exact ⟨kept, stored, Nat.ne_zero_of_lt lt⟩

/-- The first two stages store what is received. -/
theorem stages_received {mid s' : SyncedRouteInfo}
    (infos : Keeps s (keyed (infosOf request.peerInfos)) [] mid)
    (infoVersion : mid.version = raised s.version
      ((infosOf request.peerInfos).any (isNewInfo s)))
    (rows : Keeps mid (placeholders .new (idsOf request.connBitmap))
      (placeholders (∅, 0) (idsOf request.connBitmap) ++ rowsOf request.connBitmap) s')
    (rowVersion : s'.version =
      raised (raised mid.version ((idsOf request.connBitmap).any (isNewId mid)))
        ((rowsOf request.connBitmap).any (isNewRow mid))) :
    s'.peerInfos = (received s request).peerInfos ∧ s'.connMap = (received s request).connMap ∧
      s'.version = (received s request).version := by
  have both := infos.trans rows
  have connMap : mid.connMap = s.connMap := infos.connMap
  have ids : isNewId mid = isNewId (merged s (infosOf request.peerInfos)) := by
    funext p
    simp [isNewId, infos.peerInfos, connMap, merged]
  have news : isNewRow mid = isNewRow s := by
    unfold isNewRow Sync.rowVersion
    rw [connMap]
  refine ⟨both.peerInfos, both.connMap, ?_⟩
  rw [rowVersion, infoVersion, ids, news]
  rfl

/-- Peer ids are 32-bit, in the node and in the message. -/
structure ValidIds (r : Router) (request : SyncRouteInfoRequest) : Prop where
  mine : r.myPeerId < 2 ^ 32
  stored : ∀ p, r.syncedRouteInfo.Known p → p < 2 ^ 32
  sent : ∀ info ∈ infosOf request.peerInfos, info.peerId < 2 ^ 32

theorem ValidIds.received {r : Router} (valid : ValidIds r request)
    (peerInfos : s.peerInfos = (received r.syncedRouteInfo request).peerInfos)
    (known : s.Known p) : p < 2 ^ 32 := by
  obtain ⟨info, found, nonzero⟩ := known
  rw [peerInfos] at found
  rcases received_origin found with old | ⟨mem, rfl⟩ | rfl
  · exact valid.stored p ⟨info, old, nonzero⟩
  · exact valid.sent info mem
  · exact absurd rfl nonzero

/-- The node can take in the message: the bitmap is long enough, the foreign networks are
complete, and with what is received the tables can be built. -/
structure Digestible (r : Router) (request : SyncRouteInfoRequest)
    (parse : String → Option Cidr) : Prop where
  bits : BitsFit request.connBitmap
  tables : Rebuilds request → TablesSafe parse (received r.syncedRouteInfo request) r.myPeerId r
  networks : NetworksPresent request.foreignNetworkInfos

/-- The session is opened; nothing else of the node changes. -/
theorem openSession_eq (node : Node) (p : PeerId) (randomId id : SessionId) :
    ∃ sessions : PeerMap SyncRouteSession, (sessions.lookup p).isSome = true ∧
      (node.getOrCreateSession p randomId).modifySession p (·.updateDstSessionId id) =
        { node with sessions := sessions } := by
  have opened := node.getOrCreateSession_isSome p randomId
  refine ⟨_, (sameNode_modifySession _ p (·.updateDstSessionId id)).session opened, ?_⟩
  have same : ∃ sessions,
      node.getOrCreateSession p randomId = { node with sessions := sessions } := by
    unfold Node.getOrCreateSession
    split
    · exact ⟨node.sessions, rfl⟩
    · exact ⟨_, rfl⟩
  obtain ⟨sessions, same⟩ := same
  rw [same]
  unfold Node.modifySession
  split <;> rfl

section

variable {r r' : Router} {request : SyncRouteInfoRequest} {randomId : SessionId} {env : RebuildEnv}
  {node : Node}

theorem Router.doSyncRouteInfo_finishes
    (taken : r.takeInfosAndRows request randomId = (node, none))
    (rebuilt : refresh request env { r with toNode := node } = (r', none)) :
    (r.doSyncRouteInfo request randomId env).2 =
      (Node.takeForeignNetwork request.myPeerId request.foreignNetworkInfos r'.toNode).2 := by
  simp only [doSyncRouteInfo, taken, rebuilt]
  cases Node.takeForeignNetwork request.myPeerId request.foreignNetworkInfos r'.toNode with
  | mk after fault => cases fault <;> rfl

/-- Infos and rows get in exactly if the bits fit, and then they are what is received. -/
theorem takeInfosAndRows_spec (randomId : SessionId)
    (single : NoDuplicatePeerId r.toNode request.myPeerId request.peerInfos) :
    let result := r.takeInfosAndRows request randomId
    let s := result.1.syncedRouteInfo
    let s' := received r.syncedRouteInfo request
    (result.2 = none ↔ BitsFit request.connBitmap) ∧
      (result.2 = none ∨ result.2 = some .panicked) ∧ result.1.myPeerId = r.myPeerId ∧
      (result.1.sessions.lookup request.myPeerId).isSome = true ∧
      (result.2 = none →
        s.peerInfos = s'.peerInfos ∧ s.connMap = s'.connMap ∧ s.version = s'.version) := by
  obtain ⟨sessions, session, opened⟩ :=
    openSession_eq r.toNode request.myPeerId randomId request.mySessionId
  let start : Node := { r.toNode with sessions := sessions }
  obtain ⟨noFault, same, infos, infoVersion⟩ :=
    @takePeerInfos_stage request.myPeerId start request.peerInfos single
  cases taken : Node.takePeerInfos request.myPeerId request.peerInfos start with
  | mk mid fault =>
    rw [taken] at noFault same infos infoVersion
    obtain rfl : fault = none := noFault
    have result : r.takeInfosAndRows request randomId =
        Node.takeConnBitmap request.myPeerId request.connBitmap mid := by
      unfold Router.takeInfosAndRows
      dsimp only
      rw [opened]
      exact congrArg (Node.andThen · _) taken
    obtain ⟨fits, kind, same', stored⟩ :=
      takeConnBitmap_stage mid request.myPeerId request.connBitmap
    rw [result]
    refine ⟨fits, kind, (same.trans same').myPeerId, (same.trans same').session session,
      fun returns => ?_⟩
    obtain ⟨rows, rowVersion⟩ := stored returns
    exact stages_received infos infoVersion rows rowVersion

end

/-- **Which messages crash a node.** A request without a duplicated peer id is handled
without a panic, the rebuild of both route tables included, exactly if it is digestible. -/
theorem doSyncRouteInfo_panics_iff (r : Router) (request : SyncRouteInfoRequest)
    (randomId : SessionId) (env : RebuildEnv) (valid : ValidIds r request)
    (single : NoDuplicatePeerId r.toNode request.myPeerId request.peerInfos) :
    (r.doSyncRouteInfo request randomId env).2 ≠ some .panicked ↔
      Digestible r request env.parse := by
  obtain ⟨fits, kind, me, session, stored⟩ := takeInfosAndRows_spec randomId single
  cases taken : r.takeInfosAndRows request randomId with
  | mk node fault =>
    rw [taken] at fits kind me session stored
    obtain rfl | rfl := kind
    · obtain ⟨peerInfos, connMap, version⟩ := stored rfl
      obtain ⟨safe, kind, same⟩ := @Router.refresh_stage { r with toNode := node } env request
        (me ▸ valid.mine) fun p known => valid.received peerInfos known
      have tables : TablesSafe env.parse node.syncedRouteInfo node.myPeerId
          { r with toNode := node } ↔
          TablesSafe env.parse (received r.syncedRouteInfo request) r.myPeerId r := by
        rw [me]
        exact and_congr (BuildSafe.congr peerInfos connMap version)
          (BuildSafe.congr peerInfos connMap version)
      cases rebuilt : Router.refresh request env { r with toNode := node } with
      | mk r' fault =>
        rw [rebuilt] at safe kind same
        obtain rfl | rfl := kind
        · obtain ⟨present, kind⟩ := @takeForeignNetwork_stage request.myPeerId r'.toNode
            request.foreignNetworkInfos ((same request.myPeerId).session session)
          rw [Router.doSyncRouteInfo_finishes taken rebuilt]
          refine Iff.trans ?_ (present.trans ⟨fun networks => ⟨fits.mp rfl,
            fun rebuilds => tables.mp (safe.mp rfl rebuilds), networks⟩, Digestible.networks⟩)
          obtain none | panicked := kind
          · simp [none]
          · simp [panicked]
        · simp only [Router.doSyncRouteInfo, taken, rebuilt]
          refine iff_of_false (by simp) fun digestible => ?_
          cases safe.mpr fun rebuilds => tables.mpr (digestible.tables rebuilds)
    · simp only [Router.doSyncRouteInfo, taken]
      refine iff_of_false (by simp) fun digestible => ?_
      cases fits.mpr digestible.bits

/-! ### Messages to a node that has just started -/

/-- Node 1 with its own info, and tables that were never built. -/
def startedRouter : Router where
  toNode := { Node.new 1 10 with
    syncedRouteInfo := { SyncedRouteInfo.new with
      peerInfos :=
        [⟨1, { RoutePeerInfo.new with peerId := 1, version := 1, peerRouteId := 10 }⟩].toAList
      version := 1 } }
  routeTable := .new
  routeTableWithCost := .new

def plainEnv : RebuildEnv where
  orders := ⟨.stored _, .stored _, .stored _⟩
  platform _ := .reference
  nextHopOrder _ := .stored _
  parse := parseProxy
  calculateCost _ _ := 1

/-- Peer 2 proxies `text` and says that it is connected to node 1, as it is. -/
def greeting (text : String) : SyncRouteInfoRequest where
  myPeerId := 2
  mySessionId := 5
  isInitiator := true
  peerInfos := some [⟨{ RoutePeerInfo.new with
    peerId := 2, version := 1, peerRouteId := 20, proxyCidrs := [text] }, []⟩]
  connBitmap := some ⟨[(1, 1), (2, 1)], [6]⟩
  foreignNetworkInfos := some []

theorem greeting_single (text : String) :
    NoDuplicatePeerId startedRouter.toNode 2 (greeting text).peerInfos := by
  rintro (_ | k) info found
  · cases found
    rfl
  · cases found

theorem greeting_ids (request : SyncRouteInfoRequest)
    (sent : ∀ info ∈ infosOf request.peerInfos, info.peerId < 2 ^ 32) :
    ValidIds startedRouter request where
  mine := by decide
  stored := by
    rintro p ⟨info, found, -⟩
    have small : ∀ item ∈ startedRouter.syncedRouteInfo.peerInfos.entries, item.1 < 2 ^ 32 := by
      decide
    exact small ⟨p, info⟩ (AList.mem_lookup_iff.mp found)
  sent := sent

/-- Every info that node 1 has after the greeting advertises networks. -/
theorem greeting_tables :
    TablesSafe parseProxy (received startedRouter.syncedRouteInfo (greeting "10.1.0.0/16")) 1
      startedRouter := by
  have safe : ∀ t, BuildSafe parseProxy
      (received startedRouter.syncedRouteInfo (greeting "10.1.0.0/16")) 1 t := by
    refine fun t => .inl ⟨received_known ⟨_, rfl, by decide⟩ _, fun p info _ found => ?_⟩
    rcases received_origin found with old | ⟨mem, -⟩ | rfl
    · have own : ∀ item ∈ startedRouter.syncedRouteInfo.peerInfos.entries,
          ∀ text ∈ item.2.proxyCidrs, (parseProxy text).isSome = true := by decide
      exact own ⟨p, info⟩ (AList.mem_lookup_iff.mp old)
    · have sent : ∀ info ∈ infosOf (greeting "10.1.0.0/16").peerInfos,
          ∀ text ∈ info.proxyCidrs, (parseProxy text).isSome = true := by decide
      exact sent info mem
    · exact nofun
  exact ⟨safe _, safe _⟩

theorem greeting_handled :
    Rebuilds (greeting "10.1.0.0/16") ∧
      (startedRouter.doSyncRouteInfo (greeting "10.1.0.0/16") 7 plainEnv).2 ≠ some .panicked := by
  refine ⟨.inl rfl, (doSyncRouteInfo_panics_iff startedRouter (greeting "10.1.0.0/16") 7 plainEnv
    (greeting_ids _ (by decide)) (greeting_single _)).mpr ⟨?_, fun _ => greeting_tables, ?_⟩⟩
  · rintro b ⟨⟩
    decide
  · rintro items ⟨⟩
    simp

/-- The same greeting with an empty bitmap, or with a foreign network that has no key. -/
theorem greeting_crashes :
    let short := { greeting "10.1.0.0/16" with connBitmap := some ⟨[(1, 1), (2, 1)], []⟩ }
    let keyless : SyncRouteInfoRequest := { greeting "10.1.0.0/16" with
      peerInfos := none, connBitmap := none, foreignNetworkInfos := some [⟨none, none⟩] }
    (ValidIds startedRouter short ∧ NoDuplicatePeerId startedRouter.toNode 2 short.peerInfos ∧
        (startedRouter.doSyncRouteInfo short 7 plainEnv).2 = some .panicked) ∧
      ValidIds startedRouter keyless ∧ NoDuplicatePeerId startedRouter.toNode 2 keyless.peerInfos ∧
        (startedRouter.doSyncRouteInfo keyless 7 plainEnv).2 = some .panicked := by
  refine ⟨⟨greeting_ids _ (by decide), greeting_single _, by decide +kernel⟩,
    greeting_ids _ (by decide), ?_, by decide +kernel⟩
  intro k info found
  cases found

end PeerLink.Sync
