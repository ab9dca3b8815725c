import PeerLink.Route.Table
import PeerLink.Sync.Store

/-!
# One node of the sync protocol

`PeerRouteServiceImpl` with the first half of `sync_route_with_peer`, which sends a
request, and `do_sync_route_info`, which serves one. Which peers the route table reaches
is left open, and so are the random session ids.
-/

namespace PeerLink.Sync

open Route

/-- The orders in which the hash maps of a node hand out their entries. -/
structure MapOrders where
  peerInfos : IterOrder (Σ _ : PeerId, RoutePeerInfo)
  connMap : IterOrder (Σ _ : PeerId, Finset PeerId × Version)
  foreignNetwork : IterOrder (Σ _ : ForeignNetworkRouteInfoKey, ForeignNetworkRouteInfoEntry)

/-- What the rest of the node decides: map orders, and the peers that the route
table reaches. -/
structure Surroundings where
  orders : MapOrders
  reachable : PeerId → Bool

structure Node where
  myPeerId : PeerId
  myPeerRouteId : Nat
  sessions : PeerMap SyncRouteSession
  syncedRouteInfo : SyncedRouteInfo
  cachedLocalConnMap : RouteConnBitmap
  cachedLocalConnMapVersion : Version

/-- What the sender of a request keeps until the answer arrives. -/
structure Pending where
  dstPeerId : PeerId
  mySessionId : SessionId
  peerInfos : Option (List RoutePeerInfo)
  connBitmap : Option RouteConnBitmap
  foreignNetwork : Option (List ForeignNetworkInfo)

namespace Node

def new (myPeerId : PeerId) (myPeerRouteId : Nat) : Node where
  myPeerId := myPeerId
  myPeerRouteId := myPeerRouteId
  sessions := ∅
  syncedRouteInfo := .new
  cachedLocalConnMap := .new
  cachedLocalConnMapVersion := 0

variable (node : Node) (request : SyncRouteInfoRequest) (dstPeerId : PeerId) (randomId : SessionId)
  (session : SyncRouteSession) (connMap : PeerMap (Finset PeerId × Version)) (env : Surroundings)
  (from_ : PeerId)

/-- `get_or_create_session`; a session it creates draws `randomId`. -/
def getOrCreateSession : Node :=
  match node.sessions.lookup dstPeerId with
  | some _ => node
  | none =>
    { node with sessions :=
        node.sessions.insert dstPeerId (.new node.myPeerId dstPeerId randomId) }

/-- A session is shared by reference: an update shows in the map of sessions. -/
def modifySession (f : SyncRouteSession → SyncRouteSession) : Node :=
  match node.sessions.lookup dstPeerId with
  | some session => { node with sessions := node.sessions.insert dstPeerId (f session) }
  | none => node

/-! ## The cached connection rows -/

def setBit (bitmap : List UInt8) (idx : Nat) : List UInt8 :=
  bitmap.modify (idx / 8) fun byte => byte ||| 1 <<< UInt8.ofNat (idx % 8)

/-- The bits of one row. -/
def setRow (connected : Finset PeerId) (allPeerIds : List (PeerId × Version)) (peerIdx : Nat)
    (bitmap : List UInt8) : List UInt8 :=
  allPeerIds.zipIdx.foldl (fun bitmap item =>
    if item.1.1 ∈ connected then
      setBit bitmap (peerIdx * allPeerIds.length + item.2)
    else
      bitmap) bitmap

def connBitmapOf (allPeerIds : List (PeerId × Version)) : RouteConnBitmap where
  peerIds := allPeerIds
  bitmap := allPeerIds.zipIdx.foldl (fun bitmap item =>
    match connMap.lookup item.1.1 with
    | none => bitmap
    | some connected => setRow connected.1 allPeerIds item.2 bitmap)
    (List.replicate ((allPeerIds.length * allPeerIds.length + 7) / 8) 0)

/-- Rows of peers that no row mentions and the route table does not reach are
left out. -/
def syncedPeerIds : List (PeerId × Version) :=
  let allDstPeerIds := connMap.entries.flatMap fun item => item.2.1.sort (· ≤ ·)
  ((env.orders.connMap.order connMap.entries).map fun item => (item.1, item.2.2)).filter
    fun p => p.1 ∈ allDstPeerIds ∨ env.reachable p.1 = true

/-- `update_route_table_and_cached_local_conn_bitmap`, once the route table is
rebuilt. -/
def updateCachedLocalConnBitmap : Node :=
  let synced := node.syncedRouteInfo
  if node.cachedLocalConnMapVersion < synced.version then
    { node with
      cachedLocalConnMap :=
        connBitmapOf synced.connMap (syncedPeerIds synced.connMap env)
      cachedLocalConnMapVersion := synced.version }
  else
    node

/-! ## Sending a request -/

def nonempty {α : Type} (items : List α) : Option (List α) :=
  if items.isEmpty then none else some items

def buildRouteInfo : Option (List RoutePeerInfo) :=
  let items := env.orders.peerInfos.order node.syncedRouteInfo.peerInfos.entries
  nonempty ((items.filter fun item =>
    !session.checkSavedPeerInfoUpdateToDate item.2.peerId item.2.version &&
      env.reachable item.1).map (·.2))

def buildConnBitmap : Option RouteConnBitmap :=
  let needUpdate := node.cachedLocalConnMap.peerIds.any fun row =>
    match session.dstSavedConnBitmapVersion.lookup row.1 with
    | none => true
    | some peerVersion => peerVersion < row.2
  if needUpdate then some node.cachedLocalConnMap else none

def foreignNetworkSaved (key : ForeignNetworkRouteInfoKey) (version : Version) : Bool :=
  match session.dstSavedForeignNetworkVersions.lookup key with
  | some saved => version ≤ saved
  | none => false

def buildForeignNetworkInfo : Option (List ForeignNetworkInfo) :=
  let items := env.orders.foreignNetwork.order node.syncedRouteInfo.foreignNetwork.entries
  nonempty ((items.filter fun item =>
    item.1.peerId != session.dstPeerId &&
      !foreignNetworkSaved session item.1 item.2.version).map
    fun item => ⟨some item.1, some item.2⟩)

/-- `build_sync_route_raw_req`: an info is sent in the form it was received. -/
def rawPeerInfosOf (infos : List RoutePeerInfo) : List RawPeerInfo :=
  infos.map fun info =>
    (node.syncedRouteInfo.rawPeerInfos.lookup info.peerId).getD ⟨info, []⟩

/-- The first half of `sync_route_with_peer`, up to the call. Without a session,
or with nothing to tell, it ends the sync loop instead. -/
def sendSyncRoute (syncAsInitiator : Bool) (env : Surroundings) :
    Option (Node × SyncRouteInfoRequest × Pending) := do
  let session ← node.sessions.lookup dstPeerId
  let peerInfos := node.buildRouteInfo session env
  let connBitmap := node.buildConnBitmap session
  let foreignNetwork := node.buildForeignNetworkInfo session env
  if peerInfos.isNone && connBitmap.isNone && foreignNetwork.isNone &&
      !session.needSyncInitiatorInfo && !(syncAsInitiator && session.weAreInitiator) then
    none
  else
    some (node.modifySession dstPeerId ({ · with needSyncInitiatorInfo := false }),
      { myPeerId := node.myPeerId
        mySessionId := session.mySessionId
        isInitiator := session.weAreInitiator
        peerInfos := peerInfos.map node.rawPeerInfosOf
        connBitmap := connBitmap
        foreignNetworkInfos := foreignNetwork },
      { dstPeerId := dstPeerId
        mySessionId := session.mySessionId
        peerInfos := peerInfos
        connBitmap := connBitmap
        foreignNetwork := foreignNetwork })

/-! ## Serving a request -/

/-- Goes on unless the handler has stopped. -/
def andThen (result : Node × Option Fault) (next : Node → Node × Option Fault) :
    Node × Option Fault :=
  match result with
  | (node, some fault) => (node, some fault)
  | (node, none) => next node

def takePeerInfos (peerInfos : Option (List RawPeerInfo)) (node : Node) : Node × Option Fault :=
  match peerInfos with
  | none => (node, none)
  | some raws =>
    let infos := raws.map (·.known)
    let (synced, fault) := node.syncedRouteInfo.updatePeerInfos node.myPeerId
      node.myPeerRouteId from_ infos raws
    andThen ({ node with syncedRouteInfo := synced }, fault) fun node =>
      (node.modifySession from_ (·.updateDstSavedPeerInfoVersion infos), none)

def takeConnBitmap (connBitmap : Option RouteConnBitmap) (node : Node) : Node × Option Fault :=
  match connBitmap with
  | none => (node, none)
  | some connBitmap =>
    let (synced, fault) := node.syncedRouteInfo.updateConnMap connBitmap
    andThen ({ node with syncedRouteInfo := synced }, fault) fun node =>
      (node.modifySession from_ (·.updateDstSavedConnBitmapVersion connBitmap), none)

def takeForeignNetwork (foreignNetwork : Option (List ForeignNetworkInfo)) (node : Node) :
    Node × Option Fault :=
  match foreignNetwork with
  | none => (node, none)
  | some foreignNetwork =>
    let node := { node with
      syncedRouteInfo := node.syncedRouteInfo.updateForeignNetwork foreignNetwork }
    match node.sessions.lookup from_ with
    | none => (node, none)
    | some session =>
      let (session, fault) := session.updateDstSavedForeignNetworkVersion foreignNetwork
      ({ node with sessions := node.sessions.insert from_ session }, fault)

/-! ## What single functions do -/

variable {node request session connMap env} {p : PeerId}

theorem modifySession_synced (node : Node) (p : PeerId) (f : SyncRouteSession → SyncRouteSession) :
    (node.modifySession p f).syncedRouteInfo = node.syncedRouteInfo := by
  unfold modifySession
  split <;> rfl

theorem getOrCreateSession_isSome (node : Node) (p : PeerId) (randomId : SessionId) :
    ((node.getOrCreateSession p randomId).sessions.lookup p).isSome = true := by
  unfold getOrCreateSession
  cases found : node.sessions.lookup p with
  | some session => simp [found]
  | none => simp

/-- The cached rows are all that changes. -/
theorem updateCachedLocalConnBitmap_same (node : Node) (env : Surroundings) :
    (node.updateCachedLocalConnBitmap env).myPeerId = node.myPeerId ∧
      (node.updateCachedLocalConnBitmap env).sessions = node.sessions := by
  unfold updateCachedLocalConnBitmap
  simp only
  split <;> exact ⟨rfl, rfl⟩

theorem mem_syncedPeerIds {row : PeerId × Version} (mem : row ∈ syncedPeerIds connMap env) :
    ∃ connected, connMap.lookup row.1 = some (connected, row.2) := by
  obtain ⟨mem, -⟩ := List.mem_filter.mp mem
  obtain ⟨item, hitem, rfl⟩ := List.mem_map.mp mem
  exact ⟨item.2.1, env.orders.connMap.mem_entries.mp hitem⟩

theorem nonempty_eq_some {α : Type} {items list : List α} (h : nonempty items = some list) :
    list = items := by
  unfold nonempty at h
  split at h
  · cases h
  · exact (Option.some.inj h).symm

/-- What is sent is stored, and no placeholder. -/
theorem mem_buildRouteInfo {infos : List RoutePeerInfo} {info : RoutePeerInfo}
    (built : node.buildRouteInfo session env = some infos) (mem : info ∈ infos) :
    info.version ≠ 0 ∧ ∃ p, node.syncedRouteInfo.peerInfos.lookup p = some info := by
  rw [nonempty_eq_some built] at mem
  obtain ⟨item, kept, rfl⟩ := List.mem_map.mp mem
  obtain ⟨listed, kept⟩ := List.mem_filter.mp kept
  refine ⟨fun zero => ?_, item.1, env.orders.peerInfos.mem_entries.mp listed⟩
  simp [SyncRouteSession.checkSavedPeerInfoUpdateToDate, zero] at kept

/-- Rows are left out only if each of them is saved at its version. -/
theorem buildConnBitmap_none (none : node.buildConnBitmap session = none)
    {row : PeerId × Version} (mem : row ∈ node.cachedLocalConnMap.peerIds) :
    ∃ saved, session.dstSavedConnBitmapVersion.lookup row.1 = some saved ∧ row.2 ≤ saved := by
  unfold buildConnBitmap at none
  simp only at none
  split at none
  · cases none
  · rename_i noUpdate
    have kept := List.any_eq_false.mp (Bool.eq_false_iff.mpr noUpdate) row mem
    cases found : session.dstSavedConnBitmapVersion.lookup row.1 with
    | none => simp [found] at kept
    | some saved =>
      rw [found] at kept
      exact ⟨saved, rfl, Nat.le_of_not_lt (by simpa using kept)⟩

end Node

@[simp] theorem SyncRouteSession.updateDstSessionId_dstPeerId (session : SyncRouteSession)
    (id : SessionId) : (session.updateDstSessionId id).dstPeerId = session.dstPeerId := by
  unfold updateDstSessionId
  split <;> rfl

end PeerLink.Sync
