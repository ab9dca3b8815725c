import PeerLink.Route.Synced

/-!
# Sync sessions

A node keeps one session for each peer it syncs with. It records which versions
the peer is known to store, and forgets them when the peer shows up with
another session id.
-/

namespace PeerLink.Sync

open Route

abbrev SessionId := Nat

/-- The connection rows of a set of peers: a bit for each ordered pair. -/
structure RouteConnBitmap where
  peerIds : List (PeerId × Version)
  bitmap : List UInt8

namespace RouteConnBitmap

def new : RouteConnBitmap := ⟨[], []⟩

/-- Indexing past the end of the bitmap panics. -/
def getBit (b : RouteConnBitmap) (idx : Nat) : Option Bool :=
  (b.bitmap[idx / 8]?).map fun byte => byte.toNat.testBit (idx % 8)

def getConnectedPeers (b : RouteConnBitmap) (peerIdx : Nat) : Option (Finset PeerId) :=
  b.peerIds.zipIdx.foldlM (fun connected item => do
    let bit ← b.getBit (peerIdx * b.peerIds.length + item.2)
    return if bit then insert item.1.1 connected else connected) ∅

end RouteConnBitmap

/-- An item of `RouteForeignNetworkInfos`; both parts are optional on the wire. -/
structure ForeignNetworkInfo where
  key : Option ForeignNetworkRouteInfoKey
  value : Option ForeignNetworkRouteInfoEntry

/-- The request as it is sent: the peer infos travel in their raw form. -/
structure SyncRouteInfoRequest where
  myPeerId : PeerId
  mySessionId : SessionId
  isInitiator : Bool
  peerInfos : Option (List RawPeerInfo)
  connBitmap : Option RouteConnBitmap
  foreignNetworkInfos : Option (List ForeignNetworkInfo)

inductive SyncRouteInfoError where
  | duplicatePeerId
  | stopped
  deriving DecidableEq

structure SyncRouteInfoResponse where
  isInitiator : Bool
  sessionId : SessionId
  error : Option SyncRouteInfoError

/-- Why a handler stops: an error it reports, or a panic that ends its task. -/
inductive Fault where
  | error (e : SyncRouteInfoError)
  | panicked
  deriving DecidableEq

structure SyncRouteSession where
  myPeerId : PeerId
  dstPeerId : PeerId
  dstSavedPeerInfoVersions : PeerMap Version
  dstSavedConnBitmapVersion : PeerMap Version
  dstSavedForeignNetworkVersions : ForeignNetworkMap Version
  mySessionId : SessionId
  dstSessionId : SessionId
  weAreInitiator : Bool
  dstIsInitiator : Bool
  needSyncInitiatorInfo : Bool

/-- `entry(key).or_insert_with(AtomicVersion::new).set_if_larger(version)` -/
def raise {K : Type} [DecidableEq K] (saved : AList fun _ : K => Version) (key : K)
    (version : Version) : AList fun _ : K => Version :=
  saved.insert key (max ((saved.lookup key).getD 0) version)

/-- The loop of `update_dst_saved_foreign_network_version`, which unwraps the key
before it touches the map and the value after. -/
def raiseForeign (saved : ForeignNetworkMap Version) :
    List ForeignNetworkInfo → ForeignNetworkMap Version × Option Fault
  | [] => (saved, none)
  | ⟨none, _⟩ :: _ => (saved, some .panicked)
  | ⟨some key, none⟩ :: _ => (raise saved key 0, some .panicked)
  | ⟨some key, some value⟩ :: rest => raiseForeign (raise saved key value.version) rest

namespace SyncRouteSession

/-- `randomId` is the drawn session id. -/
def new (myPeerId dstPeerId : PeerId) (randomId : SessionId) : SyncRouteSession where
  myPeerId := myPeerId
  dstPeerId := dstPeerId
  dstSavedPeerInfoVersions := ∅
  dstSavedConnBitmapVersion := ∅
  dstSavedForeignNetworkVersions := ∅
  mySessionId := randomId
  dstSessionId := 0
  weAreInitiator := false
  dstIsInitiator := false
  needSyncInitiatorInfo := false

variable (session : SyncRouteSession)

/-- Version 0 is never sent, and neither is the destination's own info. -/
def checkSavedPeerInfoUpdateToDate (peerId : PeerId) (version : Version) : Bool :=
  if version = 0 ∨ peerId = session.dstPeerId then
    true
  else
    match session.dstSavedPeerInfoVersions.lookup peerId with
    | some saved => version ≤ saved
    | none => false

def updateDstSavedPeerInfoVersion (infos : List RoutePeerInfo) : SyncRouteSession :=
  let saved := infos.foldl (fun saved info => raise saved info.peerId info.version)
    session.dstSavedPeerInfoVersions
  { session with dstSavedPeerInfoVersions := saved }

def updateDstSavedConnBitmapVersion (connBitmap : RouteConnBitmap) : SyncRouteSession :=
  let saved := connBitmap.peerIds.foldl (fun saved row => raise saved row.1 row.2)
    session.dstSavedConnBitmapVersion
  { session with dstSavedConnBitmapVersion := saved }

def updateDstSavedForeignNetworkVersion (foreignNetwork : List ForeignNetworkInfo) :
    SyncRouteSession × Option Fault :=
  let (saved, fault) := raiseForeign session.dstSavedForeignNetworkVersions foreignNetwork
  ({ session with dstSavedForeignNetworkVersions := saved }, fault)

/-- Another session id clears what was saved, except for foreign networks. -/
def updateDstSessionId (sessionId : SessionId) : SyncRouteSession :=
  if sessionId ≠ session.dstSessionId then
    { session with
      dstSessionId := sessionId
      dstSavedConnBitmapVersion := ∅
      dstSavedPeerInfoVersions := ∅ }
  else
    session

end SyncRouteSession

/-- A version that is saved after a `raise` was saved before it, or is the one that came. -/
theorem raise_origin {K : Type} [DecidableEq K] {saved : AList fun _ : K => Version}
    {key other : K} {version found : Version}
    (now : (raise saved key version).lookup other = some found) :
    saved.lookup other = some found ∨ other = key ∧ found = version := by
  by_cases here : other = key
  · subst here
    have value : max ((saved.lookup other).getD 0) version = found :=
      Option.some.inj ((AList.lookup_insert _).symm.trans now)
    cases old : saved.lookup other with
    | none => exact .inr ⟨rfl, by simpa [old] using value.symm⟩
    | some before =>
      -- the larger of the two versions is one of the two
      rw [old, Option.getD_some] at value
      obtain le | le := Nat.le_total before version
      · exact .inr ⟨rfl, value.symm.trans (max_eq_right le)⟩
      · exact .inl (congrArg some (value.symm.trans (max_eq_left le)).symm)
  · exact .inl ((AList.lookup_insert_ne here).symm.trans now)

end PeerLink.Sync
