import Mathlib.Data.Finset.Sort
import Mathlib.Data.List.AList

/-!
# What a node has learned about the others

`SyncedRouteInfo` holds the peer infos and connection rows received from all
peers, each with the version its owner gave it.
-/

namespace PeerLink.Route

abbrev PeerId := Nat

abbrev Version := Nat

/-- `AtomicVersion::inc` on a `u32`, which wraps. -/
def AtomicVersion.inc (version : Version) : Version := (version + 1) % 2 ^ 32

theorem AtomicVersion.lt_inc_iff {version : Version} :
    version < inc version ↔ version + 1 < 2 ^ 32 where
  mp larger := Nat.lt_of_le_of_lt larger (Nat.mod_lt _ (by decide))
  mpr fits := (Nat.lt_succ_self version).trans_eq (Nat.mod_eq_of_lt fits).symm

structure PeerFeatureFlag where
  avoidRelayData : Bool
  deriving DecidableEq

structure Ipv6Inet where
  address : Option (BitVec 128)
  networkLength : Nat
  deriving DecidableEq

/-- A group that a peer claims to be in, with its proof. -/
structure PeerGroupInfo where
  groupName : String
  groupProof : List UInt8
  deriving DecidableEq

structure RoutePeerInfo where
  peerId : PeerId
  version : Version
  featureFlag : Option PeerFeatureFlag
  peerRouteId : Nat
  ipv4Addr : Option (BitVec 32)
  ipv6Addr : Option Ipv6Inet
  proxyCidrs : List String
  groups : List PeerGroupInfo
  deriving DecidableEq

/-- `RoutePeerInfo::new`, the placeholder for a peer known only by its id. -/
def RoutePeerInfo.new : RoutePeerInfo where
  peerId := 0
  version := 0
  featureFlag := none
  peerRouteId := 0
  ipv4Addr := none
  ipv6Addr := none
  proxyCidrs := []
  groups := []

/-- What the configuration of a node says about the node itself. -/
structure OwnPeerInfo where
  featureFlag : PeerFeatureFlag
  ipv4Addr : Option (BitVec 32)
  ipv6Addr : Option Ipv6Inet
  proxyCidrs : List String
  groups : List PeerGroupInfo

/-- The `DynamicMessage` a peer info was decoded from: the fields this node
knows, and the bytes of those it does not. -/
structure RawPeerInfo where
  known : RoutePeerInfo
  unknown : List UInt8
  deriving DecidableEq

/-- A `DashMap` keyed by peer ids. -/
abbrev PeerMap (α : Type) := AList fun _ : PeerId => α

/-- A network that a peer serves without being a member of it. -/
structure ForeignNetworkRouteInfoKey where
  peerId : PeerId
  networkName : String
  deriving DecidableEq

structure ForeignNetworkRouteInfoEntry where
  foreignPeerIds : List PeerId
  version : Version
  networkSecretDigest : List UInt8
  myPeerIdForThisNetwork : PeerId
  deriving DecidableEq

abbrev ForeignNetworkMap (α : Type) := AList fun _ : ForeignNetworkRouteInfoKey => α

structure SyncedRouteInfo where
  peerInfos : PeerMap RoutePeerInfo
  rawPeerInfos : PeerMap RawPeerInfo
  connMap : PeerMap (Finset PeerId × Version)
  foreignNetwork : ForeignNetworkMap ForeignNetworkRouteInfoEntry
  version : Version

/-- What `PeerRouteServiceImpl::new` starts from. -/
def SyncedRouteInfo.new : SyncedRouteInfo := ⟨∅, ∅, ∅, ∅, 0⟩

namespace SyncedRouteInfo

variable (info : SyncedRouteInfo) (peerId : PeerId)

def getConnectedPeers : Option (Finset PeerId) :=
  (info.connMap.lookup peerId).map (·.1)

def getPeerInfoVersionWithDefault : Version :=
  ((info.peerInfos.lookup peerId).map (·.version)).getD 0

def getAvoidRelayData : Bool :=
  (((info.peerInfos.lookup peerId).bind (·.featureFlag)).map (·.avoidRelayData)).getD false

end SyncedRouteInfo

end PeerLink.Route
