import PeerLink.Packet.Ip
import PeerLink.Route.Table

/-!
# Links to other peers

Which way `send_msg_internal` sends a message: to the node's own queue, over a
connection of a peer, or through the client for foreign networks. The maps hold the
peers and routes of one moment, and every result is for all of them.
-/

namespace PeerLink.Manager

open Packet

open Route (PeerId IterOrder)

abbrev ConnId := Nat

inductive NextHopPolicy where
  | leastHop
  | leastCost
  deriving DecidableEq

/-- What the peer manager asks a route. -/
structure RouteAccess where
  getNextHopWithPolicy : PeerId → NextHopPolicy → Option PeerId
  getPeerIdByIpv4 : Ipv4Addr → Option PeerId
  getPeerIdByIpv6 : Ipv6Addr → Option PeerId
  /-- The peer ids of the listed routes. -/
  listRoutes : List PeerId
  getOriginMyPeerId : String → PeerId → Option PeerId

/-! ## Peers -/

/-- The connections of a peer with their latencies, in the order of the map. -/
structure Peer where
  conns : List (ConnId × UInt64)
  defaultConnId : ConnId

namespace Peer

def hasConn (peer : Peer) (conn : ConnId) : Bool := peer.conns.any (·.1 == conn)

/-- The connection of the least latency; the default one if all latencies are maximal. -/
def leastLatency (peer : Peer) : ConnId :=
  (peer.conns.foldl (fun best conn => if conn.2 < best.2 then conn else best)
    (peer.defaultConnId, 0xffffffffffffffff)).1

def selectConn (peer : Peer) : Option ConnId :=
  if peer.hasConn peer.defaultConnId then
    some peer.defaultConnId
  else if peer.hasConn peer.leastLatency then
    some peer.leastLatency
  else
    none

end Peer

/-! ## Links -/

inductive Link where
  /-- The queue of the node's own receive loop. -/
  | self
  | peerConn (peer : PeerId) (conn : ConnId)
  /-- The foreign network client, and the connection it passes the message to. -/
  | foreignClient (peer : PeerId) (conn : Option ConnId)
  deriving DecidableEq

namespace Link

/-- The message is in the hands of a peer connection or of the foreign network client. -/
def Leaves : Link → Prop
  | self => False
  | peerConn _ _ | foreignClient _ _ => True

instance : DecidablePred Leaves
  | self => .isFalse id
  | peerConn _ _ | foreignClient _ _ => .isTrue trivial

def conn? : Link → Option ConnId
  | self => none
  | peerConn _ conn => some conn
  | foreignClient _ conn => conn

end Link

structure Handed where
  link : Link
  packet : ZCPacket
  deriving DecidableEq

inductive SendError where
  | routeError (text : Option String)
  | peerNoConnection (peer : PeerId)
  deriving DecidableEq

/-- The link a message takes and the error the sender sees. The foreign network client
may take a message and then fail. -/
structure Choice where
  link : Option Link
  error : Option SendError

/-! ## The peer map -/

/-- The peers and routes of the node `me`. -/
structure PeerMap (me : PeerId) where
  peerMap : PeerId → Option Peer
  routes : List RouteAccess

namespace PeerMap
variable {me : PeerId}

variable (map : PeerMap me) (dst : PeerId)

def hasPeer (peer : PeerId) : Bool := peer == me || (map.peerMap peer).isSome

/-- The link of `send_msg_directly`. -/
def directLink : Choice :=
  if dst = me then
    ⟨some .self, none⟩
  else
    match map.peerMap dst with
    | none =>
      ⟨none, some (.routeError (some
        s!"peer map sengmsg directly no connected dst_peer_id: {dst}"))⟩
    | some peer =>
      match peer.selectConn with
      | none => ⟨none, some (.peerNoConnection dst)⟩
      | some conn => ⟨some (.peerConn dst conn), none⟩

def getGatewayPeerId (policy : NextHopPolicy) : Option PeerId :=
  if dst = me then
    some dst
  else if map.hasPeer dst ∧ policy = .leastHop then
    some dst
  else
    map.routes.findSome? (·.getNextHopWithPolicy dst policy)

/-- The link of the map's own `send_msg`. -/
def msgLink (policy : NextHopPolicy) : Choice :=
  match map.getGatewayPeerId dst policy with
  | none =>
    ⟨none, some (.routeError (some s!"peer map sengmsg no gateway for dst_peer_id: {dst}"))⟩
  | some gateway => map.directLink gateway

def getPeerIdByIpv4 (ip : Ipv4Addr) : Option PeerId :=
  map.routes.findSome? (·.getPeerIdByIpv4 ip)

def getPeerIdByIpv6 (ip : Ipv6Addr) : Option PeerId :=
  map.routes.findSome? (·.getPeerIdByIpv6 ip)

def getOriginMyPeerId (networkName : String) (foreignMyPeerId : PeerId) : Option PeerId :=
  map.routes.findSome? (·.getOriginMyPeerId networkName foreignMyPeerId)

/-- The keys of the route map. -/
def listRoutes (order : IterOrder PeerId) : List PeerId :=
  order.order (map.routes.flatMap (·.listRoutes)).dedup

end PeerMap

/-- `ForeignNetworkClient::send_msg`; the client has a peer map of its own. -/
def clientLink {me : PeerId} (client : PeerMap me) (peer : PeerId) : Choice :=
  if client.hasPeer peer then
    let direct := client.directLink peer
    ⟨some (.foreignClient peer (direct.link.bind Link.conn?)), direct.error⟩
  else
    ⟨none, some (.routeError (some "no next hop"))⟩

def getNextHopPolicy (isFirstLatency : Bool) : NextHopPolicy :=
  if isFirstLatency then .leastCost else .leastHop

variable {me : PeerId} (peers client : PeerMap me)

/-- The link of `send_msg_internal`. Of the message only its latency flag counts. -/
def chooseLink (policy : NextHopPolicy) (dst : PeerId) : Choice :=
  match peers.getGatewayPeerId dst policy with
  | some gateway =>
    if peers.hasPeer gateway then
      peers.directLink gateway
    else if client.hasPeer gateway then
      clientLink client gateway
    else
      ⟨none, some (.routeError none)⟩
  | none =>
    if client.hasPeer dst then
      clientLink client dst
    else
      ⟨none, some (.routeError none)⟩

structure Sent where
  handed : Option Handed
  error : Option SendError
  deriving DecidableEq

def Choice.send (choice : Choice) (msg : ZCPacket) : Sent :=
  ⟨choice.link.map (⟨·, msg⟩), choice.error⟩

def sendMsgInternal (msg : ZCPacket) (dst : PeerId) : Sent :=
  (chooseLink peers client (getNextHopPolicy msg.header.isLatencyFirst) dst).send msg

/-- A message for the node itself goes to its own queue. -/
theorem chooseLink_self (policy : NextHopPolicy) :
    chooseLink peers client policy me = ⟨some .self, none⟩ := by
  have gateway : peers.getGatewayPeerId me policy = some me := by
    unfold PeerMap.getGatewayPeerId
    rw [if_pos rfl]
  have known : peers.hasPeer me = true := by
    unfold PeerMap.hasPeer
    simp
  unfold chooseLink
  rw [gateway]
  simp only [known, if_true]
  unfold PeerMap.directLink
  rw [if_pos rfl]

end PeerLink.Manager
