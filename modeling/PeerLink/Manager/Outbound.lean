import PeerLink.Acl.Filter
import PeerLink.Gateway.NicFilter
import PeerLink.Manager.Links

/-!
# Packets from the NIC

`send_msg_by_ip` with the pipeline before it. The ACL verdict stays inside the
pipeline function, so a dropped packet only misses the filters.
-/

namespace PeerLink.Manager

open Packet Acl Gateway

open Route (PeerId IterOrder)

structure PeerManager where
  myPeerId : PeerId
  peers : PeerMap myPeerId
  /-- The peers of the foreign network client. -/
  foreignNetworkClient : PeerMap myPeerId
  getPeerGroups : PeerId → List String
  /-- `get_network_peer_id` of the foreign network manager. -/
  getNetworkPeerId : String → Option PeerId
  aclFilter : AclFilter
  nicPacketProcessPipeline : List NicFilter
  encryptor : Encryptor
  zstd : Zstd
  dataCompressAlgo : CompressorAlgo
  exitNodes : List IpAddr
  ipv4 : Option (Inet 32)
  ipv6 : Option (Inet 128)
  latencyFirst : Bool

/-- What a call meets besides the manager: the clock, the libraries and the order of
the route map. -/
structure SendEnv where
  acl : AclEnv
  sums : Checksums
  nonce : Nonce
  routes : IterOrder PeerId

inductive SendByIpError where
  | stage (e : StageError)
  | send (e : SendError)
  | sendAll (es : List SendError)

structure SendResult where
  handed : List Handed
  error : Option SendByIpError
  aclFilter : AclFilter

namespace PeerManager
variable (mgr : PeerManager) (env : SendEnv)

/-- The ACL's answer to a packet from the NIC. -/
def outboundVerdict (data : ZCPacket) : Option (Bool × AclFilter) :=
  mgr.aclFilter.processPacketWithAcl env.acl data false ⟨none, none⟩ mgr.getPeerGroups

def runNicPacketProcessPipeline (data : ZCPacket) : Option (ZCPacket × AclFilter) :=
  match mgr.outboundVerdict env data with
  | none => none
  | some (false, f) => some (data, f)
  | some (true, f) =>
    (runNicFilters mgr.nicPacketProcessPipeline env.sums mgr.myPeerId data).map (·, f)

theorem runNicPacketProcessPipeline_kept {mgr : PeerManager} {env : SendEnv}
    {data data' : ZCPacket} {f : AclFilter}
    (done : mgr.runNicPacketProcessPipeline env data = some (data', f)) :
    Kept mgr.myPeerId data data' := by
  unfold runNicPacketProcessPipeline at done
  split at done
  · cases done
  · cases done
    exact .refl mgr.myPeerId _
  · obtain ⟨processed, ran, same⟩ := Option.map_eq_some_iff.mp done
    cases same
    exact runNicFilters_kept ran

/-! ## The peers behind an address -/

variable (ip : Ipv4Addr) (msg : ZCPacket)

def isBroadcast : Bool := ip == 0xffffffff

def isMulticast : Bool := ip >>> 28 == 0xe

def isMulticastIpv6 (ip : Ipv6Addr) : Bool := ip >>> 120 == 0xff

def isUnicastLinkLocal (ip : Ipv6Addr) : Bool := ip >>> 118 == 0x3fa

/-- The first exit node that a peer has, as the loop finds it. -/
def exitPeer (lookup : IpAddr → Option PeerId) : List PeerId × Bool :=
  match mgr.exitNodes.findSome? lookup with
  | none => ([], false)
  | some peer => ([peer], true)

def exitPeerIpv4 : List PeerId × Bool :=
  mgr.exitPeer fun
    | .v4 ip => mgr.peers.getPeerIdByIpv4 ip
    | .v6 _ => none

def exitPeerIpv6 : List PeerId × Bool :=
  mgr.exitPeer fun
    | .v4 _ => none
    | .v6 ip => mgr.peers.getPeerIdByIpv6 ip

/-- The peers to send to, and whether an exit node was taken. -/
def getMsgDstPeer : List PeerId × Bool :=
  let inet : Inet 32 := ⟨ip, (mgr.ipv4.map (·.networkLength)).getD Inet.defaultLength⟩
  if isBroadcast ip || isMulticast ip || ip == inet.lastAddress then
    (mgr.peers.listRoutes env.routes, false)
  else
    match mgr.peers.getPeerIdByIpv4 ip with
    | some peer => ([peer], false)
    | none => mgr.exitPeerIpv4

/-- A link-local address is never sent to an exit node. -/
def getMsgDstPeerIpv6 (ip : Ipv6Addr) : List PeerId × Bool :=
  let inet : Inet 128 := ⟨ip, (mgr.ipv6.map (·.networkLength)).getD ⟨64, by decide⟩⟩
  if isMulticastIpv6 ip || ip == inet.lastAddress then
    (mgr.peers.listRoutes env.routes, false)
  else
    match mgr.peers.getPeerIdByIpv6 ip with
    | some peer => ([peer], false)
    | none => if isUnicastLinkLocal ip then ([], false) else mgr.exitPeerIpv6

def dstPeers : IpAddr → List PeerId × Bool
  | .v4 ip => mgr.getMsgDstPeer env ip
  | .v6 ip => mgr.getMsgDstPeerIpv6 env ip

/-! ## Sending -/

/-- `try_compress_and_encrypt` with the manager's algorithm and cipher. -/
def compressAndEncrypt : ZCPacket × Option StageError :=
  tryCompressAndEncrypt mgr.zstd mgr.dataCompressAlgo mgr.encryptor env.nonce msg

def sendMsg (dst : PeerId) : Sent :=
  sendMsgInternal mgr.peers mgr.foreignNetworkClient msg dst

/-- One copy for each destination. -/
def sendToAll (dsts : List PeerId) : List Sent :=
  dsts.map fun dst => mgr.sendMsg (msg.setTo dst) dst

/-- The flags that go out with an encrypted packet. -/
def setSendFlags (isExitNode : Bool) (msg : ZCPacket) : ZCPacket :=
  { msg with header := (msg.header.setLatencyFirst mgr.latencyFirst).setExitNode isExitNode }

/-- The part after the pipeline: what is handed on, and the error. -/
def sendProcessed (ip : IpAddr) : List Handed × Option SendByIpError :=
  if msg.header.toPeerId ≠ 0 then
    let sent := mgr.sendMsg msg msg.header.toPeerId
    (sent.handed.toList, sent.error.map .send)
  else
    match mgr.dstPeers env ip with
    | ([], _) => ([], none)
    | (dsts, isExitNode) =>
      match mgr.compressAndEncrypt env msg with
      | (_, some e) => ([], some (.stage e))
      | (msg, none) =>
        let sent := mgr.sendToAll (mgr.setSendFlags isExitNode msg) dsts
        let errs := sent.filterMap (·.error)
        (sent.filterMap (·.handed), if errs = [] then none else some (.sendAll errs))

/-- The packet as the pipeline first sees it. -/
def fillNicHeader : ZCPacket :=
  msg.fillPeerManagerHdr mgr.myPeerId 0 PacketType.data.code

def sendMsgByIp (ip : IpAddr) : Option SendResult :=
  match mgr.runNicPacketProcessPipeline env (mgr.fillNicHeader msg) with
  | none => none
  | some (msg, f) =>
    let (handed, error) := mgr.sendProcessed env msg ip
    some ⟨handed, error, f⟩

/-! ## What a dropped packet does -/

/-- The link that a packet from the NIC takes to a peer. -/
def linkTo (dst : PeerId) : Option Link :=
  (chooseLink mgr.peers mgr.foreignNetworkClient (getNextHopPolicy mgr.latencyFirst) dst).link

section
variable {mgr env}

theorem sendToAll_handed (isExitNode : Bool) (msg : ZCPacket) (dsts : List PeerId) :
    (mgr.sendToAll (mgr.setSendFlags isExitNode msg) dsts).filterMap (·.handed) =
      dsts.filterMap fun dst =>
        (mgr.linkTo dst).map (⟨·, (mgr.setSendFlags isExitNode msg).setTo dst⟩) := by
  unfold sendToAll
  rw [List.filterMap_map]
  apply List.filterMap_congr
  intro dst _
  have latency : ((mgr.setSendFlags isExitNode msg).setTo dst).header.isLatencyFirst =
      mgr.latencyFirst := by
    change ((msg.header.setLatencyFirst mgr.latencyFirst).setExitNode isExitNode).isLatencyFirst =
      mgr.latencyFirst
    simp
  simp [sendMsg, sendMsgInternal, latency, Choice.send, linkTo]

/-- An unaddressed packet goes to every destination that has a link, once both stages
have succeeded. -/
theorem sendProcessed_handed {msg : ZCPacket} (unaddressed : msg.header.toPeerId = 0)
    (ip : IpAddr) :
    (mgr.sendProcessed env msg ip).1 =
      match mgr.compressAndEncrypt env msg with
      | (_, some _) => []
      | (msg, none) => (mgr.dstPeers env ip).1.filterMap fun dst =>
        (mgr.linkTo dst).map (⟨·, (mgr.setSendFlags (mgr.dstPeers env ip).2 msg).setTo dst⟩) := by
  unfold sendProcessed
  rw [if_neg (not_not.mpr unaddressed)]
  obtain ⟨dsts, isExitNode⟩ := mgr.dstPeers env ip
  obtain ⟨msg', failed⟩ := mgr.compressAndEncrypt env msg
  cases failed with
  | some e => cases dsts <;> rfl
  | none =>
    cases dsts with
    | nil => rfl
    | cons dst dsts => exact sendToAll_handed isExitNode msg' (dst :: dsts)

end

def AclDrops (msg : ZCPacket) : Prop :=
  ∃ f, mgr.outboundVerdict env (mgr.fillNicHeader msg) = some (false, f)

/-- A dropped packet is sent as it is, past the filters. -/
theorem sendMsgByIp_of_aclDrops {msg : ZCPacket} (drops : mgr.AclDrops env msg) (ip : IpAddr) :
    ∃ error f, mgr.sendMsgByIp env msg ip =
      some ⟨(mgr.sendProcessed env (mgr.fillNicHeader msg) ip).1, error, f⟩ := by
  obtain ⟨f, verdict⟩ := drops
  refine ⟨(mgr.sendProcessed env (mgr.fillNicHeader msg) ip).2, f, ?_⟩
  unfold sendMsgByIp runNicPacketProcessPipeline
  rw [verdict]

/-- **The ACL's drop of an outbound packet is obeyed** exactly when the ACL does not
drop it, the packet cannot be compressed and encrypted, or no destination has a link. -/
theorem outbound_drop_iff (msg : ZCPacket) (ip : IpAddr) :
    (mgr.AclDrops env msg → ∀ result, mgr.sendMsgByIp env msg ip = some result →
        ∀ handed ∈ result.handed, ¬handed.link.Leaves) ↔
      (¬mgr.AclDrops env msg ∨ (mgr.compressAndEncrypt env (mgr.fillNicHeader msg)).2 ≠ none ∨
        ∀ dst ∈ (mgr.dstPeers env ip).1, ∀ link ∈ mgr.linkTo dst, ¬link.Leaves) := by
  by_cases drops : mgr.AclDrops env msg
  · obtain ⟨error, f, sent⟩ := mgr.sendMsgByIp_of_aclDrops env drops ip
    rw [sent, sendProcessed_handed rfl]
    obtain ⟨msg', failed⟩ := mgr.compressAndEncrypt env (mgr.fillNicHeader msg)
    cases failed with
    | some e => simp
    | none =>
      simp only [drops, true_implies, not_true, ne_eq, false_or, Option.some.injEq,
        forall_eq', List.mem_filterMap, Option.map_eq_some_iff, Option.mem_def]
      constructor
      · intro obeyed dst isDst link isLink
        exact obeyed ⟨link, _⟩ ⟨dst, isDst, link, isLink, rfl⟩
      · rintro noLink handed ⟨dst, isDst, link, isLink, rfl⟩
        exact noLink dst isDst link isLink
  · simp [drops]

end PeerManager

/-! ## A dropped packet that is sent -/

/-- A peer with one connection. -/
def samplePeer (conn : ConnId) : Peer := ⟨[(conn, 10)], conn⟩

/-- Rules that drop every outbound packet. -/
def dropOutbound : AclConfig := ⟨some ⟨[⟨ChainType.outbound.code, true, [], 2⟩]⟩⟩

/-- A route on which peer 2 has the address 10.0.0.2. -/
def sampleRoute : RouteAccess where
  getNextHopWithPolicy dst _ := some dst
  getPeerIdByIpv4 ip := if ip = 0x0a000002 then some 2 else none
  getPeerIdByIpv6 _ := none
  listRoutes := [2]
  getOriginMyPeerId _ _ := none

/-- Node 1, connected to peer 2. -/
def sampleManager (encryptor : Encryptor) (acl : Option AclConfig) : PeerManager where
  myPeerId := 1
  peers := ⟨fun peer => if peer = 2 then some (samplePeer 7) else none, [sampleRoute]⟩
  foreignNetworkClient := ⟨fun _ => none, []⟩
  getPeerGroups _ := []
  getNetworkPeerId _ := none
  aclFilter := (AclFilter.new fun _ => none).reloadRules (fun _ => none) acl
  nicPacketProcessPipeline := []
  encryptor := encryptor
  zstd := ⟨fun _ => none, fun _ _ => .error .other⟩
  dataCompressAlgo := .none
  exitNodes := []
  ipv4 := some ⟨0x0a000001, Inet.defaultLength⟩
  ipv6 := none
  latencyFirst := false

def sampleSendEnv : SendEnv where
  acl := Acl.sampleEnv
  sums := ⟨fun _ => 0, fun _ _ _ => 0, fun _ _ _ => 0, fun _ => 0⟩
  nonce := ⟨List.replicate 12 0, by decide⟩
  routes := .stored _

/-- The ACL drops the packet, and it goes out over the connection of peer 2. -/
theorem dropped_packet_sent :
    (sampleManager .null (some dropOutbound)).AclDrops sampleSendEnv Acl.samplePacket ∧
      ((sampleManager .null (some dropOutbound)).sendMsgByIp sampleSendEnv Acl.samplePacket
        (.v4 0x0a000002)).map (fun result => result.handed.map (·.link)) =
          some [.peerConn 2 7] := by
  constructor
  · have verdict : (((sampleManager .null (some dropOutbound)).outboundVerdict sampleSendEnv
        ((sampleManager .null (some dropOutbound)).fillNicHeader Acl.samplePacket)).map (·.1)) =
          some false := by decide +kernel
    obtain ⟨⟨pass, f⟩, answered, rfl⟩ := Option.map_eq_some_iff.mp verdict
    exact ⟨f, answered⟩
  · decide +kernel

end PeerLink.Manager
