import PeerLink.Acl.Processor

/-!
# The ACL filter

The two entries into the ACL: `process_packet_with_acl` for packets, and
`handle_packet` for the connections and chunks of proxied streams. They share one
processor.
-/

namespace PeerLink.Acl

open Packet

open Route (PeerId)

structure AclFilter where
  aclProcessor : AclProcessor
  aclEnabled : Bool
  quicUdpPort : UInt16

namespace AclFilter

def new (parseCidr : CidrParser) : AclFilter where
  aclProcessor := .new parseCidr .default
  aclEnabled := false
  quicUdpPort := 0

variable (f : AclFilter)

/-- Without a configuration only the switch changes: the processor stays. -/
def reloadRules (parseCidr : CidrParser) (acl : Option AclConfig) : AclFilter :=
  match acl with
  | none => { f with aclEnabled := false }
  | some acl =>
    let p := f.aclProcessor
    { f with
      aclProcessor := .newWithSharedState parseCidr acl p.connTrack p.rateLimiters p.stats
      aclEnabled := true }

def protocolOf (number : Nat) : Protocol :=
  if number = PROTOCOL_TCP then .tcp
  else if number = PROTOCOL_UDP then .udp
  else if number = PROTOCOL_ICMP then .icmp
  else if number = PROTOCOL_ICMPV6 then .icmpv6
  else .unspecified

def extractPacketInfo (packet : ZCPacket) (groups : PeerId → List String) : Option PacketInfo :=
  let data := packet.payload
  let info (srcIp dstIp : IpAddr) (protocol : Nat) (ports : Option UInt16 × Option UInt16) :
      PacketInfo :=
    { srcIp := srcIp
      dstIp := dstIp
      srcPort := ports.1
      dstPort := ports.2
      protocol := protocolOf protocol
      packetSize := data.length
      srcGroups := groups packet.header.fromPeerId
      dstGroups := groups packet.header.toPeerId }
  if data.length < Ipv4Packet.minimumPacketSize then
    none
  else if Ipv4Packet.version data = 4 then
    let protocol := Ipv4Packet.nextLevelProtocol data
    (ports protocol (Ipv4Packet.payload data)).map
      (info (.v4 (Ipv4Packet.source data)) (.v4 (Ipv4Packet.destination data)) protocol)
  else if Ipv4Packet.version data = 6 then
    if data.length < Ipv6Packet.minimumPacketSize then
      none
    else
      let protocol := Ipv6Packet.nextHeader data
      (ports protocol (Ipv6Packet.payload data)).map
        (info (.v6 (Ipv6Packet.source data)) (.v6 (Ipv6Packet.destination data)) protocol)
  else
    none

/-- The statistics part of `handle_acl_result`; no result asks for a log line. -/
def handleAclResult (result : AclResult) (chainType : ChainType) (p : AclProcessor) :
    AclProcessor :=
  let (global, statType) : AclStatKey × AclStatType := match result.action with
    | .allow => (.packetsAllowed, .allowed)
    | .drop => (.packetsDropped, .dropped)
    | .noop => (.packetsNoop, .noop)
  (((p.incrementStat global).incrementStat (.packets chainType statType)).incrementStat
    (.packets chainType .total)).incrementStat .packetsTotal

/-- The node's own addresses; a missing one stands for the unspecified address. -/
structure MyAddrs where
  ipv4 : Option Ipv4Addr
  ipv6 : Option Ipv6Addr

def MyAddrs.has (mine : MyAddrs) (ip : IpAddr) : Bool :=
  ip == .v4 (mine.ipv4.getD 0) || ip == .v6 (mine.ipv6.getD 0)

def checkIsQuicPacket (info : PacketInfo) (mine : MyAddrs) : Bool :=
  if info.protocol ≠ .udp ∨ f.quicUdpPort = 0 then
    false
  else
    (info.dstPort == some f.quicUdpPort && mine.has info.dstIp) ||
      (info.srcPort == some f.quicUdpPort && mine.has info.srcIp)

def chainTypeOf (info : PacketInfo) (isIn : Bool) (mine : MyAddrs) : ChainType :=
  if isIn then
    if mine.has info.dstIp then .inbound else .forward
  else
    .outbound

/-- `process_packet` and its bookkeeping. -/
def runProcessor (env : AclEnv) (info : PacketInfo) (chainType : ChainType) :
    Option (Action × AclFilter) :=
  (f.aclProcessor.processPacket env info chainType).map fun (result, p) =>
    (result.action, { f with aclProcessor := handleAclResult result chainType p })

/-- Whether the packet passes, and the filter after it. -/
def processPacketWithAcl (env : AclEnv) (packet : ZCPacket) (isIn : Bool) (mine : MyAddrs)
    (groups : PeerId → List String) : Option (Bool × AclFilter) :=
  if !f.aclEnabled then
    some (true, f)
  else if packet.header.packetType ≠ PacketType.data.code then
    some (true, f)
  else
    match extractPacketInfo packet groups with
    | none => some (true, f)
    | some info =>
      if f.checkIsQuicPacket info mine then
        some (true, f)
      else
        (f.runProcessor env info (chainTypeOf info isIn mine)).map fun (action, f) =>
          (decide (action ≠ .drop), f)

end AclFilter

/-- What a proxied connection keeps of itself for the ACL. -/
structure ProxyAclHandler where
  packetInfo : PacketInfo
  chainType : ChainType

namespace ProxyAclHandler

/-- The handler of a proxied connection; `buf` is what announced the connection. Only
the node's IPv4 address makes it an inbound one. -/
def connect (src dst : IpAddr × UInt16) (srcGroups dstGroups : List String) (buf : Bytes)
    (myIpv4 : Option Ipv4Addr) : ProxyAclHandler where
  packetInfo :=
    { srcIp := src.1
      dstIp := dst.1
      srcPort := some src.2
      dstPort := some dst.2
      protocol := .tcp
      packetSize := buf.length
      srcGroups := srcGroups
      dstGroups := dstGroups }
  chainType := if some dst.1 = myIpv4.map .v4 then .inbound else .forward

/-- The packet info of a buffer: that of the connection with the buffer's size. -/
def infoFor (handler : ProxyAclHandler) (buf : Bytes) : PacketInfo :=
  { handler.packetInfo with packetSize := buf.length }

/-- Whether the buffer is allowed, and the filter after it. -/
def handlePacket (handler : ProxyAclHandler) (f : AclFilter) (env : AclEnv) (buf : Bytes) :
    Option (Bool × AclFilter) :=
  (f.runProcessor env (handler.infoFor buf) handler.chainType).map fun (action, f) =>
    (decide (action = .allow), f)

end ProxyAclHandler

/-! ## The two entries compared -/

/-- Whether a check let its packet or buffer pass; a panic does not. -/
def passed (result : Option (Bool × AclFilter)) : Bool :=
  match result with
  | some (verdict, _) => verdict
  | none => false

namespace AclFilter

def verdict (f : AclFilter) (env : AclEnv) (info : PacketInfo) (chainType : ChainType) :
    Option Action :=
  (f.runProcessor env info chainType).map (·.1)

def reloadAll (f : AclFilter) (parseCidr : CidrParser) (acls : List (Option AclConfig)) :
    AclFilter :=
  acls.foldl (fun f acl => f.reloadRules parseCidr acl) f

variable (f : AclFilter) (parseCidr : CidrParser)

theorem reloadRules_enabled (acl : Option AclConfig) :
    (f.reloadRules parseCidr acl).aclEnabled = acl.isSome := by
  cases acl with
  | none | some acl => rfl

/-- Whether the ACL is on after some reloads. -/
def enabledAfter (f : AclFilter) (acls : List (Option AclConfig)) : Bool :=
  match acls.getLast? with
  | none => f.aclEnabled
  | some acl => acl.isSome

/-- The switch follows the last reload. -/
theorem reloadAll_enabled (acls : List (Option AclConfig)) :
    (f.reloadAll parseCidr acls).aclEnabled = f.enabledAfter acls := by
  induction acls using List.reverseRecOn with
  | nil => rfl
  | append_singleton acls acl _ =>
    rw [enabledAfter, List.getLast?_concat, reloadAll, List.foldl_concat]
    exact reloadRules_enabled _ parseCidr acl

end AclFilter

/-- An inbound TCP packet and a connection of the same flow. -/
structure SameFlow (handler : ProxyAclHandler) (buf : Bytes) (packet : ZCPacket)
    (mine : AclFilter.MyAddrs) (groups : PeerId → List String) : Prop where
  data : packet.header.packetType = PacketType.data.code
  info : AclFilter.extractPacketInfo packet groups = some (handler.infoFor buf)
  tcp : handler.packetInfo.protocol = .tcp
  chain : AclFilter.chainTypeOf handler.packetInfo true mine = handler.chainType

section
variable {handler : ProxyAclHandler} {buf : Bytes} {packet : ZCPacket}
variable {mine : AclFilter.MyAddrs} {groups : PeerId → List String}

theorem handlePacket_passed (f : AclFilter) (env : AclEnv) :
    passed (handler.handlePacket f env buf) = true ↔
      f.verdict env (handler.infoFor buf) handler.chainType = some .allow := by
  unfold ProxyAclHandler.handlePacket AclFilter.verdict
  cases f.runProcessor env (handler.infoFor buf) handler.chainType with
  | none | some result => simp [passed]

theorem processPacketWithAcl_passed (flow : SameFlow handler buf packet mine groups)
    (f : AclFilter) (env : AclEnv) :
    passed (f.processPacketWithAcl env packet true mine groups) = true ↔
      (f.aclEnabled = true → ∃ action, action ≠ .drop ∧
        f.verdict env (handler.infoFor buf) handler.chainType = some action) := by
  have notQuic : f.checkIsQuicPacket (handler.infoFor buf) mine = false := by
    simp [AclFilter.checkIsQuicPacket, ProxyAclHandler.infoFor, flow.tcp]
  have chain : AclFilter.chainTypeOf (handler.infoFor buf) true mine = handler.chainType :=
    flow.chain
  unfold AclFilter.processPacketWithAcl AclFilter.verdict
  cases f.aclEnabled with
  | false => simp [passed]
  | true =>
    simp only [Bool.not_true, Bool.false_eq_true, if_false, flow.data, ne_eq, not_true,
      flow.info, notQuic, chain, true_implies]
    cases f.runProcessor env (handler.infoFor buf) handler.chainType with
    | none | some result => simp [passed]

/-- **The two entries agree** exactly when the processor allows the connection, or the
last reload loaded rules and the processor does not answer with no operation. -/
theorem proxied_verdict_iff (flow : SameFlow handler buf packet mine groups)
    (parseCidr : CidrParser) (start : AclFilter) (acls : List (Option AclConfig)) (env : AclEnv) :
    let f := start.reloadAll parseCidr acls
    let action := f.verdict env (handler.infoFor buf) handler.chainType
    passed (handler.handlePacket f env buf) =
        passed (f.processPacketWithAcl env packet true mine groups) ↔
      (action = some .allow ∨ (start.enabledAfter acls = true ∧ action ≠ some .noop)) := by
  intro f action
  rw [Bool.eq_iff_iff, handlePacket_passed, processPacketWithAcl_passed flow,
    ← start.reloadAll_enabled parseCidr acls]
  change (action = some .allow ↔ (f.aclEnabled = true → ∃ other, other ≠ .drop ∧
    action = some other)) ↔ _
  cases action with
  | none => cases f.aclEnabled <;> simp
  | some verdict => cases verdict <;> cases f.aclEnabled <;> simp

end

/-! ## A flow that the entries treat differently -/

/-- A TCP packet from 10.0.0.1:1000 to 10.0.0.2:80, without data. -/
def sampleSegment : Bytes :=
  [0x45, 0, 0, 40, 0, 0, 0, 0, 64, 6, 0, 0, 10, 0, 0, 1, 10, 0, 0, 2] ++
    [0x03, 0xe8, 0, 80, 0, 0, 0, 0, 0, 0, 0, 0, 0x50, 2, 0, 0, 0, 0, 0, 0]

def samplePacket : ZCPacket :=
  (⟨⟨0, 0, 0, 0, 0, 0⟩, sampleSegment⟩ : ZCPacket).fillPeerManagerHdr 1 2 PacketType.data.code

def sampleAddrs : AclFilter.MyAddrs := ⟨some 0x0a000002, none⟩

/-- The connection of the same flow, announced by as many bytes. -/
def sampleHandler : ProxyAclHandler :=
  .connect (.v4 0x0a000001, 1000) (.v4 0x0a000002, 80) [] [] sampleSegment (some 0x0a000002)

theorem sample_sameFlow :
    SameFlow sampleHandler sampleSegment samplePacket sampleAddrs (fun _ => []) where
  data := rfl
  info := by decide +kernel
  tcp := rfl
  chain := by decide +kernel

def sampleEnv : AclEnv := ⟨0, .stored _⟩

/-- Rules that let inbound packets through only if `action` says so. -/
def inboundAcl (action : Int) : AclConfig := ⟨some ⟨[⟨ChainType.inbound.code, true, [], action⟩]⟩⟩

/-- With rules loaded that drop, both entries refuse the flow. -/
theorem dropped_flow_agrees :
    let f := (AclFilter.new fun _ => none).reloadAll (fun _ => none) [some (inboundAcl 2)]
    passed (sampleHandler.handlePacket f sampleEnv sampleSegment) =
      passed (f.processPacketWithAcl sampleEnv samplePacket true sampleAddrs fun _ => []) :=
  (proxied_verdict_iff sample_sameFlow (fun _ => none) (.new fun _ => none)
    [some (inboundAcl 2)] sampleEnv).mpr (.inr ⟨by decide +kernel, by decide +kernel⟩)

/-- Rules that drop are loaded and then the ACL is turned off: the packet passes, the
connection is still refused. -/
theorem disabled_acl_refuses_connection :
    let f := (AclFilter.new fun _ => none).reloadAll (fun _ => none) [some (inboundAcl 2), none]
    SameFlow sampleHandler sampleSegment samplePacket sampleAddrs (fun _ => []) ∧
      passed (f.processPacketWithAcl sampleEnv samplePacket true sampleAddrs fun _ => []) = true ∧
      passed (sampleHandler.handlePacket f sampleEnv sampleSegment) = false :=
  ⟨sample_sameFlow, by decide +kernel, by decide +kernel⟩

end PeerLink.Acl
