import PeerLink.Acl.Unlimited
import PeerLink.Gateway.Fragments
import PeerLink.Manager.Outside

/-!
# Fragments and the ACL

The ACL judges every fragment by itself, with ports read from whatever the fragment starts
with, and lets pass what it cannot read. The UDP proxy reads the ports of the whole datagram.
They are those of the fragment at offset 0, which the ACL has let pass, so a datagram that is
sent is one that the ACL allows. `Traced` runs a node beside the origins of the fragments that
its UDP proxy holds.
-/

namespace PeerLink.Manager

open Packet Acl Gateway

open Route (PeerId)

namespace FilterNode
variable (parseCidr : CidrParser) (acl : AclConfig) (node : FilterNode) (env : InputEnv)

/-- What the UDP proxy sends when a packet comes in from a peer. -/
def sendsUdp (packet : ZCPacket) : Option UdpDatagram :=
  if passed (node.manager.inboundVerdict env.toRecvEnv packet) then
    node.filters.sendsUdp env.filterEnv packet
  else
    none

def constituents (origins : Origins) (packet : ZCPacket) : List ZCPacket :=
  node.filters.udpProxy.proxy.constituents origins packet

def originsAfter (origins : Origins) : Input → Origins
  | .data packet _ =>
    if passed (node.manager.inboundVerdict env.toRecvEnv packet) then
      node.filters.originsAfter env.filterEnv origins packet
    else
      origins
  | _ => origins

/-- `remove_expired_packets`, for one packet. -/
def expire (key : IpResemblerKey) : FilterNode :=
  let udp := node.filters.udpProxy
  let ipResemmbler := ⟨udp.proxy.ipResemmbler.packets.erase key⟩
  { node with filters := { node.filters with
      udpProxy := { udp with proxy := { udp.proxy with ipResemmbler } } } }

/-- The ACL has the configuration, and no fragment has come in. -/
structure Begins : Prop where
  built : node.mgr.aclFilter.aclProcessor.BuiltFrom parseCidr acl
  empty : node.filters.udpProxy.proxy.ipResemmbler.packets = ∅
  nodup : node.filters.peerPacketProcessPipeline.Nodup

/-- Any change that leaves alone the ACL, what it reads of the node, and the fragments. -/
structure Unaffected (node' : FilterNode) : Prop where
  acl : node'.mgr.aclFilter = node.mgr.aclFilter
  ipv4 : node'.mgr.ipv4 = node.mgr.ipv4
  ipv6 : node'.mgr.ipv6 = node.mgr.ipv6
  groups : node'.mgr.getPeerGroups = node.mgr.getPeerGroups
  fragments : node'.filters.udpProxy.proxy.ipResemmbler =
    node.filters.udpProxy.proxy.ipResemmbler
  nodup : node'.filters.peerPacketProcessPipeline.Nodup

/-- The states that a node comes to under one configuration, with the origins of the fragments
that it holds. -/
inductive Traced : FilterNode → Origins → Prop where
  | begin {node : FilterNode} : node.Begins parseCidr acl → Traced node fun _ => []
  | receive {node node' : FilterNode} {origins : Origins} (env : InputEnv) (input : Input) :
      Traced node origins → node.receive env input = some node' →
      Traced node' (node.originsAfter env origins input)
  | expire {node : FilterNode} {origins : Origins} (key : IpResemblerKey) :
      Traced node origins → Traced (node.expire key) (Function.update origins key [])
  | acl {node : FilterNode} {origins : Origins} {action : Option Action} {p : AclProcessor}
      (event : AclEvent) : Traced node origins → AclProcessor.Extracted [event] →
      node.mgr.aclFilter.aclProcessor.step AclProcessor.processPacket event = some (action, p) →
      Traced (node.withAcl { node.mgr.aclFilter with aclProcessor := p }) origins
  | other {node node' : FilterNode} {origins : Origins} :
      Traced node origins → node.Unaffected node' → Traced node' origins

/-- The ACL's answer to a packet from a peer, by the configuration alone. -/
def admits (packet : ZCPacket) : Bool :=
  node.mgr.aclFilter.admits parseCidr acl packet true
    ⟨node.mgr.ipv4.map (·.address), node.mgr.ipv6.map (·.address)⟩ node.mgr.getPeerGroups

/-- The ACL keeps to the configuration, and has let pass all that the UDP proxy holds. -/
structure Guarded (origins : Origins) : Prop where
  faithful : node.mgr.aclFilter.aclProcessor.Faithful parseCidr acl
  tracks : node.filters.udpProxy.proxy.ipResemmbler.Tracks origins
  admitted : ∀ key, ∀ part ∈ origins key,
    isProxyInput PROTOCOL_UDP part = true ∧ node.admits parseCidr acl part = true
  nodup : node.filters.peerPacketProcessPipeline.Nodup

/-- What the ACL's answers depend on is as before. -/
structure Abides (node' : FilterNode) : Prop where
  acl : node.mgr.aclFilter.Continues parseCidr acl node'.mgr.aclFilter
  ipv4 : node'.mgr.ipv4 = node.mgr.ipv4
  ipv6 : node'.mgr.ipv6 = node.mgr.ipv6
  groups : node'.mgr.getPeerGroups = node.mgr.getPeerGroups

variable {parseCidr acl node env} {node' : FilterNode} {origins origins' : Origins}
variable {packet : ZCPacket}

theorem Abides.admits_eq (abides : node.Abides parseCidr acl node') (packet : ZCPacket) :
    node'.admits parseCidr acl packet = node.admits parseCidr acl packet := by
  unfold admits
  rw [abides.ipv4, abides.ipv6, abides.groups, abides.acl.admits_eq]

theorem concerns_isProxyInput {p : DatagramProxy} {protocol : Nat}
    (concerned : p.concerns protocol packet = true) : isProxyInput protocol packet = true := by
  unfold DatagramProxy.concerns at concerned
  simp only [Bool.and_eq_true] at concerned
  exact concerned.1.2

section
variable (free : acl.WithoutLimits)
  (faithful : node.mgr.aclFilter.aclProcessor.Faithful parseCidr acl)
include free faithful

theorem inboundVerdict_admits (env : RecvEnv) (packet : ZCPacket) :
    ∃ f, node.manager.inboundVerdict env packet = some (node.admits parseCidr acl packet, f) ∧
      node.mgr.aclFilter.Continues parseCidr acl f :=
  AclFilter.processPacketWithAcl_admits free faithful env.acl packet true _ _

theorem outboundVerdict_continues (env : SendEnv) (packet : ZCPacket) :
    ∃ verdict f, node.manager.outboundVerdict env packet = some (verdict, f) ∧
      node.mgr.aclFilter.Continues parseCidr acl f :=
  ⟨_, AclFilter.processPacketWithAcl_admits free faithful env.acl packet false _ _⟩

end

section
variable (guarded : node.Guarded parseCidr acl origins)
include guarded

/-- One step: what it adds to the origins has passed the ACL. -/
theorem Guarded.step (abides : node.Abides parseCidr acl node')
    (tracks : node'.filters.udpProxy.proxy.ipResemmbler.Tracks origins')
    (added : ∀ key, ∀ part ∈ origins' key, part ∈ origins key ∨
      isProxyInput PROTOCOL_UDP part = true ∧ node.admits parseCidr acl part = true)
    (nodup : node'.filters.peerPacketProcessPipeline.Nodup) :
    node'.Guarded parseCidr acl origins' := by
  refine ⟨abides.acl.faithful, tracks, fun key part mem => ?_, nodup⟩
  rw [abides.admits_eq]
  exact (added key part mem).elim (guarded.admitted key part) id

/-- A step that leaves the filters alone. -/
theorem Guarded.withAcl {f : AclFilter} (after : node.mgr.aclFilter.Continues parseCidr acl f) :
    (node.withAcl f).Guarded parseCidr acl origins :=
  guarded.step ⟨after, rfl, rfl, rfl⟩ guarded.tracks (fun _ _ mem => .inl mem) guarded.nodup

theorem Guarded.withTable (table : Finset Ipv4Addr) :
    Guarded parseCidr acl
      { node with filters := { node.filters with wgPeerIpTable := table } } origins :=
  ⟨guarded.faithful, guarded.tracks, guarded.admitted, guarded.nodup⟩

theorem Guarded.expire (key : IpResemblerKey) :
    (node.expire key).Guarded parseCidr acl (Function.update origins key []) := by
  refine guarded.step ⟨⟨guarded.faithful, rfl, rfl⟩, rfl, rfl, rfl⟩ (guarded.tracks.erase key) ?_
    guarded.nodup
  intro other part mem
  obtain old | ⟨-, listed⟩ := IpReassembler.mem_update mem
  · exact .inl old
  · cases listed

variable (free : acl.WithoutLimits)
include free

theorem Guarded.sendMsgByIp (sent : node.sendMsgByIp env packet = some node') :
    node'.Guarded parseCidr acl origins := by
  obtain ⟨_, f, answered, after⟩ := outboundVerdict_continues free guarded.faithful env.toSendEnv
    (node.manager.fillNicHeader packet)
  obtain ⟨_, _, answered', rfl⟩ := sendMsgByIp_some sent
  cases answered.symm.trans answered'
  exact guarded.withAcl after

theorem Guarded.receiveData (isData : packet.header.packetType = PacketType.data.code)
    (received : node.receiveData env packet = some node') :
    node'.Guarded parseCidr acl (node.originsAfter env origins (.data packet isData)) := by
  obtain ⟨f, answered, after⟩ := inboundVerdict_admits free guarded.faithful env.toRecvEnv packet
  unfold FilterNode.receiveData at received
  simp only [originsAfter, answered, passed] at received ⊢
  cases admitted : node.admits parseCidr acl packet with
  | false =>
    rw [admitted] at received
    cases received
    exact guarded.withAcl after
  | true =>
    rw [admitted] at received
    obtain ⟨⟨out, filters⟩, processed, same⟩ := Option.map_eq_some_iff.mp received
    cases same
    refine guarded.step ⟨after, rfl, rfl, rfl⟩
      (Filters.processPacketFromPeer_tracks guarded.nodup guarded.tracks processed) ?_ ?_
    · intro key part mem
      obtain old | ⟨rfl, concerned⟩ := Filters.mem_originsAfter mem
      · exact .inl old
      · exact .inr ⟨concerns_isProxyInput concerned, admitted⟩
    · exact (Filters.runPeerFilters_keeps processed).peerPipeline ▸ guarded.nodup

theorem Guarded.receive {input : Input} (received : node.receive env input = some node') :
    node'.Guarded parseCidr acl (node.originsAfter env origins input) := by
  cases input with
  | data packet isData => exact guarded.receiveData free isData received
  | nic packet =>
    obtain ⟨left, -⟩ | ⟨sent, -⟩ := node.doForwardNicToPeers_cases env packet
    · cases left.symm.trans received
      exact guarded
    · exact guarded.sendMsgByIp free (sent.symm.trans received)
  | portal packet registered =>
    simp only [FilterNode.receive, handlePortalPacket] at received
    split at received
    · cases received
      exact guarded
    · exact (guarded.withTable _).sendMsgByIp free received
  | pong payload =>
    obtain ⟨pings, -, same⟩ := Option.map_eq_some_iff.mp received
    cases same
    exact ⟨guarded.faithful, guarded.tracks, guarded.admitted, guarded.nodup⟩

end

theorem Traced.guarded (free : acl.WithoutLimits) (run : Traced parseCidr acl node origins) :
    node.Guarded parseCidr acl origins := by
  induction run with
  | @begin node begins =>
    have tracks : node.filters.udpProxy.proxy.ipResemmbler.Tracks fun _ => [] := by
      rw [show node.filters.udpProxy.proxy.ipResemmbler = ⟨∅⟩ from
        congrArg IpReassembler.mk begins.empty]
      exact .new
    exact ⟨begins.built.faithful, tracks, nofun, begins.nodup⟩
  | receive env input _ received ih => exact ih.receive free received
  | expire key _ ih => exact ih.expire key
  | acl event _ extracted stepped ih =>
    exact ih.withAcl ⟨ih.faithful.step extracted stepped, rfl, rfl⟩
  | other _ same ih =>
    refine ih.step ⟨?_, same.ipv4, same.ipv6, same.groups⟩ (same.fragments ▸ ih.tracks)
      (fun _ _ mem => .inl mem) same.nodup
    rw [same.acl]
    exact ⟨ih.faithful, rfl, rfl⟩

end FilterNode

/-! ## The datagram as one packet -/

/-- A data packet with an IPv4 header that carries UDP. -/
structure IsUdp (packet : ZCPacket) : Prop where
  isData : packet.header.packetType = PacketType.data.code
  long : Ipv4Packet.minimumPacketSize ≤ packet.payload.length
  version : Ipv4Packet.version packet.payload = 4
  protocol : Ipv4Packet.nextLevelProtocol packet.payload = PROTOCOL_UDP

/-- `whole` is a datagram in one packet: from the sender of `first`, with the addresses of
`packet` and the ports of the datagram. -/
structure Presents (whole first packet : ZCPacket) (datagram : Bytes) : Prop extends
    IsUdp whole where
  sender : whole.header.fromPeerId = first.header.fromPeerId
  receiver : whole.header.toPeerId = first.header.toPeerId
  unfragmented : IpReassembler.isPacketFragmented whole.payload = false
  header : 8 ≤ (Ipv4Packet.payload whole.payload).length
  source : Ipv4Packet.source whole.payload = Ipv4Packet.source packet.payload
  destination : Ipv4Packet.destination whole.payload = Ipv4Packet.destination packet.payload
  srcPort : sourcePort (Ipv4Packet.payload whole.payload) = sourcePort datagram
  dstPort : destinationPort (Ipv4Packet.payload whole.payload) = destinationPort datagram

section

variable {packet first whole : ZCPacket} {datagram : Bytes}

variable {data head : Bytes} {start len n : Nat}

theorem isUdp_of_isProxyInput (input : isProxyInput PROTOCOL_UDP packet = true) : IsUdp packet := by
  simp only [isProxyInput, Bool.and_eq_true, beq_iff_eq, decide_eq_true_eq] at input
  obtain ⟨⟨⟨⟨isData, -⟩, long⟩, version⟩, protocol⟩ := input
  exact ⟨isData, long, version, protocol⟩

theorem field_take (within : start + len ≤ n) :
    field (data.take n) start len = field data start len := by
  unfold field
  rw [List.drop_take, List.take_take, Nat.min_eq_left (by omega)]

theorem sourcePort_take (data : Bytes) : sourcePort (data.take 8) = sourcePort data :=
  congrArg UInt16.ofNat (field_take (by decide))

theorem destinationPort_take (data : Bytes) :
    destinationPort (data.take 8) = destinationPort data :=
  congrArg UInt16.ofNat (field_take (by decide))

theorem ports_udp (header : 8 ≤ data.length) :
    ports PROTOCOL_UDP data = some (some (sourcePort data), some (destinationPort data)) :=
  if_neg (not_lt.mpr header)

theorem extractPacketInfo_udp (udp : IsUdp packet)
    (header : 8 ≤ (Ipv4Packet.payload packet.payload).length) (groups : PeerId → List String) :
    AclFilter.extractPacketInfo packet groups = some
      { srcIp := .v4 (Ipv4Packet.source packet.payload)
        dstIp := .v4 (Ipv4Packet.destination packet.payload)
        srcPort := some (sourcePort (Ipv4Packet.payload packet.payload))
        dstPort := some (destinationPort (Ipv4Packet.payload packet.payload))
        protocol := .udp
        packetSize := packet.payload.length
        srcGroups := groups packet.header.fromPeerId
        dstGroups := groups packet.header.toPeerId } := by
  unfold AclFilter.extractPacketInfo
  dsimp only
  rw [if_neg (not_lt.mpr udp.long), if_pos udp.version, udp.protocol, ports_udp header]
  rfl

/-- The ACL answers to the whole datagram as it does to its first part. -/
theorem Presents.admits_eq (presents : Presents whole first packet datagram) (udp : IsUdp first)
    (key : IpReassembler.keyOf first.payload = IpReassembler.keyOf packet.payload)
    (header : 8 ≤ (Ipv4Packet.payload first.payload).length)
    (start : (Ipv4Packet.payload first.payload).take 8 = datagram.take 8)
    (parseCidr : CidrParser) (acl : AclConfig) (node : FilterNode) :
    node.admits parseCidr acl whole = node.admits parseCidr acl first := by
  have srcPort : sourcePort (Ipv4Packet.payload first.payload) = sourcePort datagram := by
    rw [← sourcePort_take, start, sourcePort_take]
  have dstPort : destinationPort (Ipv4Packet.payload first.payload) = destinationPort datagram := by
    rw [← destinationPort_take, start, destinationPort_take]
  unfold FilterNode.admits AclFilter.admits
  rw [extractPacketInfo_udp presents.toIsUdp presents.header, extractPacketInfo_udp udp header,
    presents.isData, udp.isData, presents.sender, presents.receiver, presents.source,
    presents.destination, presents.srcPort, presents.dstPort, srcPort, dstPort,
    show Ipv4Packet.source first.payload = _ from congrArg IpResemblerKey.source key,
    show Ipv4Packet.destination first.payload = _ from congrArg IpResemblerKey.destination key]
  rfl

/-- The datagram's header in a packet of its own, which has the IPv4 header of `packet` except
for lengths, identification and fragmentation. -/
def present (first packet : ZCPacket) (datagram : Bytes) : ZCPacket :=
  { header := first.header
    payload := [0x45, 0, 0, 28, 0, 0, 0, 0] ++
      ((packet.payload.drop 8).take 12 ++ datagram.take 8) }

theorem field_append_left {more : Bytes} (within : start + len ≤ data.length) :
    field (data ++ more) start len = field data start len := by
  rw [← field_take within, List.take_left]

/-- Fields of a header whose first eight bytes are replaced. -/
theorem field_replaced {rest : Bytes} (eight : head.length = 8)
    (long : 8 + n ≤ data.length) (after : 8 ≤ start) (within : start + len ≤ 8 + n) :
    field (head ++ ((data.drop 8).take n ++ rest)) start len = field data start len := by
  have middle : ((data.drop 8).take n).length = n := by simp; omega
  obtain ⟨k, rfl⟩ := Nat.exists_eq_add_of_le after
  unfold field
  rw [List.drop_append, List.drop_eq_nil_of_le (by omega), List.nil_append, eight,
    Nat.add_sub_cancel_left, ← List.drop_drop, List.drop_append_of_le_length (by omega),
    List.take_append_of_le_length (by rw [List.length_drop, middle]; omega), List.drop_take,
    List.take_take, Nat.min_eq_left (by omega)]

/-- The payload behind a header of twenty bytes. -/
theorem payload_behind {middle body : Bytes} (eight : head.length = 8) (twelve : middle.length = 12)
    (headerLength : Ipv4Packet.headerLength (head ++ (middle ++ body)) = 5)
    (totalLength : 20 + body.length ≤ Ipv4Packet.totalLength (head ++ (middle ++ body))) :
    Ipv4Packet.payload (head ++ (middle ++ body)) = body := by
  have before : (head ++ middle).length = 20 := by rw [List.length_append, eight, twelve]
  have all : (head ++ middle ++ body).length = 20 + body.length := by
    rw [List.length_append, before]
  unfold Ipv4Packet.payload
  rw [headerLength]
  change (List.take (20 + (_ - 5 * 4)) _).drop 20 = body
  rw [← List.append_assoc] at totalLength ⊢
  rw [List.take_of_length_le (by omega), List.drop_left' before]

theorem field_present (long : 20 ≤ packet.payload.length) (after : 8 ≤ start)
    (within : start + len ≤ 20) :
    field (present first packet datagram).payload start len = field packet.payload start len :=
  field_replaced rfl long after within

theorem payload_present (long : 20 ≤ packet.payload.length) :
    Ipv4Packet.payload (present first packet datagram).payload = datagram.take 8 := by
  have middle : ((packet.payload.drop 8).take 12).length = 12 := by simp; omega
  have headerLength : Ipv4Packet.headerLength (present first packet datagram).payload = 5 := by
    unfold Ipv4Packet.headerLength present
    rw [field_append_left (by decide)]
    rfl
  have totalLength : Ipv4Packet.totalLength (present first packet datagram).payload = 28 := by
    unfold Ipv4Packet.totalLength present
    rw [field_append_left (by decide)]
    rfl
  refine payload_behind rfl middle headerLength (le_of_le_of_eq ?_ totalLength.symm)
  rw [List.length_take]
  omega

/-- Every datagram can be presented so. -/
theorem present_presents (udp : IsUdp packet)
    (isData : first.header.packetType = PacketType.data.code)
    (long : 8 ≤ datagram.length) :
    Presents (present first packet datagram) first packet datagram := by
  have minimum : 20 ≤ packet.payload.length := udp.long
  have payload := @payload_present packet first datagram minimum
  have fragmentation : field (present first packet datagram).payload 6 2 = 0 :=
    field_append_left (by decide)
  refine ⟨⟨isData, ?_, ?_, ?_⟩, rfl, rfl, ?_, ?_, ?_, ?_, ?_, ?_⟩
  · simp [present, Ipv4Packet.minimumPacketSize]
    omega
  · unfold Ipv4Packet.version present
    rw [field_append_left (by decide)]
    rfl
  · exact (field_present minimum (by decide) (by decide)).trans udp.protocol
  · simp [IpReassembler.isPacketFragmented, Ipv4Packet.fragmentOffset, Ipv4Packet.moreFragments,
      fragmentation]
  · rw [payload, List.length_take]
    omega
  · exact congrArg (BitVec.ofNat 32) (field_present minimum (by decide) (by decide))
  · exact congrArg (BitVec.ofNat 32) (field_present minimum (by decide) (by decide))
  · rw [payload, sourcePort_take]
  · rw [payload, destinationPort_take]

end

namespace FilterNode

variable {parseCidr : CidrParser} {acl : AclConfig} {node : FilterNode} {origins : Origins}
variable {env : InputEnv} {packet : ZCPacket} {sent : UdpDatagram}

/-- The packet whose datagram is sent has passed the ACL, and come to the UDP proxy. -/
theorem sendsUdp_some (free : acl.WithoutLimits) (guarded : node.Guarded parseCidr acl origins)
    (sends : node.sendsUdp env packet = some sent) :
    node.admits parseCidr acl packet = true ∧
      node.filters.udpProxy.sends env.udpSocketOpens packet = some sent := by
  obtain ⟨f, answered, -⟩ := inboundVerdict_admits free guarded.faithful env.toRecvEnv packet
  unfold sendsUdp Filters.sendsUdp at sends
  split at sends
  · rename_i passes
    rw [answered] at passes
    split at sends
    · exact ⟨passes, sends⟩
    · cases sends
  · cases sends

/-- All constituents of a datagram are UDP packets that the ACL has let pass. -/
theorem Guarded.constituents (free : acl.WithoutLimits)
    (guarded : node.Guarded parseCidr acl origins) (sends : node.sendsUdp env packet = some sent)
    {part : ZCPacket} (mem : part ∈ node.constituents origins packet) :
    IsUdp part ∧ node.admits parseCidr acl part = true := by
  obtain ⟨admitted, sends⟩ := sendsUdp_some free guarded sends
  have input := concerns_isProxyInput (UdpProxy.sends_some sends).1
  have known : (∃ key, part ∈ origins key) ∨ part = packet := by
    unfold FilterNode.constituents DatagramProxy.constituents at mem
    split at mem
    · exact (IpReassembler.mem_constituents mem).imp_left fun old => ⟨_, old⟩
    · exact .inr (List.mem_singleton.mp mem)
  obtain ⟨key, old⟩ | rfl := known
  · exact (guarded.admitted key part old).imp_left isUdp_of_isProxyInput
  · exact ⟨isUdp_of_isProxyInput input, admitted⟩

/-- **Fragments do not get past the ACL.** For a configuration without rate limits, in every
state that a node comes to: a datagram that the UDP proxy sends is made of the payloads of
packets that came in, each at its own offset. One of them is at offset 0, and the ACL allows
the datagram as one packet from the sender of that one. -/
theorem sent_datagram_allowed (free : acl.WithoutLimits) (run : Traced parseCidr acl node origins)
    (sends : node.sendsUdp env packet = some sent) :
    (∀ part ∈ node.constituents origins packet,
        ∀ i < (Ipv4Packet.payload part.payload).length,
          sent.packet[Ipv4Packet.fragmentOffset part.payload * 8 + i]? =
            (Ipv4Packet.payload part.payload)[i]?) ∧
      (∃ first ∈ node.constituents origins packet,
        Ipv4Packet.fragmentOffset first.payload = 0 ∧
          ∃ whole, Presents whole first packet sent.packet) ∧
      ∀ first ∈ node.constituents origins packet,
        Ipv4Packet.fragmentOffset first.payload = 0 →
          ∀ whole, Presents whole first packet sent.packet → ∀ later : RecvEnv,
            passed (node.manager.inboundVerdict later whole) = true := by
  have guarded := run.guarded free
  obtain ⟨-, sent⟩ := sendsUdp_some free guarded sends
  obtain ⟨concerned, long, -⟩ := UdpProxy.sends_some sent
  have udp := isUdp_of_isProxyInput (concerns_isProxyInput concerned)
  obtain ⟨⟨first, mem, zero⟩, header⟩ := UdpProxy.sends_header guarded.tracks sent
  refine ⟨?_, ⟨first, mem, zero, ?_⟩, ?_⟩
  · exact fun part mem i within => UdpProxy.sends_placed guarded.tracks sent mem within
  · have isData := (guarded.constituents free sends mem).1.isData
    exact ⟨_, present_presents udp isData long⟩
  · intro first mem zero whole presents later
    obtain ⟨key, reaches, start⟩ := header first mem zero
    obtain ⟨udp, admitted⟩ := guarded.constituents free sends mem
    obtain ⟨f, answered, -⟩ := inboundVerdict_admits free guarded.faithful later whole
    rw [answered, passed, presents.admits_eq udp key reaches start]
    exact admitted

end FilterNode

/-! ## A query in two fragments -/

/-- Inbound packets are dropped, but for UDP to port 53. -/
def dnsAcl : AclConfig :=
  ⟨some ⟨[⟨ChainType.inbound.code, true,
    [⟨10, true, 2, ["53"], [], [], [], 1, 0, 0, false, [], []⟩], 2⟩]⟩⟩

/-- A node with that configuration, whose SOCKS5 server is off. -/
def dnsNode : FilterNode :=
  ⟨sampleManager .null (some dnsAcl), { sampleFilters with socks5 := ⟨false, ∅, false⟩ }, []⟩

def packetFromPeer (payload : Bytes) : ZCPacket :=
  (⟨⟨0, 0, 0, 0, 0, 0⟩, payload⟩ : ZCPacket).fillPeerManagerHdr 2 1 PacketType.data.code

/-- The UDP header of a query. -/
def queryHead : ZCPacket := packetFromPeer (ipv4Bytes 17 0x20 0 [0x13, 0x88, 0, 53, 0, 12, 0, 0])

/-- What follows the header, which is too short for ports of its own. -/
def queryTail : ZCPacket := packetFromPeer (ipv4Bytes 17 0 1 [1, 2, 3, 4])

def query : Bytes := [0x13, 0x88, 0, 53, 0, 12, 0, 0, 1, 2, 3, 4]

/-- The tail completes the query, which is sent to port 53 of the node itself, and the ACL
allows it in one packet from peer 2. -/
theorem split_query_allowed :
    ∃ node origins, FilterNode.Traced (fun _ => none) dnsAcl node origins ∧
      node.sendsUdp sampleInputEnv queryTail = some ⟨query, (.v4 0x7f000001, 53)⟩ ∧
      queryHead ∈ node.constituents origins queryTail ∧
      passed (node.manager.inboundVerdict sampleRecvEnv (present queryHead queryTail query)) =
        true := by
  have free : dnsAcl.WithoutLimits := by
    intro chain listed rule mem
    rw [List.mem_singleton.mp listed] at mem
    rw [List.mem_singleton.mp mem]
  have begins : dnsNode.Begins (fun _ => none) dnsAcl := ⟨.start _ _ _, rfl, by decide⟩
  let origins := dnsNode.originsAfter sampleInputEnv (fun _ => []) (.data queryHead rfl)
  obtain ⟨node, received, sends, mem⟩ : ∃ node ∈ dnsNode.receive sampleInputEnv
    (.data queryHead rfl),
      node.sendsUdp sampleInputEnv queryTail = some ⟨query, (.v4 0x7f000001, 53)⟩ ∧
        queryHead ∈ node.constituents origins queryTail := by decide +kernel
  have run : FilterNode.Traced (fun _ => none) dnsAcl node origins :=
    .receive sampleInputEnv _ (.begin begins) received
  have presents : Presents (present queryHead queryTail query) queryHead queryTail query :=
    present_presents ⟨rfl, by decide, by decide +kernel, by decide +kernel⟩ rfl (by decide)
  obtain ⟨-, -, allowed⟩ := FilterNode.sent_datagram_allowed free run sends
  exact ⟨node, origins, run, sends, mem,
    allowed queryHead mem (by decide +kernel) _ presents sampleRecvEnv⟩

end PeerLink.Manager
