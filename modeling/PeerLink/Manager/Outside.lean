import PeerLink.Acl.Cache
import PeerLink.Gateway.PeerPipeline
import PeerLink.Manager.Inbound

/-!
# Packets from outside

What a node does with bytes that it did not write itself: the payload of a data packet from
a peer, a packet from the NIC or from a client of the WireGuard portal, and the payload of a
pong. `none` is a panic, which ends the process.
-/

namespace PeerLink.Manager

open Packet Acl Gateway

open Route (PeerId)

/-- A node with its filters, and the sequence numbers of the pings that wait for an answer. -/
structure FilterNode where
  mgr : PeerManager
  filters : Filters
  pings : List Nat

/-- What reaches the node, in the form in which it is first looked at. -/
inductive Input where
  | data (packet : ZCPacket) (isData : packet.header.packetType = PacketType.data.code)
  | nic (packet : ZCPacket)
  /-- `registered` is whether the client has sent a packet before. -/
  | portal (packet : ZCPacket) (registered : Bool)
  | pong (payload : Bytes)

structure InputEnv extends RecvEnv where
  udpSocketOpens : Bool

def InputEnv.filterEnv (env : InputEnv) : FilterEnv := ⟨env.sums, env.udpSocketOpens⟩

/-- Whether a pong answers the ping: `payload[0..4]` panics if the payload is shorter. -/
def answersPing (payload : Bytes) (seq : Nat) : Option Bool :=
  if payload.length < 4 then none else some (ForeignNetworkHdr.littleField payload 0 4 == seq)

/-- Every waiting `do_pingpong_once` gets the pong; those that it does not answer go on
waiting. -/
def awaitPong (payload : Bytes) : List Nat → Option (List Nat)
  | [] => some []
  | seq :: waiting => do
    let answered ← answersPing payload seq
    let waiting ← awaitPong payload waiting
    return if answered then waiting else seq :: waiting

namespace FilterNode
variable (node : FilterNode) (env : InputEnv)

/-- The peer manager with the filters as they are now. -/
def manager : PeerManager := { node.mgr with nicPacketProcessPipeline := node.filters.nicFilters }

def withAcl (f : AclFilter) : FilterNode := { node with mgr := { node.mgr with aclFilter := f } }

variable (packet : ZCPacket)

/-- The end of a round of `start_peer_recv`, for an opened packet. -/
def receiveData : Option FilterNode :=
  match node.manager.inboundVerdict env.toRecvEnv packet with
  | none => none
  | some (false, f) => some (node.withAcl f)
  | some (true, f) =>
    (node.filters.processPacketFromPeer env.filterEnv packet).map fun (_, filters) =>
      { node.withAcl f with filters }

/-- The pipeline in `send_msg_by_ip`. -/
def sendMsgByIp : Option FilterNode :=
  (node.manager.runNicPacketProcessPipeline env.toSendEnv
    (node.manager.fillNicHeader packet)).map fun (_, f) => node.withAcl f

def doForwardNicToPeers : Option FilterNode :=
  let payload := packet.payload
  if payload = [] then
    some node
  else if Ipv4Packet.version payload = 4 then
    if payload.length < Ipv4Packet.minimumPacketSize then some node
    else node.sendMsgByIp env packet
  else if Ipv4Packet.version payload = 6 then
    let src := Ipv6Packet.source payload
    if payload.length < Ipv6Packet.minimumPacketSize then some node
    else if PeerManager.isUnicastLinkLocal src ∧ some src ≠ node.mgr.ipv6.map (·.address) then
      some node
    else
      node.sendMsgByIp env packet
  else
    some node

/-- One packet in `handle_incoming_conn`; the first one tells the client's address. -/
def handlePortalPacket (registered : Bool) : Option FilterNode :=
  if packet.payload.length < Ipv4Packet.minimumPacketSize then
    some node
  else
    let table := node.filters.wgPeerIpTable
    let table := if registered then table else insert (Ipv4Packet.source packet.payload) table
    { node with filters := { node.filters with wgPeerIpTable := table } }.sendMsgByIp env packet

def receive : Input → Option FilterNode
  | .data packet _ => node.receiveData env packet
  | .nic packet => node.doForwardNicToPeers env packet
  | .portal packet registered => node.handlePortalPacket env packet registered
  | .pong payload => (awaitPong payload node.pings).map fun pings => { node with pings }

/-! ## States that a node comes to -/

/-- `accept` of a TCP proxy: the entry of the connection moves to the other table. -/
def accept (transport : TransportType) (addr : SocketAddr) : FilterNode :=
  let p := node.filters.tcpProxies transport
  match p.proxy.synMap.lookup addr with
  | none => node
  | some entry =>
    let proxy := { p.proxy with
      synMap := p.proxy.synMap.erase addr
      addrConnMap := p.proxy.addrConnMap.insert entry.src entry }
    { node with filters := { node.filters with
        tcpProxies := Function.update node.filters.tcpProxies transport { p with proxy } } }

/-- The cleaners drop entries of connections that were not opened or are closed. -/
def forget (transport : TransportType) (syn conn : SocketAddr) : FilterNode :=
  let p := node.filters.tcpProxies transport
  let proxy := { p.proxy with
    synMap := p.proxy.synMap.erase syn
    addrConnMap := p.proxy.addrConnMap.erase conn }
  { node with filters := { node.filters with
      tcpProxies := Function.update node.filters.tcpProxies transport { p with proxy } } }

/-- Nothing has gone through the filters yet, and none was added twice. -/
structure Fresh : Prop where
  syns : ∀ transport, (node.filters.tcpProxies transport).proxy.synMap = ∅
  conns : ∀ transport, (node.filters.tcpProxies transport).proxy.addrConnMap = ∅
  cache : node.mgr.aclFilter.aclProcessor.ruleCache = ∅
  nodup : node.filters.peerPacketProcessPipeline.Nodup

/-- Any change of configuration, route or waiting pings, which leaves the tables of the TCP
proxies and the ACL alone. -/
structure Reconfigured (node' : FilterNode) : Prop where
  syns : ∀ transport, (node'.filters.tcpProxies transport).proxy.synMap =
    (node.filters.tcpProxies transport).proxy.synMap
  conns : ∀ transport, (node'.filters.tcpProxies transport).proxy.addrConnMap =
    (node.filters.tcpProxies transport).proxy.addrConnMap
  acl : node'.mgr.aclFilter = node.mgr.aclFilter
  nodup : node'.filters.peerPacketProcessPipeline.Nodup

/-- The states that a node comes to: packets come in, connections are accepted and dropped,
the ACL works and is reloaded, the configuration changes. -/
inductive Run : FilterNode → Prop where
  | fresh {node : FilterNode} : node.Fresh → Run node
  | receive {node node' : FilterNode} (env : InputEnv) (input : Input) : Run node →
      node.receive env input = some node' → Run node'
  | accept {node : FilterNode} (transport : TransportType) (addr : SocketAddr) : Run node →
      Run (node.accept transport addr)
  | forget {node : FilterNode} (transport : TransportType) (syn conn : SocketAddr) : Run node →
      Run (node.forget transport syn conn)
  | acl {node : FilterNode} {action : Option Action} {p : AclProcessor} (event : AclEvent) :
      Run node → AclProcessor.Extracted [event] →
      node.mgr.aclFilter.aclProcessor.step AclProcessor.processPacket event = some (action, p) →
      Run (node.withAcl { node.mgr.aclFilter with aclProcessor := p })
  | reload {node : FilterNode} (parseCidr : CidrParser) (acl : Option AclConfig) : Run node →
      Run (node.withAcl (node.mgr.aclFilter.reloadRules parseCidr acl))
  | reconfigure {node node' : FilterNode} : Run node → node.Reconfigured node' → Run node'

/-- What the filters and the ACL rely on. -/
structure Sound : Prop where
  natKeyed : node.filters.NatKeyed
  cacheSound : node.mgr.aclFilter.aclProcessor.CacheSound
  nodup : node.filters.peerPacketProcessPipeline.Nodup

/-! ## When a packet crashes the node -/

/-- The input crashes no filter and no waiting ping. -/
def Harmless : Input → Prop
  | .data packet _ => passed (node.manager.inboundVerdict env.toRecvEnv packet) →
      ¬ node.filters.Harms env.filterEnv packet node.filters.peerPacketProcessPipeline.reverse
  | .nic packet | .portal packet _ =>
      packet.payload.length < Ipv4Packet.minimumPacketSize ∨
        ¬ (Filters.CutTcp packet.payload ∧ node.filters.ReadsTcp packet.payload)
  | .pong payload => node.pings = [] ∨ 4 ≤ payload.length

section
variable {node env} {node' : FilterNode} {packet : ZCPacket}

theorem Sound.withAcl (sound : node.Sound) {f : AclFilter} (cached : f.aclProcessor.CacheSound) :
    (node.withAcl f).Sound :=
  ⟨sound.natKeyed, cached, sound.nodup⟩

theorem Sound.withTable (sound : node.Sound) (table : Finset Ipv4Addr) :
    FilterNode.Sound { node with filters := { node.filters with wgPeerIpTable := table } } :=
  ⟨sound.natKeyed, sound.cacheSound, sound.nodup⟩

theorem inboundVerdict_returns (sound : node.Sound) (env : InputEnv) (packet : ZCPacket) :
    ∃ verdict f, node.manager.inboundVerdict env.toRecvEnv packet = some (verdict, f) ∧
      f.aclProcessor.CacheSound := by
  obtain ⟨verdict, f, answered, cached, -⟩ := AclFilter.processPacketWithAcl_returns
    sound.cacheSound env.acl packet true
    ⟨node.mgr.ipv4.map (·.address), node.mgr.ipv6.map (·.address)⟩ node.mgr.getPeerGroups
  exact ⟨verdict, f, answered, cached⟩

/-- A TCP packet that is cut short has no ports for the ACL. -/
theorem extractPacketInfo_of_cutTcp (groups : PeerId → List String)
    (cut : Filters.CutTcp packet.payload) : AclFilter.extractPacketInfo packet groups = none := by
  obtain ⟨ipv4, tcp, short⟩ := cut
  unfold AclFilter.extractPacketInfo
  simp [ipv4, tcp, ports, transportMinimum, short]

/-- The ACL lets a packet pass that it cannot read. -/
theorem outboundVerdict_returns (sound : node.Sound) (env : InputEnv) (packet : ZCPacket) :
    ∃ verdict f, node.manager.outboundVerdict env.toSendEnv packet = some (verdict, f) ∧
      f.aclProcessor.CacheSound ∧ (Filters.CutTcp packet.payload → verdict = true) := by
  obtain ⟨verdict, f, answered, cached, unparsed⟩ := AclFilter.processPacketWithAcl_returns
    sound.cacheSound env.acl packet false ⟨none, none⟩ node.mgr.getPeerGroups
  exact ⟨verdict, f, answered, cached, fun cut => unparsed (extractPacketInfo_of_cutTcp _ cut)⟩

theorem receiveData_eq_none_iff (sound : node.Sound) (packet : ZCPacket) :
    node.receiveData env packet = none ↔
      passed (node.manager.inboundVerdict env.toRecvEnv packet) ∧
        node.filters.Harms env.filterEnv packet
          node.filters.peerPacketProcessPipeline.reverse := by
  obtain ⟨verdict, f, answered, -⟩ := inboundVerdict_returns sound env packet
  unfold receiveData
  rw [answered]
  cases verdict with
  | false => simp [passed]
  | true =>
    simp only [Option.map_eq_none_iff, passed, true_and]
    exact Filters.runPeerFilters_eq_none_iff (List.nodup_reverse.mpr sound.nodup)

theorem receiveData_sound (sound : node.Sound)
    (received : node.receiveData env packet = some node') : node'.Sound := by
  obtain ⟨verdict, f, answered, cached⟩ := inboundVerdict_returns sound env packet
  unfold receiveData at received
  rw [answered] at received
  cases verdict with
  | false =>
    cases received
    exact sound.withAcl cached
  | true =>
    obtain ⟨⟨out, filters⟩, processed, same⟩ := Option.map_eq_some_iff.mp received
    cases same
    have keeps := Filters.runPeerFilters_keeps processed
    exact ⟨keeps.natKeyed sound.natKeyed, cached, keeps.peerPipeline ▸ sound.nodup⟩

theorem sendMsgByIp_eq_none_iff (sound : node.Sound)
    (long : Ipv4Packet.minimumPacketSize ≤ packet.payload.length) :
    node.sendMsgByIp env packet = none ↔
      Filters.CutTcp packet.payload ∧ node.filters.ReadsTcp packet.payload := by
  obtain ⟨verdict, f, answered, -, passes⟩ :=
    outboundVerdict_returns sound env (node.manager.fillNicHeader packet)
  unfold sendMsgByIp PeerManager.runNicPacketProcessPipeline
  rw [answered, Option.map_eq_none_iff]
  cases verdict with
  | false =>
    refine iff_of_false nofun fun ⟨cut, _⟩ => ?_
    cases passes cut
  | true =>
    rw [Option.map_eq_none_iff]
    exact (runNicFilters_eq_none_iff (Filters.nicFilters_natKeyed sound.natKeyed) env.sums _
      (node.manager.fillNicHeader packet)).trans (node.filters.nicFilters_crash_iff long)

/-- A packet that is sent changes the ACL, and nothing else. -/
theorem sendMsgByIp_some (sent : node.sendMsgByIp env packet = some node') :
    ∃ verdict f, node.manager.outboundVerdict env.toSendEnv (node.manager.fillNicHeader packet) =
      some (verdict, f) ∧ node' = node.withAcl f := by
  obtain ⟨⟨out, f⟩, ran, same⟩ := Option.map_eq_some_iff.mp sent
  cases same
  unfold PeerManager.runNicPacketProcessPipeline at ran
  split at ran
  · cases ran
  · rename_i dropped
    cases ran
    exact ⟨false, f, dropped, rfl⟩
  · rename_i passes
    obtain ⟨_, -, same⟩ := Option.map_eq_some_iff.mp ran
    cases same
    exact ⟨true, f, passes, rfl⟩

theorem sendMsgByIp_sound (sound : node.Sound) (sent : node.sendMsgByIp env packet = some node') :
    node'.Sound := by
  obtain ⟨_, f, answered, cached, -⟩ :=
    outboundVerdict_returns sound env (node.manager.fillNicHeader packet)
  obtain ⟨_, _, answered', rfl⟩ := sendMsgByIp_some sent
  cases answered.symm.trans answered'
  exact sound.withAcl cached

theorem awaitPong_eq_none_iff (payload : Bytes) (pings : List Nat) :
    awaitPong payload pings = none ↔ pings ≠ [] ∧ payload.length < 4 := by
  induction pings with
  | nil => simp [awaitPong]
  | cons seq waiting ih =>
    by_cases short : payload.length < 4
    · simp [awaitPong, answersPing, short]
    · simp only [short, and_false, iff_false] at ih ⊢
      obtain ⟨rest, returned⟩ := Option.ne_none_iff_exists'.mp ih
      simp [awaitPong, answersPing, short, returned]

/-- The NIC's packets have an IPv4 or an IPv6 header when they are sent. -/
theorem doForwardNicToPeers_cases (node : FilterNode) (env : InputEnv) (packet : ZCPacket) :
    node.doForwardNicToPeers env packet = some node ∧
        (packet.payload.length < Ipv4Packet.minimumPacketSize ∨
          Ipv4Packet.version packet.payload ≠ 4) ∨
      node.doForwardNicToPeers env packet = node.sendMsgByIp env packet ∧
        Ipv4Packet.minimumPacketSize ≤ packet.payload.length := by
  unfold doForwardNicToPeers
  dsimp only
  split
  · rename_i empty
    exact .inl ⟨rfl, .inl (by simp [empty, Ipv4Packet.minimumPacketSize])⟩
  · split
    · split
      · rename_i short
        exact .inl ⟨rfl, .inl short⟩
      · rename_i long
        exact .inr ⟨rfl, not_lt.mp long⟩
    · rename_i notFour
      split
      · split
        · exact .inl ⟨rfl, .inr notFour⟩
        · rename_i long
          split
          · exact .inl ⟨rfl, .inr notFour⟩
          · refine .inr ⟨rfl, ?_⟩
            unfold Ipv6Packet.minimumPacketSize at long
            unfold Ipv4Packet.minimumPacketSize
            omega
      · exact .inl ⟨rfl, .inr notFour⟩

theorem receive_eq_none_iff (sound : node.Sound) (env : InputEnv) (input : Input) :
    node.receive env input = none ↔ ¬ node.Harmless env input := by
  cases input with
  | data packet isData =>
    refine (receiveData_eq_none_iff sound packet).trans ?_
    simp [Harmless]
  | nic packet =>
    obtain ⟨left, harmless⟩ | ⟨sent, long⟩ := node.doForwardNicToPeers_cases env packet
    · refine iff_of_false (by simp [receive, left]) (not_not.mpr ?_)
      exact harmless.imp_right fun notFour cut => notFour cut.1.1
    · simp [receive, sent, sendMsgByIp_eq_none_iff sound long, Harmless, not_lt.mpr long,
        false_or, not_not]
  | portal packet registered =>
    simp only [receive, handlePortalPacket]
    split
    · rename_i short
      exact iff_of_false nofun (not_not.mpr (.inl short))
    · rename_i long
      -- the client's address is only read by the filter on the way back to it
      refine (sendMsgByIp_eq_none_iff (sound.withTable _) (not_lt.mp long)).trans ?_
      simp only [Harmless, long, false_or, not_not]
      exact .rfl
  | pong payload =>
    simp [receive, awaitPong_eq_none_iff, Harmless]

theorem receive_sound (sound : node.Sound) {env : InputEnv} {input : Input}
    (received : node.receive env input = some node') : node'.Sound := by
  cases input with
  | data packet isData => exact receiveData_sound sound received
  | nic packet =>
    obtain ⟨left, -⟩ | ⟨sent, -⟩ := node.doForwardNicToPeers_cases env packet
    · cases left.symm.trans received
      exact sound
    · exact sendMsgByIp_sound sound (sent.symm.trans received)
  | portal packet registered =>
    simp only [receive, handlePortalPacket] at received
    split at received
    · cases received
      exact sound
    · exact sendMsgByIp_sound (sound.withTable _) received
  | pong payload =>
    obtain ⟨pings, -, same⟩ := Option.map_eq_some_iff.mp received
    cases same
    exact ⟨sound.natKeyed, sound.cacheSound, sound.nodup⟩

/-- Putting another TCP proxy in its place keeps the tables in order. -/
theorem natKeyed_update {filters : Filters} (keyed : filters.NatKeyed) (transport : TransportType)
    {p : PeerTcpProxy} (keyed' : p.proxy.NatKeyed) :
    Filters.NatKeyed { filters with
      tcpProxies := Function.update filters.tcpProxies transport p } := by
  intro other
  by_cases here : other = transport
  · subst here
    simpa using keyed'
  · simpa [here] using keyed other

theorem accept_sound (sound : node.Sound) (transport : TransportType) (addr : SocketAddr) :
    (node.accept transport addr).Sound := by
  have keyed := sound.natKeyed transport
  unfold accept
  dsimp only
  split
  · exact sound
  · rename_i entry found
    refine ⟨natKeyed_update sound.natKeyed transport ⟨?_, ?_⟩, sound.cacheSound, sound.nodup⟩
    · intro key held conn
      obtain old | ⟨rfl, rfl⟩ := Best.lookup_insert_origin conn
      · exact keyed.conns key held old
      · exact ⟨rfl, (keyed.syns addr held found).2⟩
    · exact fun key held syn => keyed.syns key held (Best.lookup_erase_origin syn)

theorem forget_sound (sound : node.Sound) (transport : TransportType) (syn conn : SocketAddr) :
    (node.forget transport syn conn).Sound := by
  have keyed := sound.natKeyed transport
  refine ⟨natKeyed_update sound.natKeyed transport ⟨?_, ?_⟩, sound.cacheSound, sound.nodup⟩
  · exact fun key held found => keyed.conns key held (Best.lookup_erase_origin found)
  · exact fun key held found => keyed.syns key held (Best.lookup_erase_origin found)

theorem reload_sound (sound : node.Sound) (parseCidr : CidrParser) (acl : Option AclConfig) :
    (node.withAcl (node.mgr.aclFilter.reloadRules parseCidr acl)).Sound := by
  apply sound.withAcl
  cases acl with
  | none => exact sound.cacheSound
  | some acl => exact (AclProcessor.Twins.refl_of_empty rfl).sound

theorem run_sound (run : Run node) : node.Sound := by
  induction run with
  | fresh fresh =>
    refine ⟨fun transport => ⟨?_, ?_⟩, (AclProcessor.Twins.refl_of_empty fresh.cache).sound,
      fresh.nodup⟩
    · rw [fresh.conns]
      exact nofun
    · rw [fresh.syns]
      exact nofun
  | receive env input _ received ih => exact receive_sound ih received
  | accept transport addr _ ih => exact accept_sound ih transport addr
  | forget transport syn conn _ ih => exact forget_sound ih transport syn conn
  | acl event _ extracted stepped ih => exact ih.withAcl (ih.cacheSound.step extracted stepped)
  | reload parseCidr acl _ ih => exact reload_sound ih parseCidr acl
  | reconfigure _ change ih =>
    refine ⟨fun transport => ⟨?_, ?_⟩, ?_, change.nodup⟩
    · rw [change.conns]
      exact (ih.natKeyed transport).conns
    · rw [change.syns]
      exact (ih.natKeyed transport).syns
    · rw [change.acl]
      exact ih.cacheSound

end

/-- **Packets that crash no filter.** In every state that a node comes to, and for every
packet from a peer, from the NIC or a portal client, and every pong: the filters and the
ping task get through without a panic just if the input is harmless. -/
theorem receive_returns_iff {node : FilterNode} (run : Run node) (env : InputEnv) (input : Input) :
    (node.receive env input).isSome ↔ node.Harmless env input := by
  rw [Option.isSome_iff_ne_none, ne_eq, receive_eq_none_iff (run_sound run), not_not]

end FilterNode

/-! ## A node with every proxy -/

/-- A proxy on 10.0.0.1, which has no TUN device. -/
def sampleTcpProxy : PeerTcpProxy where
  proxy := ⟨8899, false, some ⟨0x0a000001, Inet.defaultLength⟩, ∅, ∅⟩
  config := ⟨⟨[], ∅⟩, false, true⟩
  smoltcpListenerTx := false

def sampleDatagramProxy : DatagramProxy :=
  ⟨some ⟨0x0a000001, Inet.defaultLength⟩, ⟨⟨[], ∅⟩, false, true⟩, ⟨∅⟩⟩

def sampleFilters : Filters where
  tcpProxies _ := sampleTcpProxy
  checkDstAllowKcpInput _ _ := true
  udpProxy := ⟨sampleDatagramProxy, ∅⟩
  icmpProxy := sampleDatagramProxy
  wgPeerIpTable := ∅
  socks5 := ⟨true, ∅, true⟩
  magicDns := ⟨0x64646465, 0x0a000001, none, none⟩
  peerPacketProcessPipeline := [.nicPacketProcessor, .peerRpcPacketProcessor, .peerRoute,
    .tcpProxy .kcp, .kcpEndpoint true, .kcpEndpoint false, .tcpProxy .quic, .tcpProxy .tcp,
    .icmpProxy, .udpProxy, .vpnPortal, .socks5]
  nicPacketProcessPipeline := [.tcpProxy, .kcpProxySrc, .quicProxySrc, .magicDns]

/-- Node 1 with one ping on its way. -/
def sampleNode : FilterNode := ⟨sampleManager .null none, sampleFilters, [9]⟩

def sampleInputEnv : InputEnv := { sampleSendEnv with spare := 0, udpSocketOpens := true }

theorem sampleNode_run : FilterNode.Run sampleNode :=
  .fresh ⟨fun _ => rfl, fun _ => rfl, rfl, by decide⟩

/-- An IPv4 packet from 10.0.0.2 to 10.0.0.1; `flags` and `offset` place a fragment. -/
def ipv4Bytes (protocol flags offset : UInt8) (body : Bytes) : Bytes :=
  [0x45, 0, 0, .ofNat (20 + body.length), 0, 0, flags, offset, 64, protocol, 0, 0,
    10, 0, 0, 2, 10, 0, 0, 1] ++ body

def dataFromPeer (payload : Bytes) : Input :=
  .data ((⟨⟨0, 0, 0, 0, 0, 0⟩, payload⟩ : ZCPacket).fillPeerManagerHdr 2 1 PacketType.data.code) rfl

/-- A whole UDP datagram goes through all filters, and the pong for ping 9 is read. -/
theorem whole_datagram_harmless :
    FilterNode.Run sampleNode ∧
      sampleNode.Harmless sampleInputEnv
        (dataFromPeer (ipv4Bytes 17 0 0 [0x13, 0x88, 0, 53, 0, 8, 0, 0])) ∧
      (sampleNode.receive sampleInputEnv (.pong [9, 0, 0, 0])).isSome :=
  ⟨sampleNode_run,
    (FilterNode.receive_returns_iff sampleNode_run sampleInputEnv _).mp (by decide +kernel),
    (FilterNode.receive_returns_iff sampleNode_run sampleInputEnv _).mpr (.inr (by decide))⟩

/-- An empty data packet crashes the SOCKS5 server, one with half a TCP header from the NIC
the KCP proxy, a pong of three bytes the ping; and so does the second of two fragments in the
UDP proxy, whose lengths add up although it lies behind the end. -/
theorem crafted_packets_crash :
    FilterNode.Run sampleNode ∧
      sampleNode.receive sampleInputEnv (dataFromPeer []) = none ∧
      sampleNode.receive sampleInputEnv
        (.nic ⟨⟨0, 0, 0, 0, 0, 0⟩, ipv4Bytes 6 0 0 (.replicate 10 0)⟩) = none ∧
      sampleNode.receive sampleInputEnv (.pong [9, 0, 0]) = none ∧
      ∃ node, sampleNode.receive sampleInputEnv
          (dataFromPeer (ipv4Bytes 17 0 1 (.replicate 8 0))) = some node ∧
        node.receive sampleInputEnv (dataFromPeer (ipv4Bytes 17 0x20 125 (.replicate 8 0))) =
          none := by
  simp only [← Option.isNone_iff_eq_none, ← Option.mem_def]
  exact ⟨sampleNode_run, by decide +kernel⟩

end PeerLink.Manager
