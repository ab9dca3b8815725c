import PeerLink.Best.Keep
import PeerLink.Gateway.Malformed
import PeerLink.Gateway.PeerFilter

/-!
# The pipeline for packets from peers

The filters of a node, named by what they belong to, since a TCP proxy stands in both
pipelines with one state. A packet from a peer runs through them, the newest first, until
one of them takes it.
-/

namespace PeerLink.Gateway

open Packet

inductive PeerFilterId where
  | nicPacketProcessor
  | peerRpcPacketProcessor
  | peerRoute
  | tcpProxy (transport : TransportType)
  | udpProxy
  | icmpProxy
  | kcpEndpoint (isSrc : Bool)
  | vpnPortal
  | socks5
  deriving DecidableEq

inductive NicFilterId where
  | tcpProxy
  | kcpProxySrc
  | quicProxySrc
  | magicDns

/-- The filters of a node, and the order in which they were added. -/
structure Filters where
  tcpProxies : TransportType → PeerTcpProxy
  checkDstAllowKcpInput : TransportType → Ipv4Addr → Bool
  udpProxy : UdpProxy
  icmpProxy : DatagramProxy
  wgPeerIpTable : Finset Ipv4Addr
  socks5 : Socks5Server
  magicDns : MagicDns
  peerPacketProcessPipeline : List PeerFilterId
  nicPacketProcessPipeline : List NicFilterId

/-- What a filter meets besides its state. -/
structure FilterEnv where
  sums : Checksums
  udpSocketOpens : Bool

namespace Filters

/-- The packet types that are remote calls. -/
def isRpc (packet : ZCPacket) : Bool :=
  packet.header.packetType == PacketType.taRpc.code ||
    packet.header.packetType == PacketType.rpcReq.code ||
    packet.header.packetType == PacketType.rpcResp.code

def tryProcessPacketFromPeer (g : Filters) (env : FilterEnv) (packet : ZCPacket) :
    PeerFilterId → Option (PeerOutcome × Filters)
  | .nicPacketProcessor =>
    some (if packet.header.packetType = PacketType.data.code then .toNic packet else .passed, g)
  | .peerRpcPacketProcessor => some (if isRpc packet then .taken else .passed, g)
  | .peerRoute => some (.passed, g)
  | .tcpProxy transport =>
    ((g.tcpProxies transport).tryProcessPacketFromPeer transport env.sums packet).map
      fun (out, p) => (out, { g with tcpProxies := Function.update g.tcpProxies transport p })
  | .udpProxy =>
    (g.udpProxy.tryProcessPacketFromPeer env.udpSocketOpens packet).map
      fun (out, p) => (out, { g with udpProxy := p })
  | .icmpProxy =>
    (IcmpProxy.tryProcessPacketFromPeer g.icmpProxy packet).map
      fun (out, p) => (out, { g with icmpProxy := p })
  | .kcpEndpoint isSrc =>
    let mine := if isSrc then PacketType.kcpDst else PacketType.kcpSrc
    some (if packet.header.packetType = mine.code then .taken else .passed, g)
  | .vpnPortal => some (VpnPortal.tryProcessPacketFromPeer g.wgPeerIpTable packet, g)
  | .socks5 => (g.socks5.tryProcessPacketFromPeer packet).map (·, g)

/-- The loop over the pipeline; a packet that no filter takes is dropped. -/
def runPeerFilters (env : FilterEnv) (packet : ZCPacket) :
    List PeerFilterId → Filters → Option (PeerOutcome × Filters)
  | [], g => some (.passed, g)
  | id :: rest, g =>
    match g.tryProcessPacketFromPeer env packet id with
    | none => none
    | some (.passed, g) => runPeerFilters env packet rest g
    | some (out, g) => some (out, g)

def processPacketFromPeer (g : Filters) (env : FilterEnv) (packet : ZCPacket) :
    Option (PeerOutcome × Filters) :=
  runPeerFilters env packet g.peerPacketProcessPipeline.reverse g

/-! ## Which data packets crash the pipeline -/

/-- The packet makes the filter panic. -/
def Crashes (g : Filters) (packet : ZCPacket) : PeerFilterId → Prop
  | .tcpProxy transport => (g.tcpProxies transport).Crashes transport packet
  | .udpProxy => g.udpProxy.proxy.Crashes PROTOCOL_UDP packet
  | .icmpProxy => g.icmpProxy.Crashes PROTOCOL_ICMP packet
  | .socks5 => g.socks5.Crashes packet
  | _ => False

/-- The filter keeps the packet from the filters after it. -/
def Takes (g : Filters) (env : FilterEnv) (packet : ZCPacket) : PeerFilterId → Prop
  | .nicPacketProcessor => packet.header.packetType = PacketType.data.code
  | .peerRpcPacketProcessor => isRpc packet
  | .peerRoute => False
  | .tcpProxy transport => (g.tcpProxies transport).Takes transport packet
  | .udpProxy => g.udpProxy.Takes env.udpSocketOpens packet
  | .icmpProxy => IcmpProxy.Takes g.icmpProxy packet
  | .kcpEndpoint isSrc =>
    packet.header.packetType = (if isSrc then PacketType.kcpDst else PacketType.kcpSrc).code
  | .vpnPortal => VpnPortal.Takes g.wgPeerIpTable packet
  | .socks5 => g.socks5.Takes packet

/-- A filter that the packet comes to panics. -/
def Harms (g : Filters) (env : FilterEnv) (packet : ZCPacket) : List PeerFilterId → Prop
  | [] => False
  | id :: rest => g.Crashes packet id ∨ ¬ g.Takes env packet id ∧ g.Harms env packet rest

variable {p : PeerTcpProxy} {packet : ZCPacket} {out : PeerOutcome} {g g' : Filters}
  {env : FilterEnv}

theorem behaves_ite {σ : Type} (out : PeerOutcome) (kept : out ≠ .passed) (s : σ) (takes : Prop)
    [Decidable takes] : Behaves (some (if takes then out else .passed, s)) False takes := by
  split_ifs with taken
  · exact behaves_taken s id kept taken
  · exact behaves_passed s id taken

theorem tryProcessPacketFromPeer_behaves (g : Filters) (env : FilterEnv) (packet : ZCPacket)
    (id : PeerFilterId) :
    Behaves (g.tryProcessPacketFromPeer env packet id) (g.Crashes packet id)
      (g.Takes env packet id) := by
  cases id with
  | nicPacketProcessor => exact behaves_ite (.toNic packet) nofun g _
  | peerRpcPacketProcessor => exact behaves_ite .taken nofun g _
  | peerRoute => exact behaves_passed g not_false not_false
  | tcpProxy transport =>
    exact ((g.tcpProxies transport).tryProcessPacketFromPeer_behaves transport packet env.sums).map
      fun p => { g with tcpProxies := Function.update g.tcpProxies transport p }
  | udpProxy =>
    exact (g.udpProxy.tryProcessPacketFromPeer_behaves env.udpSocketOpens packet).map
      fun p => { g with udpProxy := p }
  | icmpProxy =>
    exact (IcmpProxy.tryProcessPacketFromPeer_behaves g.icmpProxy packet).map
      fun p => { g with icmpProxy := p }
  | kcpEndpoint isSrc => exact behaves_ite .taken nofun g _
  | vpnPortal =>
    exact (VpnPortal.tryProcessPacketFromPeer_behaves g.wgPeerIpTable packet).map fun _ => g
  | socks5 =>
    have behaves := (g.socks5.tryProcessPacketFromPeer_behaves packet).map fun _ => g
    rw [Option.map_map] at behaves
    exact behaves

/-- The state that the filter works on is the same. -/
def Agrees (g g' : Filters) : PeerFilterId → Prop
  | .tcpProxy transport => g'.tcpProxies transport = g.tcpProxies transport
  | .udpProxy => g'.udpProxy = g.udpProxy
  | .icmpProxy => g'.icmpProxy = g.icmpProxy
  | .vpnPortal => g'.wgPeerIpTable = g.wgPeerIpTable
  | .socks5 => g'.socks5 = g.socks5
  | _ => True

variable {id : PeerFilterId}

theorem Agrees.refl (g : Filters) (id : PeerFilterId) : g.Agrees g id := by
  cases id <;> first | exact rfl | trivial

theorem Agrees.crashes_iff (agrees : g.Agrees g' id) :
    g'.Crashes packet id ↔ g.Crashes packet id := by
  cases id <;> simp only [Agrees] at agrees <;> simp [Crashes, agrees]

theorem Agrees.takes_iff (agrees : g.Agrees g' id) :
    g'.Takes env packet id ↔ g.Takes env packet id := by
  cases id <;> simp only [Agrees] at agrees <;> simp [Takes, agrees]

theorem harms_congr {ids : List PeerFilterId} (agrees : ∀ id ∈ ids, g.Agrees g' id) :
    g'.Harms env packet ids ↔ g.Harms env packet ids := by
  induction ids with
  | nil => exact .rfl
  | cons id rest ih =>
    have here := agrees id List.mem_cons_self
    simp [Harms, here.crashes_iff, here.takes_iff,
      ih fun id mem => agrees id (List.mem_cons_of_mem _ mem)]

/-- A filter changes no state but its own. -/
theorem tryProcessPacketFromPeer_agrees
    (processed : g.tryProcessPacketFromPeer env packet id = some (out, g')) {other : PeerFilterId}
    (different : other ≠ id) : g.Agrees g' other := by
  cases id with
  | nicPacketProcessor | peerRpcPacketProcessor | peerRoute | kcpEndpoint | vpnPortal =>
    cases processed
    exact .refl g other
  | tcpProxy transport =>
    obtain ⟨⟨_, p⟩, -, same⟩ := Option.map_eq_some_iff.mp processed
    cases same
    cases other with
    | tcpProxy transport' =>
      exact Function.update_of_ne (fun same => different (congrArg PeerFilterId.tcpProxy same)) p
        g.tcpProxies
    | _ => first | exact rfl | trivial
  | udpProxy =>
    obtain ⟨⟨_, p⟩, -, same⟩ := Option.map_eq_some_iff.mp processed
    cases same
    cases other with
    | udpProxy => exact absurd rfl different
    | _ => first | exact rfl | trivial
  | icmpProxy =>
    obtain ⟨⟨_, p⟩, -, same⟩ := Option.map_eq_some_iff.mp processed
    cases same
    cases other with
    | icmpProxy => exact absurd rfl different
    | _ => first | exact rfl | trivial
  | socks5 =>
    obtain ⟨_, -, same⟩ := Option.map_eq_some_iff.mp processed
    cases same
    exact .refl g other

/-- **Packets from peers.** The pipeline panics just if one of the filters that the packet
comes to panics on it. -/
theorem runPeerFilters_eq_none_iff {ids : List PeerFilterId} (nodup : ids.Nodup) :
    runPeerFilters env packet ids g = none ↔ g.Harms env packet ids := by
  induction ids generalizing g with
  | nil => simp [runPeerFilters, Harms]
  | cons id rest ih =>
    obtain ⟨fresh, nodup⟩ := List.nodup_cons.mp nodup
    have behaves := g.tryProcessPacketFromPeer_behaves env packet id
    unfold runPeerFilters Harms
    cases processed : g.tryProcessPacketFromPeer env packet id with
    | none => simp [behaves.panics_iff.mp processed]
    | some result =>
      obtain ⟨out, g'⟩ := result
      have fine : ¬ g.Crashes packet id := fun crashes => by
        rw [behaves.panics_iff.mpr crashes] at processed
        cases processed
      have passed := behaves.passed_iff out g' processed
      have same : g'.Harms env packet rest ↔ g.Harms env packet rest :=
        harms_congr fun other mem =>
          tryProcessPacketFromPeer_agrees processed fun eq => fresh (eq ▸ mem)
      cases out with
      | passed => simp [fine, passed.mp rfl, ih nodup, same]
      | toNic | toStack | toPortalClient | taken => simp_all

/-! ## The tables of the TCP proxies -/

/-- The tables of all TCP proxies hold what the asserts expect. -/
def NatKeyed (g : Filters) : Prop := ∀ transport, (g.tcpProxies transport).proxy.NatKeyed

theorem noteSyn_natKeyed (keyed : p.proxy.NatKeyed) (transport : TransportType)
    (data : Bytes) : (p.noteSyn transport data).proxy.NatKeyed where
  conns := keyed.conns
  syns addr entry found := by
    obtain old | ⟨rfl, rfl⟩ := Best.lookup_insert_origin found
    · exact keyed.syns addr entry old
    · exact ⟨rfl, _, rfl⟩

theorem tcpProxy_natKeyed {p' : PeerTcpProxy} (keyed : p.proxy.NatKeyed)
    {transport : TransportType} {sums : Checksums}
    (processed : p.tryProcessPacketFromPeer transport sums packet = some (out, p')) :
    p'.proxy.NatKeyed := by
  unfold PeerTcpProxy.tryProcessPacketFromPeer at processed
  cases located : p.proxy.getLocalInet with
  | none =>
    rw [located] at processed
    cases processed
    exact keyed
  | some inet =>
    rw [located] at processed
    dsimp only at processed
    split at processed
    · cases processed
      exact keyed
    · split at processed
      · cases processed
      · split at processed
        · split at processed
          · cases processed
          · cases processed
            exact noteSyn_natKeyed keyed transport packet.payload
        · split at processed <;> cases processed <;> exact keyed

/-- What the pipeline does not touch, and that it keeps the tables in order. -/
structure Keeps (g g' : Filters) : Prop where
  natKeyed : g.NatKeyed → g'.NatKeyed
  peerPipeline : g'.peerPacketProcessPipeline = g.peerPacketProcessPipeline

theorem tryProcessPacketFromPeer_keeps
    (processed : g.tryProcessPacketFromPeer env packet id = some (out, g')) : g.Keeps g' := by
  cases id with
  | nicPacketProcessor | peerRpcPacketProcessor | peerRoute | kcpEndpoint | vpnPortal =>
    cases processed
    exact ⟨fun keyed => keyed, rfl⟩
  | udpProxy | icmpProxy | socks5 =>
    obtain ⟨_, -, same⟩ := Option.map_eq_some_iff.mp processed
    cases same
    exact ⟨fun keyed => keyed, rfl⟩
  | tcpProxy transport =>
    obtain ⟨⟨_, p⟩, answered, same⟩ := Option.map_eq_some_iff.mp processed
    cases same
    refine ⟨fun keyed other => ?_, rfl⟩
    by_cases here : other = transport
    · subst here
      simpa using tcpProxy_natKeyed (keyed other) answered
    · simpa [here] using keyed other

theorem runPeerFilters_keeps {ids : List PeerFilterId}
    (processed : runPeerFilters env packet ids g = some (out, g')) : g.Keeps g' := by
  induction ids generalizing g with
  | nil =>
    cases processed
    exact ⟨fun keyed => keyed, rfl⟩
  | cons id rest ih =>
    unfold runPeerFilters at processed
    split at processed
    · cases processed
    · rename_i mid passed
      have first := tryProcessPacketFromPeer_keeps passed
      have later := ih processed
      exact ⟨later.natKeyed ∘ first.natKeyed, later.peerPipeline.trans first.peerPipeline⟩
    · rename_i taken
      cases processed
      exact tryProcessPacketFromPeer_keeps taken

/-! ## The filters on packets from the NIC -/

def nicFilter (g : Filters) : NicFilterId → NicFilter
  | .tcpProxy => .tcpProxy (g.tcpProxies .tcp).proxy
  | .kcpProxySrc => .srcProxy ⟨(g.tcpProxies .kcp).proxy, .kcp, g.checkDstAllowKcpInput .kcp⟩
  | .quicProxySrc => .srcProxy ⟨(g.tcpProxies .quic).proxy, .quic, g.checkDstAllowKcpInput .quic⟩
  | .magicDns => .magicDns g.magicDns

def nicFilters (g : Filters) : List NicFilter := g.nicPacketProcessPipeline.map g.nicFilter

/-- One of the filters reads the TCP header of the packet: the KCP and QUIC proxies of every
packet, the TCP proxy of those from its own address. -/
def ReadsTcp (g : Filters) (data : Bytes) : Prop :=
  .kcpProxySrc ∈ g.nicPacketProcessPipeline ∨ .quicProxySrc ∈ g.nicPacketProcessPipeline ∨
    .tcpProxy ∈ g.nicPacketProcessPipeline ∧
      (g.tcpProxies .tcp).proxy.getLocalInet.map (·.address) = some (Ipv4Packet.source data)

/-- An IPv4 packet whose TCP header is cut short. -/
def CutTcp (data : Bytes) : Prop :=
  Ipv4Packet.version data = 4 ∧ Ipv4Packet.nextLevelProtocol data = PROTOCOL_TCP ∧
    (Ipv4Packet.payload data).length < 20

theorem nicFilters_natKeyed (keyed : g.NatKeyed) : ∀ f ∈ g.nicFilters, f.NatKeyed := by
  intro f mem
  obtain ⟨id, -, rfl⟩ := List.mem_map.mp mem
  cases id with
  | tcpProxy => exact keyed .tcp
  | kcpProxySrc => exact keyed .kcp
  | quicProxySrc => exact keyed .quic
  | magicDns => trivial

/-- A packet with an IPv4 header crashes the filters that read its TCP header. -/
theorem nicFilters_crash_iff (g : Filters) {data : Bytes}
    (long : Ipv4Packet.minimumPacketSize ≤ data.length) :
    (∃ f ∈ g.nicFilters, f.Crashes data) ↔ CutTcp data ∧ g.ReadsTcp data := by
  have malformed : Malformed data ↔ CutTcp data := or_iff_right (not_lt.mpr long)
  have tcp : (g.nicFilter .tcpProxy).Crashes data ↔ CutTcp data ∧
      (g.tcpProxies .tcp).proxy.getLocalInet.map (·.address) = some (Ipv4Packet.source data) := by
    simp only [nicFilter, NicFilter.Crashes, TcpProxy.NicCrashes, not_lt.mpr long, false_or,
      Option.map_eq_some_iff, CutTcp]
    grind
  have dns : ¬ (g.nicFilter .magicDns).Crashes data := not_lt.mpr long
  simp only [nicFilters, List.mem_map, exists_exists_and_eq_and]
  constructor
  · rintro ⟨id, mem, crashes⟩
    cases id with
    | tcpProxy => exact ⟨(tcp.mp crashes).1, .inr (.inr ⟨mem, (tcp.mp crashes).2⟩)⟩
    | kcpProxySrc => exact ⟨malformed.mp crashes, .inl mem⟩
    | quicProxySrc => exact ⟨malformed.mp crashes, .inr (.inl mem)⟩
    | magicDns => exact absurd crashes dns
  · rintro ⟨cut, kcp | quic | ⟨mem, mine⟩⟩
    · exact ⟨_, kcp, malformed.mpr cut⟩
    · exact ⟨_, quic, malformed.mpr cut⟩
    · exact ⟨_, mem, tcp.mpr ⟨cut, mine⟩⟩

end Filters

end PeerLink.Gateway
