import PeerLink.Gateway.Reassembler

/-!
# Filters on packets from peers

The filters that a packet for the node runs through, each with its own parsing of the
payload: the proxies, the WireGuard portal, the SOCKS5 server and the built-in ends of the
pipeline. A filter passes the packet on as it came, or takes it. `none` is a panic.
-/

namespace PeerLink.Gateway

open Packet

open Route (PeerId)

/-- What becomes of a packet in a filter. -/
inductive PeerOutcome where
  | passed
  | toNic (packet : ZCPacket)
  /-- To the user space network stack of a proxy. -/
  | toStack (packet : ZCPacket)
  | toPortalClient (payload : Bytes)
  | taken

/-! ## Proxied networks -/

/-- `CidrSet`: the networks that the node proxies, and the real networks behind mapped
ones. -/
structure CidrSet where
  cidrSet : List (Inet 32)
  mappedToReal : AList fun _ : Inet 32 => Inet 32

namespace CidrSet

def inCidr (cidr : Inet 32) (ip : Ipv4Addr) : Bool := ip &&& ~~~cidr.hostMask == cidr.firstAddress

/-- The real address behind `ip` if a network of the set has it. -/
def containsV4 (set : CidrSet) (ip : Ipv4Addr) : Option Ipv4Addr :=
  (set.cidrSet.find? (inCidr · ip)).map fun cidr =>
    match set.mappedToReal.lookup cidr with
    | some real => (ip &&& cidr.hostMask) ||| real.firstAddress
    | none => ip

end CidrSet

/-- What the proxies read of the node's configuration. -/
structure ProxyConfig where
  cidrSet : CidrSet
  enableExitNode : Bool
  noTun : Bool

namespace ProxyConfig

variable (config : ProxyConfig)

def isActive : Bool :=
  !config.cidrSet.cidrSet.isEmpty || config.enableExitNode || config.noTun

def isOwn (ipv4 : Option (Inet 32)) (dst : Ipv4Addr) : Bool :=
  config.noTun && some dst == ipv4.map (·.address)

def proxies (ipv4 : Option (Inet 32)) (hdr : PeerManagerHeader) (dst : Ipv4Addr) : Bool :=
  (config.cidrSet.containsV4 dst).isSome || hdr.isExitNode || config.isOwn ipv4 dst

/-- Where a packet for `dst` goes in the end. -/
def realDstIp (dst : Ipv4Addr) : Ipv4Addr :=
  (config.cidrSet.containsV4 dst).getD dst

end ProxyConfig

/-- A data packet with an IPv4 header that carries the protocol and asks for a proxy. -/
def isProxyInput (protocol : Nat) (packet : ZCPacket) : Bool :=
  packet.header.packetType == PacketType.data.code && !packet.header.isNoProxy &&
    Ipv4Packet.minimumPacketSize ≤ packet.payload.length &&
    Ipv4Packet.version packet.payload == 4 &&
    Ipv4Packet.nextLevelProtocol packet.payload == protocol

/-! ## The TCP proxies -/

/-- A TCP proxy with what only its peer side reads. -/
structure PeerTcpProxy where
  proxy : TcpProxy
  config : ProxyConfig
  /-- Set when smoltcp has started. -/
  smoltcpListenerTx : Bool

namespace PeerTcpProxy

variable (p : PeerTcpProxy) (transport : TransportType)

def checkPacketFromPeerFast : TransportType → Bool
  | .tcp => p.config.isActive
  | .kcp | .quic => true

def checkPacketFromPeer (hdr : PeerManagerHeader) (dst : Ipv4Addr) : TransportType → Bool
  | .tcp => p.config.proxies p.proxy.ipv4 hdr dst
  | .kcp => hdr.fromPeerId == hdr.toPeerId && hdr.isKcpSrcModified
  | .quic => hdr.fromPeerId == hdr.toPeerId && !hdr.isKcpSrcModified

/-- Only the connector of the TCP proxy looks for a real address. -/
def realDstIp (p : PeerTcpProxy) (dst : Ipv4Addr) : TransportType → Ipv4Addr
  | .tcp => p.config.realDstIp dst
  | .kcp | .quic => dst

/-- The checks before the proxy looks at the TCP header. -/
def concerns (packet : ZCPacket) : Bool :=
  p.checkPacketFromPeerFast transport && isProxyInput PROTOCOL_TCP packet &&
    p.checkPacketFromPeer packet.header (Ipv4Packet.destination packet.payload) transport

def srcOf (data : Bytes) : SocketAddr :=
  (.v4 (Ipv4Packet.source data), sourcePort (Ipv4Packet.payload data))

/-- A connection starts: the proxy notes where it goes. -/
def noteSyn (data : Bytes) : PeerTcpProxy :=
  let dst := Ipv4Packet.destination data
  let port := destinationPort (Ipv4Packet.payload data)
  let entry : NatDstEntry :=
    ⟨srcOf data, (.v4 (p.realDstIp dst transport), port), (.v4 dst, port)⟩
  { p with proxy := { p.proxy with synMap := p.proxy.synMap.insert (srcOf data) entry } }

/-- The packet as the local listener is to see it. -/
def rewritePacket (sums : Checksums) (inet : Inet 32) (packet : ZCPacket) : ZCPacket :=
  let data := packet.payload
  let data :=
    if !p.proxy.enableSmoltcp && Ipv4Packet.source data == inet.address then
      setSource data (TcpProxy.getFakeLocalIpv4 inet)
    else
      data
  let data := setDestination data inet.address
  let source := Ipv4Packet.source data
  { packet with
    payload := updateIpPacketChecksum sums
      (setPort data 2 p.proxy.localPort 16 (sums.tcp · source inet.address)) }

/-- The packet with its listener, once the proxy has taken it. -/
def handOver (sums : Checksums) (inet : Inet 32) (packet : ZCPacket) : PeerOutcome :=
  let packet := p.rewritePacket sums inet packet
  if p.proxy.enableSmoltcp then .toStack packet else .toNic packet

/-- `try_handle_peer_packet` and what follows it. -/
def tryProcessPacketFromPeer (sums : Checksums) (packet : ZCPacket) :
    Option (PeerOutcome × PeerTcpProxy) :=
  match p.proxy.getLocalInet with
  | none => some (.passed, p)
  | some inet =>
    if !p.concerns transport packet then
      some (.passed, p)
    else
      let segment := Ipv4Packet.payload packet.payload
      if segment.length < 20 then
        none
      else if TcpProxyForSrc.isSyn segment then
        -- a listener for the connection is added, which unwraps the channel
        if p.proxy.enableSmoltcp && !p.smoltcpListenerTx then
          none
        else
          some (p.handOver sums inet packet, p.noteSyn transport packet.payload)
      else if p.proxy.isTcpProxyConnection (srcOf packet.payload) then
        some (p.handOver sums inet packet, p)
      else
        some (.passed, p)

end PeerTcpProxy

/-! ## The UDP and ICMP proxies -/

/-- What the UDP and the ICMP proxy have in common. -/
structure DatagramProxy where
  ipv4 : Option (Inet 32)
  config : ProxyConfig
  ipResemmbler : IpReassembler

namespace DatagramProxy

/-- The checks before the proxy looks at the payload. -/
def concerns (p : DatagramProxy) (protocol : Nat) (packet : ZCPacket) : Bool :=
  p.config.isActive && p.ipv4.isSome && isProxyInput protocol packet &&
    p.config.proxies p.ipv4 packet.header (Ipv4Packet.destination packet.payload)

/-- The datagram that the packet completes, if it does. -/
def datagram (p : DatagramProxy) (data : Bytes) : Option (Option Bytes × DatagramProxy) :=
  if IpReassembler.isPacketFragmented data then
    (p.ipResemmbler.addFragment data).map fun (buf, r) => (buf, { p with ipResemmbler := r })
  else
    some (some (Ipv4Packet.payload data), p)

end DatagramProxy

structure UdpProxy where
  proxy : DatagramProxy
  natTable : Finset SocketAddr

/-- `socketOpens` is whether the system has a socket for a new entry. -/
def UdpProxy.tryProcessPacketFromPeer (p : UdpProxy) (socketOpens : Bool) (packet : ZCPacket) :
    Option (PeerOutcome × UdpProxy) :=
  if !p.proxy.concerns PROTOCOL_UDP packet then
    some (.passed, p)
  else
    match p.proxy.datagram packet.payload with
    | none => none
    | some (none, proxy) => some (.passed, { p with proxy })
    | some (some buf, proxy) =>
      let p := { p with proxy }
      let natKey : SocketAddr := (.v4 (Ipv4Packet.source packet.payload), sourcePort buf)
      if buf.length < 8 then
        some (.passed, p)
      else if natKey ∈ p.natTable ∨ socketOpens then
        some (.taken, { p with natTable := insert natKey p.natTable })
      else
        some (.passed, p)

/-- `send_icmp_reply_to_peer`: the reply gets a buffer with room for one IP header. -/
def sendIcmpReplyToPeer (icmpLen : Nat) : Option (List (Nat × Nat)) :=
  let bufLen := icmpLen + 20
  if bufLen - 20 < 8 then none else composeIpv4Packet bufLen (bufLen - 20) 1200

def IcmpProxy.tryProcessPacketFromPeer (p : DatagramProxy) (packet : ZCPacket) :
    Option (PeerOutcome × DatagramProxy) :=
  if !p.concerns PROTOCOL_ICMP packet then
    some (.passed, p)
  else
    match p.datagram packet.payload with
    | none => none
    | some (none, p) => some (.passed, p)
    | some (some buf, p) =>
      if buf.length < 8 ∨ field buf 0 1 ≠ 8 then
        some (.passed, p)
      else if p.config.isOwn p.ipv4 (Ipv4Packet.destination packet.payload) then
        (sendIcmpReplyToPeer buf.length).map fun _ => (.taken, p)
      else
        some (.taken, p)

/-! ## The SOCKS5 server and the WireGuard portal -/

structure Socks5Entry where
  src : SocketAddr
  dst : SocketAddr
  isTcp : Bool
  deriving DecidableEq

structure Socks5Server where
  hasCancelTokens : Bool
  entries : Finset Socks5Entry
  socks5Enabled : Bool

namespace Socks5Server

variable (s : Socks5Server)

def isActive : Bool :=
  s.hasCancelTokens || decide (s.entries ≠ ∅) || s.socks5Enabled

/-- The entry of a packet that comes back to a proxied connection. -/
def entryOf (data : Bytes) (isTcp : Bool) : Socks5Entry :=
  let segment := Ipv4Packet.payload data
  { dst := (.v4 (Ipv4Packet.source data), sourcePort segment)
    src := (.v4 (Ipv4Packet.destination data), destinationPort segment)
    isTcp }

/-- What follows the parsing of a transport header of at least `least` bytes. -/
def matchEntry (least : Nat) (isTcp : Bool) (packet : ZCPacket) : Option PeerOutcome :=
  if (Ipv4Packet.payload packet.payload).length < least then
    none
  else if entryOf packet.payload isTcp ∈ s.entries then
    some (.toStack packet)
  else
    some .passed

def tryProcessPacketFromPeer (packet : ZCPacket) : Option PeerOutcome :=
  let data := packet.payload
  if !s.isActive || packet.header.packetType != PacketType.data.code then
    some .passed
  else if data.length < Ipv4Packet.minimumPacketSize then
    none
  else if Ipv4Packet.version data ≠ 4 then
    some .passed
  else if Ipv4Packet.nextLevelProtocol data = PROTOCOL_TCP then
    s.matchEntry 20 true packet
  else if Ipv4Packet.nextLevelProtocol data = PROTOCOL_UDP then
    -- a fragment goes to the stack and on to the NIC, since its port is not known
    if IpReassembler.isPacketFragmented data ∧ s.entries ≠ ∅ then
      some .passed
    else
      s.matchEntry 8 false packet
  else
    some .passed

end Socks5Server

/-- A payload too short for an IPv4 header ends here. -/
def VpnPortal.tryProcessPacketFromPeer (wgPeerIpTable : Finset Ipv4Addr) (packet : ZCPacket) :
    PeerOutcome :=
  let data := packet.payload
  if packet.header.packetType ≠ PacketType.data.code then
    .passed
  else if data.length < Ipv4Packet.minimumPacketSize then
    .taken
  else if Ipv4Packet.version data = 4 ∧ Ipv4Packet.destination data ∈ wgPeerIpTable then
    .toPortalClient data
  else
    .passed

/-! ## Which packets crash a filter -/

/-- A filter panics if `crashes`, and otherwise keeps the packet if `takes`. -/
structure Behaves {σ : Type} (result : Option (PeerOutcome × σ)) (crashes takes : Prop) : Prop where
  panics_iff : result = none ↔ crashes
  passed_iff : ∀ out s, result = some (out, s) → (out = .passed ↔ ¬ takes)

section
variable {σ : Type} {crashes takes : Prop}

theorem behaves_none (crash : crashes) : Behaves (none : Option (PeerOutcome × σ)) crashes takes :=
  ⟨iff_of_true rfl crash, by simp⟩

theorem behaves_passed (s : σ) (fine : ¬ crashes) (passes : ¬ takes) :
    Behaves (some (.passed, s)) crashes takes :=
  ⟨iff_of_false nofun fine, fun _ _ same => by cases same; simp [passes]⟩

theorem behaves_taken {out : PeerOutcome} (s : σ) (fine : ¬ crashes) (kept : out ≠ .passed)
    (taken : takes) : Behaves (some (out, s)) crashes takes :=
  ⟨iff_of_false nofun fine, fun _ _ same => by cases same; simp [kept, taken]⟩

theorem Behaves.map {τ : Type} {result : Option (PeerOutcome × σ)}
    (behaves : Behaves result crashes takes) (f : σ → τ) :
    Behaves (result.map fun (out, s) => (out, f s)) crashes takes where
  panics_iff := Option.map_eq_none_iff.trans behaves.panics_iff
  passed_iff out s same := by
    obtain ⟨⟨out', s'⟩, found, eq⟩ := Option.map_eq_some_iff.mp same
    cases eq
    exact behaves.passed_iff _ _ found

end

namespace PeerTcpProxy
variable (p : PeerTcpProxy) (transport : TransportType) (packet : ZCPacket)

/-- The proxy is set up and the packet is one for it. -/
def Addressed : Prop := p.proxy.getLocalInet.isSome ∧ p.concerns transport packet

/-- The TCP header is cut short, or smoltcp is to take a connection before it has started. -/
def Crashes : Prop :=
  p.Addressed transport packet ∧
    ((Ipv4Packet.payload packet.payload).length < 20 ∨
      TcpProxyForSrc.isSyn (Ipv4Packet.payload packet.payload) ∧ p.proxy.enableSmoltcp ∧
        ¬ p.smoltcpListenerTx)

/-- The packet starts a connection or belongs to one. -/
def Takes : Prop :=
  p.Addressed transport packet ∧
    (TcpProxyForSrc.isSyn (Ipv4Packet.payload packet.payload) ∨
      p.proxy.isTcpProxyConnection (srcOf packet.payload))

theorem handOver_ne_passed (sums : Checksums) (inet : Inet 32) :
    p.handOver sums inet packet ≠ .passed := by
  unfold handOver
  split <;> nofun

theorem tryProcessPacketFromPeer_behaves (sums : Checksums) :
    Behaves (p.tryProcessPacketFromPeer transport sums packet) (p.Crashes transport packet)
      (p.Takes transport packet) := by
  have kept := p.handOver_ne_passed packet sums
  unfold tryProcessPacketFromPeer Crashes Takes Addressed
  cases located : p.proxy.getLocalInet with
  | none => exact behaves_passed p (by simp) (by simp)
  | some inet =>
    dsimp only
    split
    · rename_i other
      exact behaves_passed p (by simp_all) (by simp_all)
    · rename_i concerned
      split
      · rename_i short
        exact behaves_none (by simp_all)
      · rename_i whole
        split
        · rename_i syn
          split
          · rename_i unready
            exact behaves_none (by simp_all)
          · rename_i ready
            exact behaves_taken _ (by simp_all) (kept inet) (by simp_all)
        · rename_i later
          split
          · rename_i known
            exact behaves_taken _ (by simp_all) (kept inet) (by simp_all)
          · rename_i unknown
            exact behaves_passed p (by simp_all) (by simp_all)

end PeerTcpProxy

namespace DatagramProxy

variable (p : DatagramProxy)

/-- The fragment completes a packet that does not hold together. -/
def Crashes (protocol : Nat) (packet : ZCPacket) : Prop :=
  p.concerns protocol packet ∧ IpReassembler.isPacketFragmented packet.payload ∧
    p.ipResemmbler.Bursts packet.payload

/-- The packet, with the fragments before it, makes up the datagram. -/
def Completes (data buf : Bytes) : Prop :=
  if IpReassembler.isPacketFragmented data then
    (p.ipResemmbler.addFragment data).bind (·.1) = some buf
  else
    Ipv4Packet.payload data = buf

theorem datagram_eq_none_iff (data : Bytes) :
    p.datagram data = none ↔
      IpReassembler.isPacketFragmented data ∧ p.ipResemmbler.Bursts data := by
  unfold datagram
  rw [← IpReassembler.addFragment_eq_none_iff]
  split <;> simp_all

theorem datagram_fst {p p' : DatagramProxy} {data : Bytes} {buf : Option Bytes}
    (read : p.datagram data = some (buf, p')) (whole : Bytes) :
    p.Completes data whole ↔ buf = some whole := by
  unfold datagram at read
  unfold Completes
  split_ifs at read with fragmented
  · obtain ⟨⟨buf', r⟩, added, same⟩ := Option.map_eq_some_iff.mp read
    cases same
    simp [fragmented, added]
  · cases read
    simp [fragmented]

/-- What both proxies do before they look at a datagram. -/
theorem behaves {σ : Type} (p : DatagramProxy) (protocol : Nat) (packet : ZCPacket) {unread : σ}
    {waiting : DatagramProxy → σ} {handle : Bytes → DatagramProxy → Option (PeerOutcome × σ)}
    {handled : Bytes → Prop} (handles : ∀ buf p', Behaves (handle buf p') False (handled buf)) :
    Behaves
      (if !p.concerns protocol packet then some (.passed, unread)
      else
        match p.datagram packet.payload with
        | none => none
        | some (none, p') => some (.passed, waiting p')
        | some (some buf, p') => handle buf p')
      (p.Crashes protocol packet)
      (p.concerns protocol packet ∧ ∃ buf, p.Completes packet.payload buf ∧ handled buf) := by
  unfold Crashes
  rw [← datagram_eq_none_iff]
  split_ifs with other
  · exact behaves_passed _ (by simp_all) (by simp_all)
  · have other : p.concerns protocol packet = true := by simpa using other
    cases read : p.datagram packet.payload with
    | none => exact behaves_none ⟨other, rfl⟩
    | some result =>
      obtain ⟨buf, p'⟩ := result
      have completes := datagram_fst read
      cases buf with
      | none => exact behaves_passed _ (by simp) (by simp [completes])
      | some buf => simpa [other, completes] using handles buf p'

end DatagramProxy

namespace UdpProxy

def Takes (p : UdpProxy) (socketOpens : Bool) (packet : ZCPacket) : Prop :=
  p.proxy.concerns PROTOCOL_UDP packet ∧ ∃ buf, p.proxy.Completes packet.payload buf ∧
    8 ≤ buf.length ∧
    ((.v4 (Ipv4Packet.source packet.payload), sourcePort buf) ∈ p.natTable ∨ socketOpens)

theorem tryProcessPacketFromPeer_behaves (p : UdpProxy) (socketOpens : Bool) (packet : ZCPacket) :
    Behaves (p.tryProcessPacketFromPeer socketOpens packet)
      (p.proxy.Crashes PROTOCOL_UDP packet) (p.Takes socketOpens packet) := by
  refine p.proxy.behaves PROTOCOL_UDP packet fun buf proxy => ?_
  dsimp only
  split
  · rename_i short
    exact behaves_passed _ id (by omega)
  · rename_i whole
    split
    · rename_i known
      exact behaves_taken _ id nofun ⟨by omega, known⟩
    · rename_i unknown
      exact behaves_passed _ id (fun taken => unknown taken.2)

end UdpProxy

namespace IcmpProxy

def Takes (p : DatagramProxy) (packet : ZCPacket) : Prop :=
  p.concerns PROTOCOL_ICMP packet ∧ ∃ buf, p.Completes packet.payload buf ∧ 8 ≤ buf.length ∧
    field buf 0 1 = 8

/-- An echo request always fits into the buffer of its reply. -/
theorem sendIcmpReplyToPeer_ne_none {icmpLen : Nat} (whole : 8 ≤ icmpLen) :
    ∃ pieces, sendIcmpReplyToPeer icmpLen = some pieces := by
  obtain ⟨pieces, composed, -⟩ := composeIpv4Packet_spec icmpLen
  refine ⟨pieces, ?_⟩
  unfold sendIcmpReplyToPeer
  simp only [Nat.add_sub_cancel]
  rw [if_neg (by omega), composed]

theorem tryProcessPacketFromPeer_behaves (p : DatagramProxy) (packet : ZCPacket) :
    Behaves (tryProcessPacketFromPeer p packet) (p.Crashes PROTOCOL_ICMP packet)
      (Takes p packet) := by
  refine p.behaves PROTOCOL_ICMP packet fun buf proxy => ?_
  split
  · rename_i other
    exact behaves_passed _ id (by omega)
  · rename_i echo
    have taken : 8 ≤ buf.length ∧ field buf 0 1 = 8 := by omega
    split
    · obtain ⟨pieces, sent⟩ := @sendIcmpReplyToPeer_ne_none buf.length taken.1
      rw [sent]
      exact behaves_taken _ id nofun taken
    · exact behaves_taken _ id nofun taken

end IcmpProxy

namespace Socks5Server
variable (s : Socks5Server) (packet : ZCPacket)

/-- The server looks for the entry of the packet, by a header of at least `least` bytes. -/
def Looks (least : Nat) (isTcp : Bool) : Prop :=
  Ipv4Packet.version packet.payload = 4 ∧
    (isTcp ∧ least = 20 ∧ Ipv4Packet.nextLevelProtocol packet.payload = PROTOCOL_TCP ∨
      ¬ isTcp ∧ least = 8 ∧ Ipv4Packet.nextLevelProtocol packet.payload = PROTOCOL_UDP ∧
        ¬ (IpReassembler.isPacketFragmented packet.payload ∧ s.entries ≠ ∅))

/-- The server reads the packet. -/
def Reads : Prop := s.isActive ∧ packet.header.packetType = PacketType.data.code

def Crashes : Prop :=
  s.Reads packet ∧ (packet.payload.length < Ipv4Packet.minimumPacketSize ∨
    ∃ least isTcp, s.Looks packet least isTcp ∧
      (Ipv4Packet.payload packet.payload).length < least)

def Takes : Prop :=
  s.Reads packet ∧ ∃ least isTcp, s.Looks packet least isTcp ∧
    entryOf packet.payload isTcp ∈ s.entries

/-- The filter keeps no state of its own. -/
theorem matchEntry_behaves {least : Nat} {isTcp : Bool} (reads : s.Reads packet)
    (long : ¬ packet.payload.length < Ipv4Packet.minimumPacketSize)
    (looks : ∀ least' isTcp', s.Looks packet least' isTcp' ↔ least' = least ∧ isTcp' = isTcp) :
    Behaves ((s.matchEntry least isTcp packet).map (·, ())) (s.Crashes packet)
      (s.Takes packet) := by
  have crashes : s.Crashes packet ↔ (Ipv4Packet.payload packet.payload).length < least := by
    simp [Crashes, reads, long, looks]
  have takes : s.Takes packet ↔ entryOf packet.payload isTcp ∈ s.entries := by
    cases isTcp <;> simp [Takes, reads, looks]
  unfold matchEntry
  split
  · rename_i short
    exact behaves_none (crashes.mpr short)
  · rename_i whole
    split
    · rename_i found
      exact behaves_taken () (by rwa [crashes]) nofun (takes.mpr found)
    · rename_i missing
      exact behaves_passed () (by rwa [crashes]) (by rwa [takes])

theorem tryProcessPacketFromPeer_behaves :
    Behaves ((s.tryProcessPacketFromPeer packet).map (·, ())) (s.Crashes packet)
      (s.Takes packet) := by
  unfold tryProcessPacketFromPeer
  dsimp only
  split
  · rename_i idle
    have unread : ¬ s.Reads packet := by
      rintro ⟨active, data⟩
      simp [active, data] at idle
    exact behaves_passed () (fun crash => unread crash.1) (fun take => unread take.1)
  · rename_i busy
    have reads : s.Reads packet := by simpa [Reads] using busy
    split
    · rename_i short
      exact behaves_none ⟨reads, .inl short⟩
    · rename_i long
      have passes (overlooked : ∀ least isTcp, ¬ s.Looks packet least isTcp) :
          Behaves ((some PeerOutcome.passed).map (·, ())) (s.Crashes packet)
            (s.Takes packet) :=
        behaves_passed () (by simp [Crashes, long, overlooked]) (by simp [Takes, overlooked])
      split
      · rename_i other
        exact passes (by simp [Looks, other])
      · rename_i ipv4
        split
        · rename_i tcp
          apply s.matchEntry_behaves packet reads long
          simp_all [Looks, PROTOCOL_TCP, PROTOCOL_UDP, and_comm]
        · rename_i notTcp
          split
          · rename_i udp
            split
            · rename_i fragment
              exact passes (by simp_all [Looks])
            · rename_i datagram
              apply s.matchEntry_behaves packet reads long
              simp_all [Looks, and_comm]
          · rename_i notUdp
            exact passes (by simp_all [Looks])

end Socks5Server

/-- A payload too short for an IPv4 header, or a packet for a client. -/
def VpnPortal.Takes (wgPeerIpTable : Finset Ipv4Addr) (packet : ZCPacket) : Prop :=
  packet.header.packetType = PacketType.data.code ∧
    (packet.payload.length < Ipv4Packet.minimumPacketSize ∨
      Ipv4Packet.version packet.payload = 4 ∧
        Ipv4Packet.destination packet.payload ∈ wgPeerIpTable)

theorem VpnPortal.tryProcessPacketFromPeer_behaves (wgPeerIpTable : Finset Ipv4Addr)
    (packet : ZCPacket) :
    Behaves (some (tryProcessPacketFromPeer wgPeerIpTable packet, ())) False
      (Takes wgPeerIpTable packet) := by
  unfold tryProcessPacketFromPeer Takes
  dsimp only
  split
  · rename_i other
    exact behaves_passed () id (by simp [other])
  · rename_i data
    split
    · rename_i short
      exact behaves_taken () id nofun (by simp_all)
    · split
      · rename_i client
        exact behaves_taken () id nofun (by simp_all)
      · rename_i unknown
        exact behaves_passed () id (by simp_all)

end PeerLink.Gateway
