import PeerLink.Packet.Ip

/-!
# Filters on packets from the NIC

The proxies that look at a packet before the peer manager sends it: the TCP proxy,
the source side of the KCP and QUIC proxies, and the DNS server. A filter may
rewrite the packet; `none` is a panic. Checksums are those of the packet library.
-/

namespace PeerLink.Gateway

open Packet

open Route (PeerId)

abbrev SocketAddr := IpAddr × UInt16

structure Checksums where
  ipv4 : Bytes → UInt16
  tcp : Bytes → Ipv4Addr → Ipv4Addr → UInt16
  udp : Bytes → Ipv4Addr → Ipv4Addr → UInt16
  icmp : Bytes → UInt16

/-! ## Writing into a packet -/

variable (data : Bytes) (start : Nat) (ip : Ipv4Addr)

def writeBytes (bytes : Bytes) : Bytes :=
  data.take start ++ bytes ++ data.drop (start + bytes.length)

def writeU16 (n : UInt16) : Bytes :=
  writeBytes data start [(n >>> 8).toUInt8, n.toUInt8]

def writeIpv4 : Bytes :=
  writeBytes data start ([24, 16, 8, 0].map fun shift => ⟨(ip >>> shift).setWidth 8⟩)

def setSource : Bytes := writeIpv4 data 12 ip

def setDestination : Bytes := writeIpv4 data 16 ip

/-- `update_ip_packet_checksum` -/
def updateIpPacketChecksum (sums : Checksums) (data : Bytes) : Bytes :=
  writeU16 data 10 (sums.ipv4 data)

/-- Where the payload of an IPv4 packet starts. -/
def payloadStart : Nat :=
  Ipv4Packet.minimumPacketSize + (Ipv4Packet.headerLength data * 4 - Ipv4Packet.minimumPacketSize)

/-- Writes a field of the transport header, and then the header's checksum. -/
def setTransport (offset : Nat) (bytes : Bytes) (sumOffset : Nat) (checksum : Bytes → UInt16) :
    Bytes :=
  let data := writeBytes data (payloadStart data + offset) bytes
  writeU16 data (payloadStart data + sumOffset) (checksum (Ipv4Packet.payload data))

def setPort (offset : Nat) (port : UInt16) (sumOffset : Nat) (checksum : Bytes → UInt16) : Bytes :=
  setTransport data offset [(port >>> 8).toUInt8, port.toUInt8] sumOffset checksum

def sourcePort (segment : Bytes) : UInt16 := .ofNat (field segment 0 2)

def destinationPort (segment : Bytes) : UInt16 := .ofNat (field segment 2 2)

/-! ## The TCP proxy -/

structure NatDstEntry where
  src : SocketAddr
  realDst : SocketAddr
  mappedDst : SocketAddr

structure TcpProxy where
  localPort : UInt16
  enableSmoltcp : Bool
  /-- The node's own IPv4 address. -/
  ipv4 : Option (Inet 32)
  addrConnMap : AList fun _ : SocketAddr => NatDstEntry
  synMap : AList fun _ : SocketAddr => NatDstEntry

namespace TcpProxy

variable (proxy : TcpProxy)

def getLocalInet : Option (Inet 32) :=
  if proxy.enableSmoltcp then some ⟨0xc05863fe, Inet.defaultLength⟩ else proxy.ipv4

def getFakeLocalIpv4 (localIp : Inet 32) : Ipv4Addr := localIp.firstAddress

def natEntry (addr : SocketAddr) : Option NatDstEntry :=
  (proxy.addrConnMap.lookup addr).or (proxy.synMap.lookup addr)

def isTcpProxyConnection (src : SocketAddr) : Bool :=
  (proxy.synMap.lookup src).isSome || (proxy.addrConnMap.lookup src).isSome

/-- The packet of a local connection, as the peer at the other end is to see it.
`backTo` is the node's own address when the packet has to come back to the node. -/
def rewritePacket (sums : Checksums) (me : PeerId) (packet : ZCPacket) (ip : Ipv4Addr)
    (port : UInt16) (backTo : Option Ipv4Addr) : ZCPacket :=
  let header := packet.header.setNoProxy true
  let data := setSource packet.payload ip
  match backTo with
  | none =>
    let dst := Ipv4Packet.destination data
    ⟨header, updateIpPacketChecksum sums (setPort data 0 port 16 (sums.tcp · ip dst))⟩
  | some myIpv4 =>
    let data := setDestination data myIpv4
    let dst := Ipv4Packet.destination data
    ⟨{ header with toPeerId := me },
      updateIpPacketChecksum sums (setPort data 0 port 16 (sums.tcp · ip dst))⟩

def tryProcessPacketFromNic (sums : Checksums) (me : PeerId) (packet : ZCPacket) :
    Option (ZCPacket × Bool) :=
  match proxy.getLocalInet with
  | none => some (packet, false)
  | some myIpv4Inet =>
    let data := packet.payload
    let segment := Ipv4Packet.payload data
    if data.length < Ipv4Packet.minimumPacketSize then
      none
    else if Ipv4Packet.version data ≠ 4 ∨ Ipv4Packet.source data ≠ myIpv4Inet.address ∨
        Ipv4Packet.nextLevelProtocol data ≠ PROTOCOL_TCP then
      some (packet, false)
    else if segment.length < 20 then
      none
    else if sourcePort segment ≠ proxy.localPort then
      some (packet, false)
    else
      let dst := Ipv4Packet.destination data
      -- the KCP proxy turns the node's own address into a fake one, which is undone here
      let backTo :=
        if !proxy.enableSmoltcp && dst == getFakeLocalIpv4 myIpv4Inet then
          some myIpv4Inet.address
        else
          none
      let dstAddr : SocketAddr := (.v4 (backTo.getD dst), destinationPort segment)
      match proxy.natEntry dstAddr with
      | none => some (packet, false)
      | some entry =>
        if entry.src ≠ dstAddr then
          none
        else
          match entry.mappedDst.1 with
          | .v6 _ => none
          | .v4 ip => some (rewritePacket sums me packet ip entry.realDst.2 backTo, true)

end TcpProxy

/-! ## The source side of the KCP and QUIC proxies -/

inductive TransportType where
  | tcp
  | kcp
  | quic
  deriving DecidableEq

structure TcpProxyForSrc where
  tcpProxy : TcpProxy
  transportType : TransportType
  /-- What the routes say about the proxy at the destination. -/
  checkDstAllowKcpInput : Ipv4Addr → Bool

namespace TcpProxyForSrc

/-- SYN without ACK. -/
def isSyn (segment : Bytes) : Bool :=
  let flags := field segment 13 1
  flags.testBit 1 && !flags.testBit 4

variable (proxy : TcpProxyForSrc)

/-- A connection is taken over with its first packet, and then stays. -/
def accepts (data : Bytes) : Bool :=
  let segment := Ipv4Packet.payload data
  if isSyn segment then
    proxy.checkDstAllowKcpInput (Ipv4Packet.destination data)
  else
    proxy.tcpProxy.isTcpProxyConnection (.v4 (Ipv4Packet.source data), sourcePort segment)

/-- A packet between two other networks, which only smoltcp can answer. -/
def isNatToNat (data : Bytes) : Bool :=
  match proxy.tcpProxy.ipv4 with
  | none => false
  | some inet => Ipv4Packet.source data != inet.address && !proxy.tcpProxy.enableSmoltcp

def takeOver (me : PeerId) (packet : ZCPacket) : ZCPacket :=
  let hdr := { packet.header with toPeerId := me }
  { packet with
    header := if proxy.transportType = .kcp then hdr.setKcpSrcModified true else hdr }

/-- The part that runs when the TCP proxy has left the packet alone. -/
def tryTakeOver (me : PeerId) (packet : ZCPacket) : Option (ZCPacket × Bool) :=
  let data := packet.payload
  if data.length < Ipv4Packet.minimumPacketSize then
    none
  else if Ipv4Packet.version data ≠ 4 ∨ Ipv4Packet.nextLevelProtocol data ≠ PROTOCOL_TCP then
    some (packet, false)
  else if (Ipv4Packet.payload data).length < 20 then
    none
  else if !proxy.accepts data || proxy.isNatToNat data then
    some (packet, false)
  else
    some (proxy.takeOver me packet, true)

def tryProcessPacketFromNic (proxy : TcpProxyForSrc) (sums : Checksums) (me : PeerId)
    (packet : ZCPacket) : Option (ZCPacket × Bool) :=
  match proxy.tcpProxy.tryProcessPacketFromNic sums me packet with
  | none => none
  | some (packet, true) => some (packet, true)
  | some (packet, false) => proxy.tryTakeOver me packet

end TcpProxyForSrc

/-! ## The DNS server -/

structure MagicDns where
  fakeIp : Ipv4Addr
  tunIp : Ipv4Addr
  udpLocalPort : Option UInt16
  tcpLocalPort : Option UInt16

namespace MagicDns

/-- Requests go to the server's own port, answers come from the DNS port. -/
def translatePort (localPort : Option UInt16) (least sumOffset : Nat) (checksum : Bytes → UInt16)
    (data : Bytes) : Option Bytes := do
  let port ← localPort
  let segment := Ipv4Packet.payload data
  if segment.length < least then
    none
  else if destinationPort segment = 53 then
    return setPort data 2 port sumOffset checksum
  else if sourcePort segment = port then
    return setPort data 0 53 sumOffset checksum
  else
    none

/-- An echo request becomes its own reply. -/
def echoReply (checksum : Bytes → UInt16) (data : Bytes) : Option Bytes :=
  let message := Ipv4Packet.payload data
  if message.length < 4 ∨ field message 0 1 ≠ 8 then
    none
  else
    some (setTransport data 0 [0] 2 checksum)

def translate (dns : MagicDns) (sums : Checksums) (data : Bytes) : Option Bytes :=
  let protocol := Ipv4Packet.nextLevelProtocol data
  if protocol = PROTOCOL_UDP then
    translatePort dns.udpLocalPort 8 6 (sums.udp · dns.fakeIp dns.tunIp) data
  else if protocol = PROTOCOL_TCP then
    translatePort dns.tcpLocalPort 20 16 (sums.tcp · dns.fakeIp dns.tunIp) data
  else if protocol = PROTOCOL_ICMP then
    echoReply sums.icmp data
  else
    none

def tryProcessPacketFromNic (dns : MagicDns) (sums : Checksums) (me : PeerId)
    (packet : ZCPacket) : Option (ZCPacket × Bool) :=
  let data := packet.payload
  if data.length < Ipv4Packet.minimumPacketSize then
    none
  else if Ipv4Packet.version data ≠ 4 ∨ Ipv4Packet.destination data ≠ dns.fakeIp then
    some (packet, false)
  else
    match dns.translate sums data with
    | none => some (packet, false)
    | some data =>
      let data := setDestination (setSource data dns.fakeIp) dns.tunIp
      some (⟨{ packet.header with toPeerId := me }, updateIpPacketChecksum sums data⟩, true)

end MagicDns

/-! ## The pipeline -/

inductive NicFilter where
  | tcpProxy (proxy : TcpProxy)
  | srcProxy (proxy : TcpProxyForSrc)
  | magicDns (dns : MagicDns)

def NicFilter.tryProcessPacketFromNic (f : NicFilter) (sums : Checksums) (me : PeerId)
    (packet : ZCPacket) : Option (ZCPacket × Bool) :=
  match f with
  | tcpProxy proxy | srcProxy proxy => proxy.tryProcessPacketFromNic sums me packet
  | magicDns dns => dns.tryProcessPacketFromNic sums me packet

/-- Every filter sees the packet, whatever the ones before it answered. -/
def runNicFilters (filters : List NicFilter) (sums : Checksums) (me : PeerId)
    (packet : ZCPacket) : Option ZCPacket :=
  filters.reverse.foldlM (fun packet f => (f.tryProcessPacketFromNic sums me packet).map (·.1))
    packet

/-- What a filter leaves alone: sender, packet type and the encryption flag. The packet
stays addressed as it was or now goes to the node itself. -/
structure Kept (me : PeerId) (packet packet' : ZCPacket) : Prop where
  fromPeerId : packet'.header.fromPeerId = packet.header.fromPeerId
  packetType : packet'.header.packetType = packet.header.packetType
  isEncrypted : packet'.header.isEncrypted = packet.header.isEncrypted
  toPeerId : packet'.header.toPeerId = packet.header.toPeerId ∨ packet'.header.toPeerId = me

theorem Kept.refl (me : PeerId) (packet : ZCPacket) : Kept me packet packet :=
  ⟨rfl, rfl, rfl, .inl rfl⟩

theorem Kept.trans {me : PeerId} {a b c : ZCPacket} (first : Kept me a b) (second : Kept me b c) :
    Kept me a c where
  fromPeerId := second.fromPeerId.trans first.fromPeerId
  packetType := second.packetType.trans first.packetType
  isEncrypted := second.isEncrypted.trans first.isEncrypted
  toPeerId := by
    cases second.toPeerId with
    | inr mine => exact .inr mine
    | inl same => rw [same]; exact first.toPeerId

variable {sums : Checksums} {me : PeerId} {packet : ZCPacket} {result : ZCPacket × Bool}

theorem TcpProxy.rewritePacket_kept (ip : Ipv4Addr) (port : UInt16) (backTo : Option Ipv4Addr) :
    Kept me packet (rewritePacket sums me packet ip port backTo) := by
  cases backTo with
  | none => exact ⟨rfl, rfl, packet.header.setFlag_isEncrypted true .noProxy, .inl rfl⟩
  | some myIpv4 => exact ⟨rfl, rfl, packet.header.setFlag_isEncrypted true .noProxy, .inr rfl⟩

theorem TcpProxy.tryProcessPacketFromNic_kept {proxy : TcpProxy}
    (done : proxy.tryProcessPacketFromNic sums me packet = some result) :
    Kept me packet result.1 := by
  unfold TcpProxy.tryProcessPacketFromNic at done
  dsimp only at done
  -- each exit either returns the packet itself or the rewritten one
  repeat' split at done
  all_goals cases done
  all_goals first
    | exact .refl me packet
    | dsimp only; exact rewritePacket_kept _ _ _

theorem TcpProxyForSrc.tryTakeOver_kept {proxy : TcpProxyForSrc}
    (done : proxy.tryTakeOver me packet = some result) : Kept me packet result.1 := by
  have taken : Kept me packet (proxy.takeOver me packet) := by
    unfold TcpProxyForSrc.takeOver
    split
    · exact ⟨rfl, rfl, PeerManagerHeader.setFlag_isEncrypted _ true .kcpSrcModified, .inr rfl⟩
    · exact ⟨rfl, rfl, rfl, .inr rfl⟩
  unfold TcpProxyForSrc.tryTakeOver at done
  dsimp only at done
  repeat' split at done
  all_goals first
    | cases done; exact .refl me packet
    | cases done; exact taken
    | cases done

theorem TcpProxyForSrc.tryProcessPacketFromNic_kept {proxy : TcpProxyForSrc}
    (done : proxy.tryProcessPacketFromNic sums me packet = some result) :
    Kept me packet result.1 := by
  unfold TcpProxyForSrc.tryProcessPacketFromNic at done
  cases first : proxy.tcpProxy.tryProcessPacketFromNic sums me packet with
  | none => simp [first] at done
  | some answer =>
    have kept := TcpProxy.tryProcessPacketFromNic_kept first
    obtain ⟨packet', handled⟩ := answer
    rw [first] at done
    cases handled with
    | true => cases done; exact kept
    | false => exact kept.trans (tryTakeOver_kept done)

theorem MagicDns.tryProcessPacketFromNic_kept {dns : MagicDns}
    (done : dns.tryProcessPacketFromNic sums me packet = some result) :
    Kept me packet result.1 := by
  unfold MagicDns.tryProcessPacketFromNic at done
  dsimp only at done
  repeat' split at done
  all_goals first
    | cases done; exact .refl me packet
    | cases done; exact ⟨rfl, rfl, rfl, .inr rfl⟩
    | cases done

theorem NicFilter.tryProcessPacketFromNic_kept {f : NicFilter}
    (done : f.tryProcessPacketFromNic sums me packet = some result) :
    Kept me packet result.1 := by
  cases f with
  | tcpProxy proxy => exact TcpProxy.tryProcessPacketFromNic_kept done
  | srcProxy proxy => exact TcpProxyForSrc.tryProcessPacketFromNic_kept done
  | magicDns dns => exact MagicDns.tryProcessPacketFromNic_kept done

/-- The whole pipeline keeps what each filter keeps. -/
theorem runNicFilters_kept {filters : List NicFilter} {packet' : ZCPacket}
    (done : runNicFilters filters sums me packet = some packet') : Kept me packet packet' := by
  unfold runNicFilters at done
  generalize filters.reverse = pending at done
  induction pending generalizing packet with
  | nil =>
    cases done
    exact .refl me _
  | cons f pending ih =>
    rw [List.foldlM_cons] at done
    obtain ⟨mid, first, rest⟩ := Option.bind_eq_some_iff.mp done
    obtain ⟨answer, ran, rfl⟩ := Option.map_eq_some_iff.mp first
    exact (NicFilter.tryProcessPacketFromNic_kept ran).trans (ih rest)

end PeerLink.Gateway
