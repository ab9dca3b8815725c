import PeerLink.Bcs.Readers
import PeerLink.Packet.Cipher
import PeerLink.Schedule.Along

/-!
# Packets in their buffers

A packet is one buffer. The header of the peer manager and the payload are at its end, and the type
of the packet says how much room for the header of a tunnel is in front of them. `convert_type`
drops what is too much of it, or copies the packet if there is too little. `none` is a panic: a
slice or a split that is out of range.
-/

namespace PeerLink.Layout

open Bcs (leBytes fromLeBytes)
open Packet (Bytes PeerManagerHeader)

inductive ZCPacketType where
  | tcp
  | udp
  | wg
  | nic
  | dummyTunnel
  deriving DecidableEq

def TCP_TUNNEL_HEADER_SIZE : Nat := 4

def UDP_TUNNEL_HEADER_SIZE : Nat := 8

def WG_TUNNEL_HEADER_SIZE : Nat := 20

def PEER_MANAGER_HEADER_SIZE : Nat := 16

def PAYLOAD_OFFSET_FOR_NIC_PACKET : Nat :=
  max (max TCP_TUNNEL_HEADER_SIZE UDP_TUNNEL_HEADER_SIZE) WG_TUNNEL_HEADER_SIZE +
    PEER_MANAGER_HEADER_SIZE

/-- `none` is `INVALID_OFFSET`. -/
def getConvertedOffset (oldHdrSize newHdrSize : Nat) : Option Nat :=
  if oldHdrSize < newHdrSize then none else some (oldHdrSize - newHdrSize)

structure ZCPacketOffsets where
  payloadOffset : Nat
  peerManagerHeaderOffset : Nat
  tcpTunnelHeaderOffset : Option Nat
  udpTunnelHeaderOffset : Option Nat
  wgTunnelHeaderOffset : Option Nat
  dummyTunnelHeaderOffset : Option Nat

namespace ZCPacketType

/-- The offsets of a type with a tunnel header of its own. -/
def offsetsBehind (hdrSize : Nat) : ZCPacketOffsets where
  payloadOffset := hdrSize + PEER_MANAGER_HEADER_SIZE
  peerManagerHeaderOffset := hdrSize
  tcpTunnelHeaderOffset := getConvertedOffset hdrSize TCP_TUNNEL_HEADER_SIZE
  udpTunnelHeaderOffset := getConvertedOffset hdrSize UDP_TUNNEL_HEADER_SIZE
  wgTunnelHeaderOffset := getConvertedOffset hdrSize WG_TUNNEL_HEADER_SIZE
  dummyTunnelHeaderOffset := getConvertedOffset hdrSize 0

def getPacketOffsets : ZCPacketType → ZCPacketOffsets
  | tcp => { offsetsBehind TCP_TUNNEL_HEADER_SIZE with tcpTunnelHeaderOffset := some 0 }
  | udp => { offsetsBehind UDP_TUNNEL_HEADER_SIZE with udpTunnelHeaderOffset := some 0 }
  | wg => { offsetsBehind WG_TUNNEL_HEADER_SIZE with wgTunnelHeaderOffset := some 0 }
  | nic =>
    let hdrSize := PAYLOAD_OFFSET_FOR_NIC_PACKET - PEER_MANAGER_HEADER_SIZE
    { payloadOffset := PAYLOAD_OFFSET_FOR_NIC_PACKET
      peerManagerHeaderOffset := hdrSize
      tcpTunnelHeaderOffset := some (hdrSize - TCP_TUNNEL_HEADER_SIZE)
      udpTunnelHeaderOffset := some (hdrSize - UDP_TUNNEL_HEADER_SIZE)
      wgTunnelHeaderOffset := some (hdrSize - WG_TUNNEL_HEADER_SIZE)
      dummyTunnelHeaderOffset := some hdrSize }
  | dummyTunnel => { offsetsBehind 0 with dummyTunnelHeaderOffset := some 0 }

def peerManagerHeaderOffset (type : ZCPacketType) : Nat :=
  type.getPacketOffsets.peerManagerHeaderOffset

def payloadOffset (type : ZCPacketType) : Nat := type.getPacketOffsets.payloadOffset

/-- Where the header of the target begins. There is no conversion to a packet of the device. -/
def headerOffsetFor (type : ZCPacketType) : ZCPacketType → Option (Option Nat)
  | tcp => some type.getPacketOffsets.tcpTunnelHeaderOffset
  | udp => some type.getPacketOffsets.udpTunnelHeaderOffset
  | wg => some type.getPacketOffsets.wgTunnelHeaderOffset
  | dummyTunnel => some type.getPacketOffsets.dummyTunnelHeaderOffset
  | nic => none

end ZCPacketType

structure ZCPacket where
  inner : Bytes
  packetType : ZCPacketType

namespace ZCPacket

variable (p : ZCPacket)

/-- `&self.inner[offset..]` and `split_off(offset)`. -/
def from? (offset : Nat) : Option Bytes :=
  if offset ≤ p.inner.length then some (p.inner.drop offset) else none

def tunnelPayload : Option Bytes := p.from? p.packetType.peerManagerHeaderOffset

/-- New memory in front of a copy is not initialised: `junk` is what is there. -/
def convertType (junk : Nat → UInt8) (p : ZCPacket) (target : ZCPacketType) : Option ZCPacket :=
  if target = p.packetType then
    some p
  else
    match p.packetType.headerOffsetFor target with
    | none => none
    | some none => do
      let tunnelPayload ← p.tunnelPayload
      return ⟨(List.range target.peerManagerHeaderOffset).map junk ++ tunnelPayload, target⟩
    | some (some newOffset) => return ⟨← p.from? newOffset, target⟩

/-- `PeerManagerHeader::ref_from_prefix`. -/
def headerOf : Bytes → Option PeerManagerHeader
  | f₀ :: f₁ :: f₂ :: f₃ :: t₀ :: t₁ :: t₂ :: t₃ :: packetType :: flags :: forwardCounter ::
      _reserved :: l₀ :: l₁ :: l₂ :: l₃ :: _ =>
    some
      { fromPeerId := fromLeBytes [f₀, f₁, f₂, f₃]
        toPeerId := fromLeBytes [t₀, t₁, t₂, t₃]
        packetType := packetType
        flags := flags.toBitVec
        forwardCounter := forwardCounter
        len := fromLeBytes [l₀, l₁, l₂, l₃] }
  | _ => none

/-- The header and the payload, if the buffer has a header. -/
def read : Option Packet.ZCPacket := do
  let bytes ← p.tunnelPayload
  return ⟨← headerOf bytes, bytes.drop PEER_MANAGER_HEADER_SIZE⟩

/-- One call of `convert_type`. -/
def convert (call : ZCPacketType × (Nat → UInt8)) : Option ZCPacket :=
  p.convertType call.2 call.1

/-! ## A conversion keeps the packet -/

/-- The header area of the type is in the buffer, and these bytes are behind it. -/
def Carries (bytes : Bytes) : Prop :=
  p.packetType.peerManagerHeaderOffset ≤ p.inner.length ∧
    p.inner.drop p.packetType.peerManagerHeaderOffset = bytes

variable {p q : ZCPacket} {bytes : Bytes}

theorem carries_append {front : Bytes} {type : ZCPacketType} (bytes : Bytes)
    (sized : front.length = type.peerManagerHeaderOffset) : Carries ⟨front ++ bytes, type⟩ bytes :=
  ⟨by simp [sized], List.drop_left' sized⟩

theorem Carries.tunnelPayload (carries : p.Carries bytes) : p.tunnelPayload = some bytes := by
  rw [ZCPacket.tunnelPayload, from?, if_pos carries.1, carries.2]

theorem headerOffsetFor_eq (type : ZCPacketType) {target : ZCPacketType} (other : target ≠ .nic) :
    ∃ offset, type.headerOffsetFor target = some offset ∧ ∀ n ∈ offset,
      n + target.peerManagerHeaderOffset = type.peerManagerHeaderOffset := by
  cases target with
  | nic => exact absurd rfl other
  | tcp | udp | wg | dummyTunnel => exact ⟨_, rfl, by cases type <;> decide⟩

theorem Carries.convert (carries : p.Carries bytes) {call : ZCPacketType × (Nat → UInt8)}
    (other : call.1 ≠ .nic) :
    ∃ q, p.convert call = some q ∧ q.Carries bytes ∧ q.packetType = call.1 := by
  obtain ⟨offset, found, fits⟩ := headerOffsetFor_eq p.packetType other
  unfold ZCPacket.convert convertType
  split_ifs with same
  · exact ⟨p, rfl, carries, same.symm⟩
  · rw [found]
    cases offset with
    | none =>
      rw [carries.tunnelPayload]
      exact ⟨_, rfl, carries_append bytes (by simp), rfl⟩
    | some n =>
      obtain ⟨room, behind⟩ := carries
      have start := fits n rfl
      have there : p.from? n = some (p.inner.drop n) := if_pos (by omega)
      dsimp only
      rw [there]
      refine ⟨_, rfl, ⟨?_, ?_⟩, rfl⟩
      · change call.1.peerManagerHeaderOffset ≤ (p.inner.drop n).length
        rw [List.length_drop]
        omega
      · rw [List.drop_drop, start, behind]

/-- The type after the calls: that of the last one. -/
def typeAfter (type : ZCPacketType) (calls : List (ZCPacketType × (Nat → UInt8))) : ZCPacketType :=
  (calls.map Prod.fst).getLastD type

theorem Carries.convert_all (carries : p.Carries bytes)
    {calls : List (ZCPacketType × (Nat → UInt8))} (other : ∀ call ∈ calls, call.1 ≠ .nic) :
    ∃ q, Schedule.final ZCPacket.convert p calls = some q ∧ q.Carries bytes ∧
      q.packetType = typeAfter p.packetType calls := by
  induction calls generalizing p with
  | nil => exact ⟨p, rfl, carries, rfl⟩
  | cons call calls ih =>
    obtain ⟨first, converted, carries, type⟩ := carries.convert (other call List.mem_cons_self)
    obtain ⟨q, ran, carries, last⟩ := ih carries fun call mem => other call (.tail _ mem)
    refine ⟨q, by simpa [Schedule.final, converted] using ran, carries, ?_⟩
    rw [last, type, typeAfter, typeAfter, List.map_cons, List.getLastD_cons]

theorem payloadOffset_eq (type : ZCPacketType) :
    type.payloadOffset = type.peerManagerHeaderOffset + PEER_MANAGER_HEADER_SIZE := by
  cases type <;> rfl

theorem Carries.payload (carries : p.Carries bytes) :
    p.inner.drop p.packetType.payloadOffset = bytes.drop PEER_MANAGER_HEADER_SIZE := by
  rw [payloadOffset_eq, ← List.drop_drop, carries.2]

theorem Carries.read (carries : p.Carries bytes) {header : PeerManagerHeader}
    (found : headerOf bytes = some header) :
    p.read = some ⟨header, bytes.drop PEER_MANAGER_HEADER_SIZE⟩ := by
  simp [ZCPacket.read, carries.tunnelPayload, found]

/-- **Conversions keep the packet.** Any number of calls of `convert_type`, to any types but that
of the device, go through; after each of them the packet has the type asked for, the header area of
that type is in the buffer, and the header of the peer manager and the payload are those of the
packet at first. -/
theorem conversions_keep (p : ZCPacket)
    (reaches : p.packetType.peerManagerHeaderOffset ≤ p.inner.length)
    (calls : List (ZCPacketType × (Nat → UInt8))) (other : ∀ call ∈ calls, call.1 ≠ .nic) :
    ∃ q, Schedule.final convert p calls = some q ∧
      q.packetType = typeAfter p.packetType calls ∧
      q.packetType.peerManagerHeaderOffset ≤ q.inner.length ∧
      (q.inner.drop q.packetType.peerManagerHeaderOffset).take PEER_MANAGER_HEADER_SIZE =
        (p.inner.drop p.packetType.peerManagerHeaderOffset).take PEER_MANAGER_HEADER_SIZE ∧
      q.inner.drop q.packetType.payloadOffset = p.inner.drop p.packetType.payloadOffset := by
  have carries : p.Carries (p.inner.drop p.packetType.peerManagerHeaderOffset) := ⟨reaches, rfl⟩
  obtain ⟨q, ran, after, type⟩ := carries.convert_all other
  exact ⟨q, ran, type, after.1, by rw [after.2], by rw [after.payload, carries.payload]⟩

/-- A packet of the device goes to a UDP tunnel, is copied for a WireGuard tunnel, and so on. -/
theorem device_packet_kept :
    let p : ZCPacket := ⟨List.replicate 37 7, .nic⟩
    ∃ q, Schedule.final convert p [(.udp, fun _ => 1), (.wg, fun _ => 2),
      (.dummyTunnel, fun _ => 3),
        (.tcp, fun _ => 4)] = some q ∧
      q.packetType = .tcp ∧
      q.packetType.peerManagerHeaderOffset ≤ q.inner.length ∧
      (q.inner.drop q.packetType.peerManagerHeaderOffset).take PEER_MANAGER_HEADER_SIZE =
        (p.inner.drop p.packetType.peerManagerHeaderOffset).take PEER_MANAGER_HEADER_SIZE ∧
      q.inner.drop q.packetType.payloadOffset = p.inner.drop p.packetType.payloadOffset :=
  conversions_keep _ (by decide) _ (by decide)

end ZCPacket

end PeerLink.Layout
