import PeerLink.Packet.Framing

/-!
# Relayed packets in a WireGuard tunnel

A packet that goes on over a WireGuard tunnel gets the header of that tunnel in place of its own,
and is encapsulated in a buffer of fixed size. The readers of other tunnels have limits of their
own.
-/

namespace PeerLink.Layout

open Packet (Bytes)

def MAX_PACKET : Nat := 2048

def TCP_MTU_BYTES : Nat := 2000

/-- The bytes that an encapsulated packet is longer by. -/
def DATA_OVERHEAD_SZ : Nat := 32

/-! ## What readers deliver -/

inductive WsMessage where
  | close
  | binary (payload : Bytes)
  | other (text : String)

/-- The message, or the text of an error of the stream. -/
def mapFromWsMessage : Except String WsMessage → Option (Except TunnelError ZCPacket)
  | .error e => some (.error (.webSocketError e))
  | .ok .close => none
  | .ok (.other msg) => some (.error (.invalidPacket msg))
  | .ok (.binary payload) => some (.ok ⟨payload, .dummyTunnel⟩)

inductive Delivered : ZCPacket → Prop where
  | tcp {buf packet rest : Bytes}
      (extracted : extractOnePacket buf TCP_MTU_BYTES = some (.ok (packet, rest))) :
      Delivered ⟨packet, .tcp⟩
  | webSocket {msg : Except String WsMessage} {p : ZCPacket}
      (mapped : mapFromWsMessage msg = some (.ok p)) : Delivered p

/-! ## The way into the tunnel -/

inductive WgType where
  | internalUse
  | externalUse

/-- The IPv4 header in front of `len` bytes. -/
def ipHeader (len : Nat) : Bytes :=
  [0x45, 0, .ofNat ((len + 20) / 256), .ofNat (len + 20), 0, 0, 0, 0, 64, 0] ++ List.replicate 10 0

/-- `none` is an underflow of `payload_len`. -/
def fillIpHeader (p : ZCPacket) : Option ZCPacket :=
  if p.inner.length < p.packetType.payloadOffset then
    none
  else
    let len := p.inner.length - p.packetType.payloadOffset + PEER_MANAGER_HEADER_SIZE
    some { p with inner := ipHeader len ++ p.inner.drop WG_TUNNEL_HEADER_SIZE }

/-- The packet that `handle_one_packet_from_me` encapsulates. -/
def packetToEncapsulate (wgType : WgType) (junk : Nat → UInt8) (p : ZCPacket) : Option Bytes := do
  let p ← p.convertType junk .wg
  match wgType with
  | .internalUse => return (← fillIpHeader p).inner
  | .externalUse => return p.inner

/-- `encapsulate` is that of `Tunn`, for a packet and a buffer of some length; `none` is a panic. -/
def handleOnePacketFromMe {TunnResult : Type} (encapsulate : Bytes → Nat → Option TunnResult)
    (wgType : WgType) (junk : Nat → UInt8) (p : ZCPacket) : Option TunnResult := do
  let packet ← packetToEncapsulate wgType junk p
  encapsulate packet MAX_PACKET

theorem length_packetToEncapsulate {p : ZCPacket} (junk : Nat → UInt8)
    (forwarded : p.packetType.payloadOffset ≤ p.inner.length) :
    ∃ packet, packetToEncapsulate .internalUse junk p = some packet ∧
      packet.length + p.packetType.peerManagerHeaderOffset = 20 + p.inner.length := by
  rw [ZCPacket.payloadOffset_eq, PEER_MANAGER_HEADER_SIZE] at forwarded
  have carries : p.Carries _ := ⟨Nat.le_of_add_right_le forwarded, rfl⟩
  obtain ⟨⟨inner, type⟩, converted, ⟨room, behind⟩, isWg⟩ :=
    @ZCPacket.Carries.convert _ _ carries (.wg, junk) nofun
  obtain rfl : type = .wg := isWg
  change p.convertType junk .wg = some ⟨inner, .wg⟩ at converted
  change 20 ≤ inner.length at room
  have length := congrArg List.length behind
  rw [List.length_drop, List.length_drop] at length
  change inner.length - 20 = _ at length
  have long : ¬inner.length < ZCPacketType.wg.payloadOffset := by
    change ¬inner.length < 36
    omega
  refine ⟨_, by simp [packetToEncapsulate, converted, fillIpHeader, long]; rfl, ?_⟩
  simp only [ipHeader, WG_TUNNEL_HEADER_SIZE, List.length_append, List.length_cons, List.length_nil,
    List.length_replicate, List.length_drop]
  omega

/-- **A relayed packet fits the buffer** exactly if it has at most 1996 bytes with the header of the
peer manager, whichever tunnel it came from. If it does not fit, the task panics, as `encapsulate`
does when the buffer is too small. -/
theorem relayed_packet_fits_iff {p : ZCPacket} (junk : Nat → UInt8)
    (forwarded : p.packetType.payloadOffset ≤ p.inner.length) {TunnResult : Type}
    {encapsulate : Bytes → Nat → Option TunnResult}
    (panics : ∀ packet room, room < packet.length + DATA_OVERHEAD_SZ →
      encapsulate packet room = none) :
    ((∃ packet ∈ packetToEncapsulate .internalUse junk p,
        packet.length + DATA_OVERHEAD_SZ ≤ MAX_PACKET) ↔
      p.inner.length ≤ p.packetType.peerManagerHeaderOffset + 1996) ∧
    (p.packetType.peerManagerHeaderOffset + 1996 < p.inner.length →
      handleOnePacketFromMe encapsulate .internalUse junk p = none) := by
  obtain ⟨packet, made, length⟩ := length_packetToEncapsulate junk forwarded
  have bound : packet.length + DATA_OVERHEAD_SZ ≤ MAX_PACKET ↔
      p.inner.length ≤ p.packetType.peerManagerHeaderOffset + 1996 := by
    unfold DATA_OVERHEAD_SZ MAX_PACKET
    omega
  refine ⟨?_, fun long => ?_⟩
  · simpa [made] using bound
  · rw [handleOnePacketFromMe, made]
    exact panics packet MAX_PACKET (Nat.lt_of_not_le fun fits => long.not_ge (bound.mp fits))

/-- A result for every packet that the buffer has room for. -/
def roomy (packet : Bytes) (room : Nat) : Option Bytes :=
  if room < packet.length + DATA_OVERHEAD_SZ then none else some packet

theorem usual_packet_fits :
    ∃ packet ∈ packetToEncapsulate .internalUse (fun _ => 0) ⟨List.replicate 1400 0, .tcp⟩,
      packet.length + DATA_OVERHEAD_SZ ≤ MAX_PACKET :=
  (@relayed_packet_fits_iff ⟨List.replicate 1400 0, .tcp⟩ (fun _ => 0) (by decide +kernel) _ roomy
    fun _ _ short => if_pos short).1.mpr (by decide +kernel)

/-- The longest body that a TCP reader accepts, and a message of 1997 bytes. -/
theorem accepted_packets_too_long :
    let frame : ZCPacket := ⟨frame (List.replicate 2000 0), .tcp⟩
    let message : ZCPacket := ⟨List.replicate 1997 0, .dummyTunnel⟩
    (Delivered frame ∧ ∃ packet ∈ packetToEncapsulate .internalUse (fun _ => 0) frame,
        MAX_PACKET < packet.length + DATA_OVERHEAD_SZ) ∧
      Delivered message ∧ ∃ packet ∈ packetToEncapsulate .internalUse (fun _ => 0) message,
        MAX_PACKET < packet.length + DATA_OVERHEAD_SZ := by
  refine ⟨⟨@Delivered.tcp (frame (List.replicate 2000 0)) _ [] ?_, by decide +kernel⟩,
    @Delivered.webSocket (.ok (.binary _)) _ rfl, by decide +kernel⟩
  decide +kernel

end PeerLink.Layout
