import PeerLink.Packet.Layout

/-!
# Frames on a TCP stream

The writer puts the length of a packet in front of it, and the reader cuts packets out of a buffer.
-/

namespace PeerLink.Layout

open Bcs (leBytes fromLeBytes)
open Packet (Bytes)

/-- `TcpZCPacketToBytes::zcpacket_into_bytes`. A buffer with a payload has the header of the tunnel
too, so that the error is never returned. -/
def zcpacketIntoBytes (junk : Nat → UInt8) (item : ZCPacket) : Option Bytes := do
  let item ← item.convertType junk .tcp
  let payloadOffset := item.packetType.payloadOffset
  -- `payload_len` underflows
  if item.inner.length < payloadOffset then
    none
  else
    let tcpLen := PEER_MANAGER_HEADER_SIZE + (item.inner.length - payloadOffset)
    -- `tcp_len.try_into().unwrap()`
    if 2 ^ 32 ≤ tcpLen then none else return leBytes 4 tcpLen ++ item.inner.drop 4

def frame (body : Bytes) : Bytes := leBytes 4 body.length ++ body

theorem zcpacketIntoBytes_eq {item : ZCPacket} {body : Bytes} (carries : item.Carries body)
    (junk : Nat → UInt8) : zcpacketIntoBytes junk item =
      if 16 ≤ body.length ∧ body.length < 2 ^ 32 then some (frame body) else none := by
  obtain ⟨⟨inner, type⟩, converted, ⟨room, behind⟩, isTcp⟩ :=
    @ZCPacket.Carries.convert _ _ carries (.tcp, junk) nofun
  obtain rfl : type = .tcp := isTcp
  change item.convertType junk .tcp = some ⟨inner, .tcp⟩ at converted
  change 4 ≤ inner.length at room
  change inner.drop 4 = body at behind
  have count : inner.length = 4 + body.length := by
    rw [← behind, List.length_drop]
    omega
  simp only [zcpacketIntoBytes, converted, Option.bind_eq_bind, Option.bind_some, behind, count]
  change (if 4 + body.length < 20 then none else if 2 ^ 32 ≤ 16 + (4 + body.length - 20) then none
    else some (leBytes 4 (16 + (4 + body.length - 20)) ++ body)) = _
  split_ifs with short long whole whole whole
  · omega
  · rfl
  · omega
  · rfl
  · rw [frame, show 16 + (4 + body.length - 20) = body.length by omega]
  · omega

inductive TunnelError where
  | invalidPacket (msg : String)
  | webSocketError (msg : String)
  deriving DecidableEq

/-- The packet and what is behind it. -/
def extractOnePacket (buf : Bytes) (maxPacketSize : Nat) :
    Option (Except TunnelError (Bytes × Bytes)) :=
  if buf.length < TCP_TUNNEL_HEADER_SIZE then
    none
  else
    let bodyLen := fromLeBytes (buf.take TCP_TUNNEL_HEADER_SIZE)
    if maxPacketSize < bodyLen then
      some (.error (.invalidPacket "body too long"))
    else if buf.length < TCP_TUNNEL_HEADER_SIZE + bodyLen then
      none
    else
      some (.ok (buf.splitAt (TCP_TUNNEL_HEADER_SIZE + bodyLen)))

end PeerLink.Layout
