import PeerLink.Manager.Inbound
import PeerLink.Packet.Framing

/-!
# Packets of foreign networks in packets

A packet of a foreign network is carried in the payload of a packet, behind a header with the name
of the network. The receiver reads the header, and sends the inner packet on.
-/

namespace PeerLink.Manager

open Bcs (leBytes fromLeBytes fromLeBytes_leBytes utf8)
open Layout (zcpacketIntoBytes)
open Packet (Bytes PacketType)

namespace ForeignNetworkHdr

/-- The sum is one of 16 bits. -/
def new (dstPeerId : UInt32) (networkName : String) : Option ForeignNetworkHdr :=
  let networkNameLen := (utf8 networkName).length % 2 ^ 16
  if 2 ^ 16 ≤ 10 + networkNameLen then none
  else some ⟨10 + networkNameLen, dstPeerId.toNat, 10, networkNameLen⟩

def asBytes (hdr : ForeignNetworkHdr) : Bytes :=
  leBytes 2 hdr.headerLen ++ leBytes 4 hdr.dstPeerId ++ leBytes 2 hdr.networkNameOffset ++
    leBytes 2 hdr.networkNameLen

end ForeignNetworkHdr

/-- The packet around an inner packet. The header area of the tunnels, the flags, the counter and
the reserved byte are memory that is not initialised. -/
def encapsulate (junk : Nat → UInt8) (hdr : ForeignNetworkHdr) (networkName : String)
    (tunnelPayload : Bytes) : Layout.ZCPacket :=
  let payload := hdr.asBytes ++ utf8 networkName ++ tunnelPayload
  let header := leBytes 4 0 ++ leBytes 4 0 ++
    [PacketType.foreignNetworkPacket.code, junk 29, junk 30, junk 31] ++ leBytes 4 payload.length
  ⟨(List.range 20).map junk ++ (header ++ payload), .nic⟩

/-- `ZCPacket::new_for_foreign_network`. -/
def newForForeignNetwork (junk : Nat → UInt8) (networkName : String) (dstPeerId : UInt32)
    (foreign : Layout.ZCPacket) : Option Layout.ZCPacket := do
  let hdr ← ForeignNetworkHdr.new dstPeerId networkName
  let tunnelPayload ← foreign.tunnelPayload
  -- `copy_from_slice` of the name
  if hdr.networkNameLen ≠ (utf8 networkName).length then
    none
  else
    return encapsulate junk hdr networkName tunnelPayload

/-! ## What is put in is taken out -/

theorem ForeignNetworkHdr.refFromPrefix_asBytes {hdr : ForeignNetworkHdr}
    (headerLen : hdr.headerLen < 2 ^ 16) (dstPeerId : hdr.dstPeerId < 2 ^ 32)
    (networkNameOffset : hdr.networkNameOffset < 2 ^ 16)
    (networkNameLen : hdr.networkNameLen < 2 ^ 16)
    (rest : Bytes) : refFromPrefix (hdr.asBytes ++ rest) = some hdr := by
  have fields : refFromPrefix (hdr.asBytes ++ rest) = some
      ⟨fromLeBytes (leBytes 2 hdr.headerLen), fromLeBytes (leBytes 4 hdr.dstPeerId),
        fromLeBytes (leBytes 2 hdr.networkNameOffset),
        fromLeBytes (leBytes 2 hdr.networkNameLen)⟩ :=
    if_neg (by simp [asBytes]; omega)
  simp (disch := omega) only [fields, fromLeBytes_leBytes, Nat.mod_eq_of_lt]

variable (junk : Nat → UInt8)

theorem encapsulate_read (hdr : ForeignNetworkHdr) (networkName : String) (inner : Bytes) :
    ∃ header, header.packetType = PacketType.foreignNetworkPacket.code ∧
      (encapsulate junk hdr networkName inner).read =
        some ⟨header, hdr.asBytes ++ utf8 networkName ++ inner⟩ := by
  have carries : (encapsulate junk hdr networkName inner).Carries _ :=
    Layout.ZCPacket.carries_append _ (by simp; rfl)
  have reads := carries.read rfl
  rw [List.drop_left' (by simp; rfl)] at reads
  exact ⟨_, rfl, reads⟩

/-- **A packet of a foreign network is taken out as it was put in.** The packet around it is of the
type for it, and its payload has a header with the name and the receiver; behind the header are the
header and the payload of the inner packet. -/
theorem encapsulation_round_trip (networkName : String) (short : (utf8 networkName).length ≤ 65525)
    (dstPeerId : UInt32) (foreign : Layout.ZCPacket)
    (reaches : foreign.packetType.peerManagerHeaderOffset ≤ foreign.inner.length) (spare : Nat) :
    ∃ p packet hdr inner, newForForeignNetwork junk networkName dstPeerId foreign = some p ∧
      p.read = some packet ∧ packet.header.packetType = PacketType.foreignNetworkPacket.code ∧
      ForeignNetworkHdr.refFromPrefix packet.payload = some hdr ∧
      hdr.getNetworkName packet.payload = some networkName ∧ hdr.dstPeerId = dstPeerId.toNat ∧
      hdr.foreignNetworkPacket packet.payload spare = some inner ∧
      Layout.ZCPacket.tunnelPayload ⟨inner, .dummyTunnel⟩ = foreign.tunnelPayload := by
  have tunnel : foreign.tunnelPayload =
      some (foreign.inner.drop foreign.packetType.peerManagerHeaderOffset) := if_pos reaches
  generalize foreign.inner.drop foreign.packetType.peerManagerHeaderOffset = inner at tunnel
  obtain ⟨len, stated⟩ : ∃ len, (utf8 networkName).length = len := ⟨_, rfl⟩
  obtain ⟨hdr, created, headerLen, dst, nameOffset, nameLen⟩ : ∃ hdr,
      ForeignNetworkHdr.new dstPeerId networkName = some hdr ∧ hdr.headerLen = 10 + len ∧
        hdr.dstPeerId = dstPeerId.toNat ∧ hdr.networkNameOffset = 10 ∧
          hdr.networkNameLen = len := by
    rw [ForeignNetworkHdr.new, stated, Nat.mod_eq_of_lt (by omega)]
    exact ⟨_, if_neg (by omega), rfl, rfl, rfl, rfl⟩
  obtain ⟨header, isForeign, reads⟩ := encapsulate_read junk hdr networkName inner
  have ten : hdr.asBytes.length = 10 := by simp [ForeignNetworkHdr.asBytes]
  have front : (hdr.asBytes ++ utf8 networkName).length = 10 + len := by
    rw [List.length_append, ten, stated]
  have counted : (hdr.asBytes ++ utf8 networkName ++ inner).length = 10 + len + inner.length := by
    rw [List.length_append, front]
  refine ⟨_, _, hdr, inner, ?_, reads, isForeign, ?_, ?_, dst, ?_, ?_⟩
  · simp [newForForeignNetwork, created, tunnel, nameLen, stated]
  · rw [List.append_assoc]
    exact ForeignNetworkHdr.refFromPrefix_asBytes (by omega) (dst.trans_lt dstPeerId.toNat_lt)
      (by omega) (by omega) _
  · have name : ((hdr.asBytes ++ utf8 networkName ++ inner).drop 10).take len =
      utf8 networkName := by
      rw [List.append_assoc, List.drop_left' ten, List.take_left' stated]
    dsimp only
    rw [ForeignNetworkHdr.getNetworkName, nameOffset, nameLen, if_neg (by omega), name]
    exact Bcs.fromUTF8?_eq_some.mpr rfl
  · dsimp only
    rw [ForeignNetworkHdr.foreignNetworkPacket, headerLen, if_neg (by omega), List.drop_left' front]
  · rw [tunnel]
    exact (show Layout.ZCPacket.Carries ⟨inner, .dummyTunnel⟩ inner from
      ⟨Nat.zero_le _, rfl⟩).tunnelPayload

/-- A header and three bytes of payload. -/
def smallPacket : Layout.ZCPacket := ⟨List.replicate 16 1 ++ [7, 8, 9], .dummyTunnel⟩

theorem ab_taken_out : ∃ p packet, ∃ hdr : ForeignNetworkHdr, ∃ inner,
    newForForeignNetwork (fun _ => 0) "ab" 7 smallPacket = some p ∧ p.read = some packet ∧
      hdr.getNetworkName packet.payload = some "ab" ∧ hdr.dstPeerId = 7 ∧
      hdr.foreignNetworkPacket packet.payload 0 = some inner ∧
      Layout.ZCPacket.tunnelPayload ⟨inner, .dummyTunnel⟩ = some smallPacket.inner := by
  obtain ⟨p, packet, hdr, inner, made, reads, -, -, named, dst, taken, same⟩ :=
    encapsulation_round_trip (fun _ => 0) "ab" (by decide +kernel) 7 smallPacket (by decide) 0
  exact ⟨p, packet, hdr, inner, made, reads, named, dst, taken, same⟩

/-! ## Packets that are malformed -/

/-- The header is there, the name is in the payload and a text, and if the packet is for the node, a
packet with a header is behind it, not longer than a frame can be. -/
structure WellFormed (payload : Bytes) (forMe : Prop) : Prop where
  header : 10 ≤ payload.length
  name : ForeignNetworkHdr.littleField payload 6 2 + ForeignNetworkHdr.littleField payload 8 2 ≤
    payload.length
  text : ∃ networkName, ((payload.drop (ForeignNetworkHdr.littleField payload 6 2)).take
    (ForeignNetworkHdr.littleField payload 8 2)) = utf8 networkName
  inner : forMe → ForeignNetworkHdr.littleField payload 0 2 + 16 ≤ payload.length ∧
    payload.length < ForeignNetworkHdr.littleField payload 0 2 + 2 ^ 32

theorem inner_framed (inner : Bytes) :
    (zcpacketIntoBytes junk ⟨inner, .dummyTunnel⟩).isSome ↔
      16 ≤ inner.length ∧ inner.length < 2 ^ 32 := by
  have carries : Layout.ZCPacket.Carries ⟨inner, .dummyTunnel⟩ inner := ⟨Nat.zero_le _, rfl⟩
  rw [Layout.zcpacketIntoBytes_eq carries]
  split_ifs with fits
  · exact ⟨fun _ => fits, fun _ => rfl⟩
  · exact ⟨nofun, fun now => absurd now fits⟩

/-- **A packet of a foreign network** is dealt with, and an inner packet that is taken out of it is
framed, without a panic exactly if it is well-formed. -/
theorem handled_iff (mgr : PeerManager) (env : RecvEnv) (junk : Nat → UInt8)
    (packet : Packet.ZCPacket)
    (isForeign : packet.header.packetType = PacketType.foreignNetworkPacket.code) :
    (∃ result, mgr.tryHandleForeignNetworkPacket env packet = some result ∧
        ∀ networkName dst inner, result = .inl (.toForeignNetwork networkName dst inner) →
          (zcpacketIntoBytes junk ⟨inner, .dummyTunnel⟩).isSome) ↔
      WellFormed packet.payload (packet.header.toPeerId = mgr.myPeerId) := by
  unfold PeerManager.tryHandleForeignNetworkPacket
  rw [if_neg (by simp [isForeign])]
  constructor
  · rintro ⟨result, handled, framed⟩
    obtain ⟨hdr, found, handled⟩ := Option.bind_eq_some_iff.mp handled
    obtain ⟨networkName, named, handled⟩ := Option.bind_eq_some_iff.mp handled
    unfold ForeignNetworkHdr.refFromPrefix at found
    split at found
    · cases found
    · cases found
      unfold ForeignNetworkHdr.getNetworkName at named
      dsimp only at named
      split at named
      · cases named
      · refine ⟨by omega, by omega, ⟨networkName, Bcs.fromUTF8?_eq_some.mp named⟩, fun forMe => ?_⟩
        rw [if_pos forMe] at handled
        obtain ⟨inner, taken, handled⟩ := Option.bind_eq_some_iff.mp handled
        cases handled
        unfold ForeignNetworkHdr.foreignNetworkPacket at taken
        split at taken
        · cases taken
        · cases taken
          have fits := (inner_framed junk _).mp (framed _ _ _ rfl)
          rw [List.length_drop] at fits
          dsimp only at fits
          omega
  · rintro ⟨header, name, ⟨networkName, text⟩, inner⟩
    obtain ⟨hdr, found, headerLen, nameOffset, nameLen⟩ : ∃ hdr,
        ForeignNetworkHdr.refFromPrefix packet.payload = some hdr ∧
          hdr.headerLen = ForeignNetworkHdr.littleField packet.payload 0 2 ∧
          hdr.networkNameOffset = ForeignNetworkHdr.littleField packet.payload 6 2 ∧
          hdr.networkNameLen = ForeignNetworkHdr.littleField packet.payload 8 2 :=
      ⟨_, if_neg (by omega), rfl, rfl, rfl⟩
    rw [← nameOffset, ← nameLen] at name text
    have named : hdr.getNetworkName packet.payload = some networkName :=
      (if_neg (Nat.not_lt.mpr name)).trans (Bcs.fromUTF8?_eq_some.mpr text)
    simp only [found, named, Option.bind_eq_bind, Option.bind_some]
    by_cases forMe : packet.header.toPeerId = mgr.myPeerId
    · obtain ⟨enough, bound⟩ := inner forMe
      rw [if_pos forMe, ForeignNetworkHdr.foreignNetworkPacket, if_neg (by omega)]
      refine ⟨_, rfl, fun _ _ inner same => ?_⟩
      cases same
      apply (inner_framed junk _).mpr
      rw [List.length_drop]
      omega
    · rw [if_neg forMe]
      split
      · split <;> exact ⟨_, rfl, nofun⟩
      · exact ⟨_, rfl, nofun⟩

/-- An inner packet of a header alone, in a network without a name. -/
theorem bare_packet_handled :
    let packet : Packet.ZCPacket :=
      ⟨⟨2, 1, 10, 0, 1, 26⟩, [10, 0, 7, 0, 0, 0, 10, 0, 0, 0] ++ List.replicate 16 0⟩
    ∃ result, (sampleManager .null none).tryHandleForeignNetworkPacket sampleRecvEnv packet =
        some result ∧
      ∀ networkName dst inner, result = .inl (.toForeignNetwork networkName dst inner) →
        (zcpacketIntoBytes (fun _ => 0) ⟨inner, .dummyTunnel⟩).isSome :=
  (handled_iff _ _ _ _ rfl).mpr
    ⟨by decide, by decide, ⟨"", by decide +kernel⟩, fun _ => by decide⟩

/-- A packet without payload stops the task. -/
theorem empty_packet_panics :
    (sampleManager .null none).tryHandleForeignNetworkPacket sampleRecvEnv
      ⟨⟨2, 1, 10, 0, 1, 0⟩, []⟩ = none := by
  decide +kernel

end PeerLink.Manager
