import PeerLink.Manager.Outbound

/-!
# The receive loop

One round of `start_peer_recv`: packets of foreign networks are passed on, packets
for other peers are forwarded, and packets for the node are opened, checked against
the ACL and handed to the packet filters. `none` is a panic of the task.
-/

namespace PeerLink.Manager

open Packet Acl

open Route (PeerId)

/-! ## Packets of foreign networks -/

structure ForeignNetworkHdr where
  headerLen : Nat
  dstPeerId : PeerId
  networkNameOffset : Nat
  networkNameLen : Nat

namespace ForeignNetworkHdr

/-- The little-endian number in `len` bytes from `start` on. -/
def littleField (data : Bytes) (start len : Nat) : Nat :=
  ((data.drop start).take len).foldr (fun byte n => byte.toNat + 256 * n) 0

def refFromPrefix (payload : Bytes) : Option ForeignNetworkHdr :=
  if payload.length < 10 then
    none
  else
    some ⟨littleField payload 0 2, littleField payload 2 4, littleField payload 6 2,
      littleField payload 8 2⟩

def getNetworkName (hdr : ForeignNetworkHdr) (payload : Bytes) : Option String :=
  if payload.length < hdr.networkNameOffset + hdr.networkNameLen then
    none
  else
    String.fromUTF8? ⟨((payload.drop hdr.networkNameOffset).take hdr.networkNameLen).toArray⟩

/-- The inner packet; `spare` bytes of the buffer follow the payload. -/
def foreignNetworkPacket (hdr : ForeignNetworkHdr) (payload : Bytes) (spare : Nat) :
    Option Bytes :=
  if payload.length + spare < hdr.headerLen then none else some (payload.drop hdr.headerLen)

end ForeignNetworkHdr

/-- What a round does with its packet. -/
inductive Received where
  /-- The inner packet is with the foreign network manager. -/
  | toForeignNetwork (networkName : String) (dst : PeerId) (inner : Bytes)
  | forwarded (sent : Sent)
  | dropped
  /-- The packet filters get the packet. -/
  | delivered (packet : ZCPacket)
  deriving DecidableEq

structure RecvEnv extends SendEnv where
  /-- The room behind the payload in the packet's buffer. -/
  spare : Nat

namespace PeerManager
variable (mgr : PeerManager) (env : RecvEnv)

variable (packet : ZCPacket)

/-- `inl` if the packet is dealt with, `inr` if the loop goes on with it. -/
def tryHandleForeignNetworkPacket : Option (Received ⊕ ZCPacket) :=
  if packet.header.packetType ≠ PacketType.foreignNetworkPacket.code then
    some (.inr packet)
  else do
    let hdr ← ForeignNetworkHdr.refFromPrefix packet.payload
    let networkName ← hdr.getNetworkName packet.payload
    if packet.header.toPeerId = mgr.myPeerId then
      let inner ← hdr.foreignNetworkPacket packet.payload env.spare
      return .inl (.toForeignNetwork networkName hdr.dstPeerId inner)
    else if some packet.header.fromPeerId = mgr.getNetworkPeerId networkName then
      match mgr.peers.getOriginMyPeerId networkName packet.header.toPeerId with
      | none => return .inr packet
      | some toPeerId =>
        let choice := mgr.peers.msgLink toPeerId .leastHop
        return .inl (.forwarded (choice.send (packet.setTo toPeerId)))
    else
      return .inr packet

/-! ## Packets for other peers -/

/-- A packet that has come far loses its claim to low latency. -/
def countForward (hdr : PeerManagerHeader) : PeerManagerHeader :=
  let hdr := if 2 < hdr.forwardCounter ∧ hdr.isLatencyFirst then hdr.setLatencyFirst false else hdr
  { hdr with forwardCounter := hdr.forwardCounter + 1 }

/-- The packet as it is forwarded. The error of `try_compress_and_encrypt` is ignored. -/
def prepareForward : ZCPacket :=
  let packet := { packet with header := countForward packet.header }
  if packet.header.fromPeerId = mgr.myPeerId ∧ packet.header.isUserTraffic then
    (mgr.compressAndEncrypt env.toSendEnv packet).1
  else
    packet

def forward : Received :=
  if 7 < packet.header.forwardCounter then
    .dropped
  else
    .forwarded (mgr.sendMsg (mgr.prepareForward env packet) packet.header.toPeerId)

/-! ## Packets for the node -/

/-- The ACL's answer to a packet from a peer. -/
def inboundVerdict : Option (Bool × AclFilter) :=
  mgr.aclFilter.processPacketWithAcl env.acl packet true
    ⟨mgr.ipv4.map (·.address), mgr.ipv6.map (·.address)⟩ mgr.getPeerGroups

/-- What follows decryption. -/
def deliverOpened : Option (Received × AclFilter) :=
  match mgr.zstd.decompressPacket packet with
  | none => some (.dropped, mgr.aclFilter)
  | some packet =>
    (mgr.inboundVerdict env packet).map fun (passes, f) =>
      (if passes then .delivered packet else .dropped, f)

def deliver : Option (Received × AclFilter) :=
  match mgr.encryptor.decrypt packet with
  | .error .panicked => none
  | .error _ => some (.dropped, mgr.aclFilter)
  | .ok packet => mgr.deliverOpened env packet

/-- One round of the loop. -/
def recvPacket : Option (Received × AclFilter) :=
  match mgr.tryHandleForeignNetworkPacket env packet with
  | none => none
  | some (.inl received) => some (received, mgr.aclFilter)
  | some (.inr packet) =>
    if packet.header.toPeerId ≠ mgr.myPeerId then
      some (mgr.forward env packet, mgr.aclFilter)
    else
      mgr.deliver env packet

/-! ## What reaches the packet filters -/

variable {mgr env} {packet out : ZCPacket} {f : AclFilter}

theorem tryHandleForeignNetworkPacket_other
    (other : packet.header.packetType ≠ PacketType.foreignNetworkPacket.code) :
    mgr.tryHandleForeignNetworkPacket env packet = some (.inr packet) := by
  unfold tryHandleForeignNetworkPacket
  rw [if_pos other]

/-- All that can become of a packet before the loop looks at its receiver. A foreign
packet for the node goes no further. -/
theorem tryHandleForeignNetworkPacket_cases {result : Received ⊕ ZCPacket}
    (done : mgr.tryHandleForeignNetworkPacket env packet = some result) :
    (result = .inr packet ∧
        (packet.header.packetType ≠ PacketType.foreignNetworkPacket.code ∨
          packet.header.toPeerId ≠ mgr.myPeerId)) ∨
      (∃ networkName dst inner, result = .inl (.toForeignNetwork networkName dst inner)) ∨
      ∃ choice toPeerId, packet.header.toPeerId ≠ mgr.myPeerId ∧
        result = .inl (.forwarded (Choice.send choice (packet.setTo toPeerId))) := by
  unfold tryHandleForeignNetworkPacket at done
  split at done
  · rename_i other
    cases done
    exact .inl ⟨rfl, .inl other⟩
  · obtain ⟨hdr, -, done⟩ := Option.bind_eq_some_iff.mp done
    obtain ⟨networkName, -, done⟩ := Option.bind_eq_some_iff.mp done
    split at done
    · obtain ⟨inner, -, done⟩ := Option.bind_eq_some_iff.mp done
      cases done
      exact .inr (.inl ⟨networkName, hdr.dstPeerId, inner, rfl⟩)
    · rename_i notMine
      split at done
      · split at done
        · cases done
          exact .inl ⟨rfl, .inr notMine⟩
        · cases done
          exact .inr (.inr ⟨_, _, notMine, rfl⟩)
      · cases done
        exact .inl ⟨rfl, .inr notMine⟩

theorem deliverOpened_delivered {opened : ZCPacket} :
    mgr.deliverOpened env opened = some (.delivered out, f) ↔
      mgr.zstd.decompressPacket opened = some out ∧
        mgr.inboundVerdict env out = some (true, f) := by
  unfold deliverOpened
  cases mgr.zstd.decompressPacket opened with
  | none => simp
  | some plain =>
    simp only [Option.map_eq_some_iff, Option.some.injEq, Prod.exists, Prod.mk.injEq]
    constructor
    · rintro ⟨passes, f', verdict, outcome, rfl⟩
      cases passes with
      | false => cases outcome
      | true =>
        cases outcome
        exact ⟨rfl, verdict⟩
    · rintro ⟨rfl, verdict⟩
      exact ⟨true, f, verdict, rfl, rfl⟩

theorem deliver_delivered :
    mgr.deliver env packet = some (.delivered out, f) ↔
      ∃ opened, mgr.encryptor.decrypt packet = .ok opened ∧
        mgr.zstd.decompressPacket opened = some out ∧
        mgr.inboundVerdict env out = some (true, f) := by
  unfold deliver
  cases mgr.encryptor.decrypt packet with
  | error e => cases e <;> simp
  | ok opened => simp [deliverOpened_delivered]

/-- What the packet filters get: a packet that was decrypted and decompressed and that
the ACL let pass. -/
theorem recvPacket_delivered (mine : packet.header.toPeerId = mgr.myPeerId) :
    mgr.recvPacket env packet = some (.delivered out, f) ↔
      packet.header.packetType ≠ PacketType.foreignNetworkPacket.code ∧
        ∃ opened, mgr.encryptor.decrypt packet = .ok opened ∧
          mgr.zstd.decompressPacket opened = some out ∧
          mgr.inboundVerdict env out = some (true, f) := by
  rw [← deliver_delivered]
  unfold recvPacket
  by_cases foreign : packet.header.packetType = PacketType.foreignNetworkPacket.code
  · cases handled : mgr.tryHandleForeignNetworkPacket env packet with
    | none => simp [foreign]
    | some result =>
      obtain ⟨rfl, other | other⟩ | ⟨networkName, dst, inner, rfl⟩ | ⟨choice, dst, other, rfl⟩ :=
        tryHandleForeignNetworkPacket_cases handled
      · exact absurd foreign other
      · exact absurd mine other
      · simp [foreign]
      · exact absurd mine other
  · rw [tryHandleForeignNetworkPacket_other foreign]
    simp [mine, foreign]

/-- User traffic for the node that the filters get without decryption. -/
theorem recvPacket_plain (mine : packet.header.toPeerId = mgr.myPeerId)
    (unflagged : packet.header.isEncrypted = false) (user : packet.header.isUserTraffic = true)
    (plain : mgr.zstd.decompressPacket packet = some out)
    (passes : mgr.inboundVerdict env out = some (true, f)) :
    mgr.recvPacket env packet = some (.delivered out, f) := by
  apply (recvPacket_delivered mine).mpr
  constructor
  · intro foreign
    simp [PeerManagerHeader.isUserTraffic, foreign, PacketType.code] at user
  · exact ⟨packet, Encryptor.decrypt_unflagged unflagged, plain, passes⟩

/-- The filters see the packet type that came in. -/
theorem delivered_isUserTraffic (mine : packet.header.toPeerId = mgr.myPeerId)
    (arrived : mgr.recvPacket env packet = some (.delivered out, f)) :
    out.header.isUserTraffic = packet.header.isUserTraffic := by
  obtain ⟨-, opened, decrypted, decompressed, -⟩ := (recvPacket_delivered mine).mp arrived
  unfold PeerManagerHeader.isUserTraffic
  rw [((StagesKeep.decrypt decrypted).trans (.decompress decompressed)).packetType]

/-- **User traffic that reaches the filters was opened under the network key** exactly
when it is flagged as encrypted, is no user traffic, or would not reach them in the
clear. -/
theorem delivered_opened_iff (mine : packet.header.toPeerId = mgr.myPeerId) :
    (∀ out f, mgr.recvPacket env packet = some (.delivered out, f) →
        out.header.isUserTraffic = true → mgr.encryptor.Opens packet) ↔
      (packet.header.isEncrypted = true ∨ packet.header.isUserTraffic = false ∨
        ∀ out f, mgr.zstd.decompressPacket packet = some out →
          mgr.inboundVerdict env out ≠ some (true, f)) := by
  cases flag : packet.header.isEncrypted with
  | true =>
    simp only [true_or, iff_true]
    intro out f arrived _
    obtain ⟨-, opened, decrypted, -⟩ := (recvPacket_delivered mine).mp arrived
    obtain ⟨unflagged, -⟩ | ⟨opens, -⟩ := Encryptor.decrypt_cases decrypted
    · cases flag.symm.trans unflagged
    · exact opens
  | false =>
    simp only [Bool.false_eq_true, false_or]
    constructor
    · intro authentic
      by_contra reaches
      simp only [not_or, Bool.not_eq_false, not_forall, not_not] at reaches
      obtain ⟨user, out, f, plain, passes⟩ := reaches
      have arrived := recvPacket_plain mine flag user plain passes
      have kept := delivered_isUserTraffic mine arrived
      have opens := authentic out f arrived (kept.trans user)
      exact absurd opens.1 (by simp [flag])
    · intro closed out f arrived user
      rw [delivered_isUserTraffic mine arrived] at user
      obtain ⟨-, opened, decrypted, plain, passes⟩ := (recvPacket_delivered mine).mp arrived
      rw [Encryptor.decrypt_unflagged flag] at decrypted
      cases decrypted
      cases closed with
      | inl other => exact absurd user (by simp [other])
      | inr stopped => exact absurd passes (stopped out f plain)

end PeerManager

/-! ## A plain packet that is accepted -/

/-- A key that seals with a tag of zeros. -/
def sampleAead : Aead where
  sealInPlace _ plain := some (plain, List.replicate 16 0)
  openInPlace _ text tag := if tag = List.replicate 16 0 then some text else none
  seal_length := by
    intro nonce plain text tag sealed
    cases sealed
    rfl
  open_length := by
    intro nonce text tag plain opened
    split at opened
    · cases opened
      rfl
    · cases opened
  open_seal := by
    intro nonce plain text tag sealed
    cases sealed
    rfl

def sampleRecvEnv : RecvEnv := ⟨sampleSendEnv, 0⟩

/-- Peer 2 sends node 1 a data packet. -/
def incoming (flags : Flags) (payload : Bytes) : ZCPacket :=
  ⟨⟨2, 1, PacketType.data.code, flags, 1, 40⟩, payload⟩

/-- The sample segment as the sample key seals it. -/
def sealedSegment : Bytes := Acl.sampleSegment ++ List.replicate 28 0

/-- A sealed packet from peer 2 reaches the filters, opened. -/
theorem sealed_packet_opened :
    let mgr := sampleManager (.aead sampleAead) none
    (mgr.recvPacket sampleRecvEnv (incoming 1 sealedSegment)).map (·.1) =
        some (.delivered (incoming 0 Acl.sampleSegment)) ∧
      ∀ out f, mgr.recvPacket sampleRecvEnv (incoming 1 sealedSegment) =
          some (.delivered out, f) →
        out.header.isUserTraffic = true → mgr.encryptor.Opens (incoming 1 sealedSegment) :=
  ⟨by decide +kernel, (PeerManager.delivered_opened_iff rfl).mpr (.inl (by decide))⟩

/-- A plain packet from peer 2 reaches the filters as well. -/
theorem plain_packet_delivered :
    let mgr := sampleManager (.aead sampleAead) none
    let packet := incoming 0 Acl.sampleSegment
    mgr.encryptor.key?.isSome = true ∧ packet.header.fromPeerId ≠ mgr.myPeerId ∧
      packet.header.toPeerId = mgr.myPeerId ∧
      (mgr.recvPacket sampleRecvEnv packet).map (·.1) = some (.delivered packet) ∧
      packet.header.isUserTraffic = true ∧ ¬mgr.encryptor.Opens packet := by
  intro mgr packet
  refine ⟨rfl, by decide, rfl, by decide +kernel, by decide, ?_⟩
  intro opens
  exact absurd opens.1 (by decide)

end PeerLink.Manager
