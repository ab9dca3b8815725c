import PeerLink.Manager.Inbound

/-!
# Where user traffic starts

The ways in which a packet of the node itself reaches `send_msg_internal`: from the
NIC, through the receive loop, as a reply of the UDP and ICMP proxies, and as output
of a KCP endpoint. Only the first two encrypt, and the loop sends a packet also when
that has failed.
-/

namespace PeerLink.Manager

open Packet Acl Gateway

open Route (PeerId)

/-- The message ends up with a connection of another peer. -/
def Choice.connects (choice : Choice) : Bool := (choice.link.bind Link.conn?).isSome

inductive Origin where
  | nic (msg : ZCPacket) (ip : IpAddr)
  /-- A packet in the queue of the receive loop. -/
  | queued (packet : ZCPacket)
  /-- A fragment of a reply. The answer to an echo request of the node itself goes out
  without the proxy flag. -/
  | natReply (buf : Bytes) (dst : PeerId) (noProxy : Bool)
  | kcpOutput (buf : Bytes) (dst : PeerId) (isSrc : Bool)

namespace PeerManager
variable (mgr : PeerManager) (env : RecvEnv)

def newWithPayload (buf : Bytes) : ZCPacket := ⟨⟨0, 0, 0, 0, 0, 0⟩, buf⟩

def natReplyPacket (buf : Bytes) (dst : PeerId) (noProxy : Bool) : ZCPacket :=
  let packet := (newWithPayload buf).fillPeerManagerHdr mgr.myPeerId dst PacketType.data.code
  let hdr := if noProxy then packet.header.setNoProxy true else packet.header
  { packet with header := hdr.setLatencyFirst mgr.latencyFirst }

/-- The packet of `handle_kcp_output`. -/
def kcpPacket (buf : Bytes) (dst : PeerId) (isSrc : Bool) : ZCPacket :=
  (newWithPayload buf).fillPeerManagerHdr mgr.myPeerId dst
    (if isSrc then PacketType.kcpSrc.code else PacketType.kcpDst.code)

/-- What a round of the receive loop hands on. -/
def handedBy : Option (Received × AclFilter) → List Handed
  | some (.forwarded sent, _) => sent.handed.toList
  | _ => []

/-- What is handed on for a packet. -/
def originate : Origin → List Handed
  | .nic msg ip => ((mgr.sendMsgByIp env.toSendEnv msg ip).map (·.handed)).getD []
  | .queued packet => handedBy (mgr.recvPacket env packet)
  | .natReply buf dst noProxy =>
    (mgr.sendMsg (mgr.natReplyPacket buf dst noProxy) dst).handed.toList
  | .kcpOutput buf dst isSrc => (mgr.sendMsg (mgr.kcpPacket buf dst isSrc) dst).handed.toList

def IsOwnTraffic (packet : ZCPacket) : Prop :=
  packet.header.isUserTraffic = true ∧ packet.header.fromPeerId = mgr.myPeerId

/-- The node's own traffic is protected whenever another peer's connection gets it. -/
def Sealed (handed : List Handed) : Prop :=
  ∀ item ∈ handed, item.link.conn?.isSome = true → mgr.IsOwnTraffic item.packet →
    mgr.encryptor.Protects item.packet

/-! ## One send -/

section
variable {mgr env}

variable {choice : Choice} {msg : ZCPacket}

theorem sealed_nil : mgr.Sealed [] := by
  intro item handed
  cases handed

theorem sealed_send (own : mgr.IsOwnTraffic msg) :
    mgr.Sealed (choice.send msg).handed.toList ↔
      (choice.connects = true → mgr.encryptor.Protects msg) := by
  obtain ⟨link, error⟩ := choice
  cases link with
  | none => simp [Sealed, Choice.send, Choice.connects]
  | some link => simp [Sealed, Choice.send, Choice.connects, own]

/-- A packet that is sent without the flag is safe only without a connection. -/
theorem sealed_plain (own : mgr.IsOwnTraffic msg) (unflagged : msg.header.isEncrypted = false) :
    mgr.Sealed (choice.send msg).handed.toList ↔ choice.connects = false := by
  rw [sealed_send own]
  simp [Encryptor.Protects, unflagged]

variable (buf : Bytes) (dst : PeerId) (isSrc noProxy : Bool)

theorem natReplyPacket_own : mgr.IsOwnTraffic (mgr.natReplyPacket buf dst noProxy) := by
  cases noProxy <;> exact ⟨rfl, rfl⟩

theorem natReplyPacket_isEncrypted :
    (mgr.natReplyPacket buf dst noProxy).header.isEncrypted = false := by
  unfold natReplyPacket
  cases noProxy <;> simp

theorem natReplyPacket_isLatencyFirst :
    (mgr.natReplyPacket buf dst noProxy).header.isLatencyFirst = mgr.latencyFirst := by
  simp [natReplyPacket]

theorem kcpPacket_own : mgr.IsOwnTraffic (mgr.kcpPacket buf dst isSrc) := by
  cases isSrc <;> exact ⟨rfl, rfl⟩

theorem kcpPacket_isEncrypted : (mgr.kcpPacket buf dst isSrc).header.isEncrypted = false :=
  ZCPacket.fillPeerManagerHdr_isEncrypted _ _ _ _

theorem kcpPacket_isLatencyFirst : (mgr.kcpPacket buf dst isSrc).header.isLatencyFirst = false :=
  ZCPacket.fillPeerManagerHdr_flags _ _ _ _ .latencyFirst

/-! ## Packets from the NIC -/

theorem link_self {link : Link} (policy : NextHopPolicy) (dst : PeerId)
    (mine : dst = mgr.myPeerId)
    (chosen : (chooseLink mgr.peers mgr.foreignNetworkClient policy dst).link = some link) :
    link = .self := by
  subst mine
  rw [chooseLink_self] at chosen
  cases chosen
  rfl

/-- An unflagged packet that the filters may have addressed to the node is protected. -/
theorem sendProcessed_sealed (notNull : ¬mgr.encryptor.IsNull)
    (unflagged : msg.header.isEncrypted = false)
    (address : msg.header.toPeerId = 0 ∨ msg.header.toPeerId = mgr.myPeerId) (ip : IpAddr) :
    mgr.Sealed (mgr.sendProcessed env.toSendEnv msg ip).1 := by
  by_cases unaddressed : msg.header.toPeerId = 0
  · rw [sendProcessed_handed unaddressed]
    cases staged : mgr.compressAndEncrypt env.toSendEnv msg with
    | mk msg' failed =>
    cases failed with
    | some e => exact sealed_nil
    | none =>
      intro item handed _ _
      obtain ⟨dst, -, handed⟩ := List.mem_filterMap.mp handed
      obtain ⟨link, -, rfl⟩ := Option.map_eq_some_iff.mp handed
      have stages : mgr.encryptor.Protects (mgr.compressAndEncrypt env.toSendEnv msg).1 ↔
          (mgr.compressAndEncrypt env.toSendEnv msg).2 = none :=
        tryCompressAndEncrypt_protects notNull unflagged
      rw [staged] at stages
      obtain ⟨flag, output⟩ := stages.mpr rfl
      refine ⟨?_, output⟩
      change ((msg'.header.setLatencyFirst mgr.latencyFirst).setExitNode _).isEncrypted = true
      simpa using flag
  · have mine := address.resolve_left unaddressed
    unfold sendProcessed
    rw [if_pos unaddressed]
    intro item handed connected _
    obtain ⟨link, chosen, rfl⟩ := Option.map_eq_some_iff.mp (Option.mem_toList.mp handed)
    rw [link_self _ _ mine chosen] at connected
    cases connected

theorem nic_sealed (notNull : ¬mgr.encryptor.IsNull) (msg : ZCPacket) (ip : IpAddr) :
    mgr.Sealed (mgr.originate env (.nic msg ip)) := by
  have filled : (mgr.fillNicHeader msg).header.isEncrypted = false :=
    ZCPacket.fillPeerManagerHdr_isEncrypted _ _ _ _
  simp only [originate, sendMsgByIp]
  cases processed : mgr.runNicPacketProcessPipeline env.toSendEnv (mgr.fillNicHeader msg) with
  | none => exact sealed_nil
  | some result =>
    have kept := runNicPacketProcessPipeline_kept processed
    exact sendProcessed_sealed notNull (kept.isEncrypted.trans filled) kept.toPeerId ip

/-! ## Packets in the receive loop -/

theorem handed_eq {item : Handed}
    (handed : item ∈ (choice.send msg).handed.toList) : item.packet = msg := by
  obtain ⟨link, -, rfl⟩ := Option.map_eq_some_iff.mp (Option.mem_toList.mp handed)
  rfl

/-- Traffic of others is nothing the node has to protect. -/
theorem sealed_other (other : ¬mgr.IsOwnTraffic msg) :
    mgr.Sealed (choice.send msg).handed.toList := by
  intro item handed _ own
  rw [handed_eq handed] at own
  exact absurd own other

/-- Counting a hop leaves alone what the node reads of a packet. -/
theorem countForward_own {packet : ZCPacket} :
    mgr.IsOwnTraffic { packet with header := countForward packet.header } ↔
      mgr.IsOwnTraffic packet := by
  unfold countForward
  split <;> rfl

theorem deliver_sealed (packet : ZCPacket) : mgr.Sealed (handedBy (mgr.deliver env packet)) := by
  cases done : mgr.deliver env packet with
  | none => exact sealed_nil
  | some result =>
    obtain ⟨received, f⟩ := result
    cases received with
    | forwarded sent =>
      exfalso
      unfold deliver deliverOpened at done
      repeat' split at done
      all_goals first
        | cases done
        | obtain ⟨answer, -, same⟩ := Option.map_eq_some_iff.mp done
          obtain ⟨passes, f'⟩ := answer
          cases passes <;> cases same
    | toForeignNetwork | dropped | delivered => exact sealed_nil

end

variable (packet : ZCPacket)

/-- The packet of the node itself with the hop counted. -/
def counted : ZCPacket :=
  { packet with header := countForward packet.header }

/-- Both stages succeed on a plain packet; a packet that is flagged already is only
compressed, and then has to be an output of the cipher. -/
def StagesProtect : Prop :=
  if packet.header.isEncrypted then
    mgr.encryptor.IsOutput
      ((mgr.zstd.compressPacket packet mgr.dataCompressAlgo).getD packet).payload
  else
    (mgr.compressAndEncrypt env.toSendEnv packet).2 = none

/-- The link of a packet that the loop forwards. -/
def forwardLink : Choice :=
  chooseLink mgr.peers mgr.foreignNetworkClient
    (getNextHopPolicy (counted packet).header.isLatencyFirst) packet.header.toPeerId

section
variable {mgr env}

variable {packet : ZCPacket}

theorem compressAndEncrypt_protects (notNull : ¬mgr.encryptor.IsNull) (packet : ZCPacket) :
    mgr.encryptor.Protects (mgr.compressAndEncrypt env.toSendEnv packet).1 ↔
      mgr.StagesProtect env packet := by
  unfold StagesProtect
  cases flag : packet.header.isEncrypted with
  | false =>
    exact tryCompressAndEncrypt_protects notNull flag
  | true =>
    unfold compressAndEncrypt
    rw [tryCompressAndEncrypt_flagged notNull flag]
    cases compressed : mgr.zstd.compressPacket packet mgr.dataCompressAlgo with
    | none => simp [Encryptor.Protects, flag]
    | some mid =>
      have kept := compressPacket_isEncrypted compressed
      rw [flag] at kept
      simp [Encryptor.Protects, kept]

/-- The node's own traffic goes out as the stages leave it. -/
theorem forward_own (own : mgr.IsOwnTraffic packet) (near : ¬7 < packet.header.forwardCounter) :
    mgr.forward env packet = .forwarded ((mgr.forwardLink packet).send
      (mgr.compressAndEncrypt env.toSendEnv (counted packet)).1) := by
  have ownCounted : mgr.IsOwnTraffic (counted packet) := countForward_own.mpr own
  have prepared : mgr.prepareForward env packet =
      (mgr.compressAndEncrypt env.toSendEnv (counted packet)).1 := by
    exact if_pos ⟨ownCounted.2, ownCounted.1⟩
  have kept : StagesKeep (counted packet)
      (mgr.compressAndEncrypt env.toSendEnv (counted packet)).1 :=
    .tryCompressAndEncrypt ..
  unfold forward
  rw [if_neg near, prepared]
  unfold sendMsg sendMsgInternal forwardLink
  rw [kept.isLatencyFirst]

theorem compressAndEncrypt_own (own : mgr.IsOwnTraffic packet) :
    mgr.IsOwnTraffic (mgr.compressAndEncrypt env.toSendEnv packet).1 := by
  have kept : StagesKeep packet (mgr.compressAndEncrypt env.toSendEnv packet).1 :=
    .tryCompressAndEncrypt ..
  unfold IsOwnTraffic PeerManagerHeader.isUserTraffic
  rw [kept.packetType, kept.fromPeerId]
  exact own

theorem queued_other (other : ¬mgr.IsOwnTraffic packet) :
    mgr.Sealed (mgr.originate env (.queued packet)) := by
  simp only [originate, recvPacket]
  cases handled : mgr.tryHandleForeignNetworkPacket env packet with
  | none => exact sealed_nil
  | some result =>
    obtain ⟨rfl, -⟩ | ⟨networkName, dst, inner, rfl⟩ | ⟨choice, toPeerId, -, rfl⟩ :=
      tryHandleForeignNetworkPacket_cases handled
    · dsimp only
      split
      · unfold forward
        split
        · exact sealed_nil
        · have plain : mgr.prepareForward env packet = counted packet := by
            apply if_neg
            rintro ⟨sender, user⟩
            exact other (countForward_own.mp ⟨user, sender⟩)
          rw [plain]
          exact sealed_other fun own => other (countForward_own.mp own)
      · exact deliver_sealed packet
    · exact sealed_nil
    · exact sealed_other other

theorem queued_own (notNull : ¬mgr.encryptor.IsNull) (own : mgr.IsOwnTraffic packet) :
    mgr.Sealed (mgr.originate env (.queued packet)) ↔
      (packet.header.toPeerId = mgr.myPeerId ∨ 7 < packet.header.forwardCounter ∨
        (mgr.forwardLink packet).connects = false ∨ mgr.StagesProtect env (counted packet)) := by
  have notForeign : packet.header.packetType ≠ PacketType.foreignNetworkPacket.code := by
    intro foreign
    have user := own.1
    simp [PeerManagerHeader.isUserTraffic, foreign, PacketType.code] at user
  simp only [originate, recvPacket, tryHandleForeignNetworkPacket_other notForeign]
  by_cases mine : packet.header.toPeerId = mgr.myPeerId
  · simp only [mine, ne_eq, not_true, if_false, true_or, iff_true]
    exact deliver_sealed packet
  · rw [if_pos mine]
    by_cases far : 7 < packet.header.forwardCounter
    · simp [forward, far, handedBy, Sealed]
    · rw [forward_own own far]
      have ownSent : mgr.IsOwnTraffic
          (mgr.compressAndEncrypt env.toSendEnv (counted packet)).1 :=
        compressAndEncrypt_own (countForward_own.mpr own)
      change mgr.Sealed ((mgr.forwardLink packet).send _).handed.toList ↔ _
      rw [sealed_send ownSent, compressAndEncrypt_protects notNull]
      simp only [mine, far, false_or]
      rw [← Bool.not_eq_true, ← imp_iff_not_or]

end

/-- When an origin's packet is safe. -/
def Safe : Origin → Prop
  | .nic _ _ => True
  | .queued packet =>
    ¬mgr.IsOwnTraffic packet ∨ packet.header.toPeerId = mgr.myPeerId ∨
      7 < packet.header.forwardCounter ∨ (mgr.forwardLink packet).connects = false ∨
      mgr.StagesProtect env (counted packet)
  | .natReply _ dst _ =>
    (chooseLink mgr.peers mgr.foreignNetworkClient (getNextHopPolicy mgr.latencyFirst)
      dst).connects = false
  | .kcpOutput _ dst _ =>
    (chooseLink mgr.peers mgr.foreignNetworkClient .leastHop dst).connects = false

variable {mgr env}

/-- **The node's own traffic leaves encrypted** exactly when its origin is safe: always
from the NIC, through the receive loop if both stages do their work, and for the
replies of proxies and KCP endpoints only if no connection takes them. -/
theorem own_traffic_sealed_iff (notNull : ¬mgr.encryptor.IsNull) (origin : Origin) :
    mgr.Sealed (mgr.originate env origin) ↔ mgr.Safe env origin := by
  cases origin with
  | nic msg ip => exact iff_of_true (nic_sealed notNull msg ip) trivial
  | queued packet =>
    by_cases own : mgr.IsOwnTraffic packet
    · rw [queued_own notNull own]
      simp [Safe, own]
    · exact iff_of_true (queued_other own) (.inl own)
  | natReply buf dst noProxy =>
    simp only [originate, sendMsg, sendMsgInternal, natReplyPacket_isLatencyFirst, Safe]
    exact sealed_plain (natReplyPacket_own buf dst noProxy)
      (natReplyPacket_isEncrypted buf dst noProxy)
  | kcpOutput buf dst isSrc =>
    simp only [originate, sendMsg, sendMsgInternal, kcpPacket_isLatencyFirst, Safe]
    exact sealed_plain (kcpPacket_own buf dst isSrc) (kcpPacket_isEncrypted buf dst isSrc)

end PeerManager

/-! ## A reply in the clear -/

/-- A packet from the NIC goes out over the connection of peer 2, sealed. -/
theorem nic_packet_sealed :
    let mgr := sampleManager (.aead sampleAead) none
    let origin := Origin.nic Acl.samplePacket (.v4 0x0a000002)
    (mgr.originate sampleRecvEnv origin).map (·.link) = [.peerConn 2 7] ∧
      mgr.Sealed (mgr.originate sampleRecvEnv origin) :=
  ⟨by decide +kernel, (PeerManager.own_traffic_sealed_iff id _).mpr trivial⟩

/-- A reply of the UDP proxy goes out over the connection of peer 2 in the clear. -/
theorem nat_reply_in_clear :
    let mgr := sampleManager (.aead sampleAead) none
    let reply := mgr.natReplyPacket Acl.sampleSegment 2 true
    ¬mgr.encryptor.IsNull ∧ mgr.IsOwnTraffic reply ∧
      mgr.originate sampleRecvEnv (.natReply Acl.sampleSegment 2 true) =
        [⟨.peerConn 2 7, reply⟩] ∧
      ¬mgr.encryptor.Protects reply := by
  intro mgr reply
  refine ⟨id, ⟨rfl, rfl⟩, by decide +kernel, ?_⟩
  intro sealed
  exact absurd sealed.1 (by decide +kernel)

end PeerLink.Manager
