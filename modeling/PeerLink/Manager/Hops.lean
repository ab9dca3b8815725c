import PeerLink.Manager.Inbound

/-!
# Packets on the way

A packet travels from node to node, and each receive loop may send it on. The tables that decide
where it goes are arbitrary and may change between any two hops, so nothing but the header of the
packet itself stops it. A relay that hosts the network as a foreign one has a loop of its own, which
passes packets on without a look at the counter.
-/

namespace PeerLink.Manager

open Packet

open Route (PeerId)

/-! ## The loop of a relay -/

/-- What the receive loop of a foreign network reads. -/
structure ForeignRelay where
  myNodeId : PeerId
  networkName : String
  peerMap : PeerMap myNodeId
  relayData : Bool

/-- What a relay does with a packet. -/
inductive Relayed where
  | toRpc (packet : ZCPacket)
  | dropped
  | sent (sent : Sent)
  /-- The packet is inside a packet for the peer `viaPeer` of the relay's own network. -/
  | wrapped (networkName : String) (dst viaPeer : PeerId) (inner : ZCPacket)

def isRpc (hdr : PeerManagerHeader) : Bool :=
  hdr.packetType == PacketType.taRpc.code || hdr.packetType == PacketType.rpcReq.code ||
    hdr.packetType == PacketType.rpcResp.code

/-- One round of the relay's loop. `admitted` is the answer of the limiter. -/
def ForeignRelay.recvPacket (relay : ForeignRelay) (admitted : Bool) (packet : ZCPacket) :
    Relayed :=
  let dst := packet.header.toPeerId
  if dst = relay.myNodeId then
    if isRpc packet.header then .toRpc packet else .dropped
  else if packet.header.isUserTraffic ∧ ¬(relay.relayData ∧ admitted) then
    .dropped
  else
    match relay.peerMap.getGatewayPeerId dst .leastHop with
    | none => .wrapped relay.networkName dst dst packet
    | some gateway =>
      if relay.peerMap.hasPeer gateway then
        .sent ((relay.peerMap.directLink gateway).send packet)
      else
        .wrapped relay.networkName dst gateway packet

/-! ## Journeys -/

/-- A receive loop with the state in which it meets the packet. -/
inductive Hop where
  | peerManager (mgr : PeerManager) (env : RecvEnv)
  | relay (relay : ForeignRelay) (admitted : Bool)

namespace Hop

def isPeerManager : Hop → Bool
  | peerManager _ _ => true
  | relay _ _ => false

/-- The packet as the loop sends it on, if it does. -/
def resend : Hop → ZCPacket → Option ZCPacket
  | peerManager mgr env, packet =>
    match mgr.recvPacket env packet with
    | some (.forwarded sent, _) => sent.handed.map (·.packet)
    | _ => none
  | relay node admitted, packet =>
    match node.recvPacket admitted packet with
    | .sent sent => sent.handed.map (·.packet)
    | .wrapped _ _ _ inner => some inner
    | _ => none

end Hop

/-- The packet after all the hops; `none` if one of them delivers or drops it. -/
def travel : List Hop → ZCPacket → Option ZCPacket
  | [], packet => some packet
  | hop :: hops, packet => (hop.resend packet).bind (travel hops)

/-! ## What a hop does to a header -/

/-- A packet that came with a counter of at most seven and went out with the next one. -/
structure Counted (packet packet' : ZCPacket) : Prop where
  packetType : packet'.header.packetType = packet.header.packetType
  near : packet.header.forwardCounter.toNat ≤ 7
  forwardCounter : packet'.header.forwardCounter.toNat = packet.header.forwardCounter.toNat + 1
  isLatencyFirst : packet.header.isLatencyFirst = false → packet'.header.isLatencyFirst = false

variable {packet out : ZCPacket} {hop : Hop} {hops : List Hop}

theorem Counted.stagesKeep {mid : ZCPacket} (first : Counted packet mid)
    (second : StagesKeep mid out) : Counted packet out where
  packetType := second.packetType.trans first.packetType
  near := first.near
  forwardCounter := by rw [second.forwardCounter, first.forwardCounter]
  isLatencyFirst cleared := second.isLatencyFirst.trans (first.isLatencyFirst cleared)

namespace PeerManager
variable {mgr : PeerManager} {env : RecvEnv} {packet out : ZCPacket}

variable {received : Received} {f : Acl.AclFilter}

theorem countForward_counted (near : ¬7 < packet.header.forwardCounter) :
    Counted packet { packet with header := countForward packet.header } := by
  have bound : packet.header.forwardCounter.toNat ≤ 7 := by
    rw [UInt8.lt_iff_toNat_lt] at near
    exact not_lt.mp near
  refine ⟨?_, bound, ?_, ?_⟩
  · simp only [countForward]
    split <;> rfl
  · have kept : (countForward packet.header).forwardCounter =
        packet.header.forwardCounter + 1 := by
      simp only [countForward]
      split <;> rfl
    simp only [kept, UInt8.toNat_add]
    change (packet.header.forwardCounter.toNat + 1) % 256 = _
    omega
  · intro cleared
    simp only [countForward, cleared, Bool.false_eq_true, and_false, if_false]
    exact cleared

theorem prepareForward_counted (near : ¬7 < packet.header.forwardCounter) :
    Counted packet (mgr.prepareForward env packet) := by
  have counted := countForward_counted near
  unfold prepareForward
  dsimp only
  split
  · exact counted.stagesKeep (StagesKeep.tryCompressAndEncrypt _ _ _ _ _)
  · exact counted

/-- A packet for the node is not sent on, and the stages keep what forwarding reads. -/
theorem deliver_cases (done : mgr.deliver env packet = some (received, f)) :
    received = .dropped ∨ ∃ out, received = .delivered out ∧ StagesKeep packet out := by
  unfold deliver at done
  split at done
  · cases done
  · cases done
    exact .inl rfl
  · rename_i opened decrypted
    unfold deliverOpened at done
    split at done
    · cases done
      exact .inl rfl
    · rename_i plain decompressed
      obtain ⟨⟨passes, f'⟩, -, same⟩ := Option.map_eq_some_iff.mp done
      cases passes with
      | false =>
        cases same
        exact .inl rfl
      | true =>
        cases same
        exact .inr ⟨plain, rfl,
          (StagesKeep.decrypt decrypted).trans (StagesKeep.decompress decompressed)⟩

/-- All that a round of the receive loop can do with a packet. What it forwards has been counted;
only a packet of a foreign network may go uncounted, with another receiver in its header. -/
theorem recvPacket_cases (done : mgr.recvPacket env packet = some (received, f)) :
    received = .dropped ∨
      (∃ networkName dst inner, received = .toForeignNetwork networkName dst inner) ∨
      (∃ out, received = .delivered out ∧ StagesKeep packet out) ∨
      (∃ choice out, received = .forwarded (Choice.send choice out) ∧ Counted packet out) ∨
      packet.header.packetType = PacketType.foreignNetworkPacket.code ∧
        ∃ choice toPeerId, received = .forwarded (Choice.send choice (packet.setTo toPeerId)) := by
  unfold recvPacket at done
  cases handled : mgr.tryHandleForeignNetworkPacket env packet with
  | none =>
    rw [handled] at done
    cases done
  | some result =>
    rw [handled] at done
    obtain ⟨rfl, -⟩ | ⟨networkName, dst, inner, rfl⟩ | ⟨choice, toPeerId, -, rfl⟩ :=
      tryHandleForeignNetworkPacket_cases handled
    · dsimp only at done
      split at done
      · unfold forward at done
        split_ifs at done with near
        · cases done
          exact .inl rfl
        · cases done
          exact .inr (.inr (.inr (.inl ⟨_, _, rfl, prepareForward_counted near⟩)))
      · rcases deliver_cases done with dropped | delivered
        · exact .inl dropped
        · exact .inr (.inr (.inl delivered))
    · cases done
      exact .inr (.inl ⟨networkName, dst, inner, rfl⟩)
    · cases done
      refine .inr (.inr (.inr (.inr ⟨?_, choice, toPeerId, rfl⟩)))
      by_contra other
      rw [tryHandleForeignNetworkPacket_other other] at handled
      cases handled

end PeerManager

/-- A relay sends a packet on as it is, by itself or inside another. -/
theorem ForeignRelay.recvPacket_cases (relay : ForeignRelay) (admitted : Bool)
    (packet : ZCPacket) :
    relay.recvPacket admitted packet = .toRpc packet ∨
      relay.recvPacket admitted packet = .dropped ∨
      (∃ choice, relay.recvPacket admitted packet = .sent (Choice.send choice packet)) ∨
      ∃ networkName dst viaPeer,
        relay.recvPacket admitted packet = .wrapped networkName dst viaPeer packet := by
  unfold recvPacket
  dsimp only
  split
  · split
    · exact .inl rfl
    · exact .inr (.inl rfl)
  · split
    · exact .inr (.inl rfl)
    · split
      · exact .inr (.inr (.inr ⟨_, _, _, rfl⟩))
      · split
        · exact .inr (.inr (.inl ⟨_, rfl⟩))
        · exact .inr (.inr (.inr ⟨_, _, _, rfl⟩))

theorem Choice.send_packet {choice : Choice}
    (handed : (choice.send packet).handed.map (·.packet) = some out) : out = packet := by
  unfold Choice.send at handed
  simp only [Option.map_map, Option.map_eq_some_iff] at handed
  obtain ⟨link, -, same⟩ := handed
  exact same.symm

/-- The three ways in which a packet is sent on. -/
theorem Hop.resend_cases (resent : hop.resend packet = some out) :
    hop.isPeerManager = true ∧ Counted packet out ∨
      hop.isPeerManager = true ∧
        packet.header.packetType = PacketType.foreignNetworkPacket.code ∧
        (∃ toPeerId, out = packet.setTo toPeerId) ∨
      hop.isPeerManager = false ∧ out = packet := by
  cases hop with
  | peerManager mgr env =>
    simp only [resend] at resent
    split at resent
    · rename_i sent f done
      obtain other | ⟨_, _, _, other⟩ | ⟨_, other, -⟩ | ⟨choice, mid, same, counted⟩ |
        ⟨foreign, choice, toPeerId, same⟩ := PeerManager.recvPacket_cases done
      · cases other
      · cases other
      · cases other
      · cases same
        rw [Choice.send_packet resent]
        exact .inl ⟨rfl, counted⟩
      · cases same
        exact .inr (.inl ⟨rfl, foreign, toPeerId, Choice.send_packet resent⟩)
    · cases resent
  | relay node admitted =>
    simp only [resend] at resent
    refine .inr (.inr ⟨rfl, ?_⟩)
    obtain same | same | ⟨choice, same⟩ | ⟨networkName, dst, viaPeer, same⟩ :=
      node.recvPacket_cases admitted packet
    · rw [same] at resent
      cases resent
    · rw [same] at resent
      cases resent
    · rw [same] at resent
      exact Choice.send_packet resent
    · rw [same] at resent
      cases resent
      rfl

/-! ## Whole journeys -/

theorem resend_isLatencyFirst
    (resent : hop.resend packet = some out) (cleared : packet.header.isLatencyFirst = false) :
    out.header.isLatencyFirst = false := by
  obtain ⟨-, counted⟩ | ⟨-, -, toPeerId, rfl⟩ | ⟨-, rfl⟩ := Hop.resend_cases resent
  · exact counted.isLatencyFirst cleared
  · exact cleared
  · exact cleared

theorem travel_cons :
    travel (hop :: hops) packet = some out ↔
      ∃ mid, hop.resend packet = some mid ∧ travel hops mid = some out :=
  Option.bind_eq_some_iff

theorem travel_isLatencyFirst (travelled : travel hops packet = some out)
    (cleared : packet.header.isLatencyFirst = false) : out.header.isLatencyFirst = false := by
  induction hops generalizing packet with
  | nil =>
    cases travelled
    exact cleared
  | cons hop hops ih =>
    obtain ⟨mid, resent, rest⟩ := travel_cons.mp travelled
    exact ih rest (resend_isLatencyFirst resent cleared)

/-- The counter has counted every receive loop of a peer manager, and none of them has sent the
packet on with a counter above eight. -/
theorem travel_forwardCounter
    (other : packet.header.packetType ≠ PacketType.foreignNetworkPacket.code)
    (travelled : travel hops packet = some out) :
    out.header.forwardCounter.toNat =
        packet.header.forwardCounter.toNat + hops.countP Hop.isPeerManager ∧
      (hops.countP Hop.isPeerManager = 0 ∨ out.header.forwardCounter.toNat ≤ 8) := by
  induction hops generalizing packet with
  | nil =>
    cases travelled
    exact ⟨rfl, .inl rfl⟩
  | cons hop hops ih =>
    obtain ⟨mid, resent, rest⟩ := travel_cons.mp travelled
    obtain ⟨kind, counted⟩ | ⟨-, foreign, -⟩ | ⟨kind, rfl⟩ := Hop.resend_cases resent
    · obtain ⟨sum, bound⟩ := ih (counted.packetType ▸ other) rest
      have near := counted.near
      have next := counted.forwardCounter
      rw [List.countP_cons_of_pos kind]
      constructor
      · omega
      · right
        rcases bound with last | bound
        · omega
        · exact bound
    · exact absurd foreign other
    · rw [List.countP_cons_of_neg (by simp [kind])]
      exact ih other rest

/-- **Routing loops are cut.** Whatever the tables of the nodes are, a packet that is not of a
foreign network and has the counter of a new header is sent on by at most seven receive loops; the
counter of a packet never wraps, whatever it was; and a packet that has lost its claim to low
latency does not get it back on the way or when it is delivered. -/
theorem routing_loops_cut :
    (∀ (hops : List Hop) (blank packet out : ZCPacket) (fromPeerId toPeerId : PeerId)
        (packetType : UInt8),
      packet.header.packetType ≠ PacketType.foreignNetworkPacket.code →
      packet.header.forwardCounter =
        (blank.fillPeerManagerHdr fromPeerId toPeerId packetType).header.forwardCounter →
      travel hops packet = some out → hops.countP Hop.isPeerManager ≤ 7) ∧
    (∀ (hop : Hop) (packet out : ZCPacket), hop.resend packet = some out →
      out.header.forwardCounter = packet.header.forwardCounter ∨
        out.header.forwardCounter.toNat = packet.header.forwardCounter.toNat + 1) ∧
    (∀ (hops : List Hop) (packet out : ZCPacket), travel hops packet = some out →
      packet.header.isLatencyFirst = false → out.header.isLatencyFirst = false) ∧
    ∀ (mgr : PeerManager) (env : RecvEnv) (packet out : ZCPacket) (f : Acl.AclFilter),
      mgr.recvPacket env packet = some (.delivered out, f) →
      out.header.isLatencyFirst = packet.header.isLatencyFirst := by
  refine ⟨?_, ?_, fun _ _ _ => travel_isLatencyFirst, ?_⟩
  · intro hops blank packet out fromPeerId toPeerId packetType other fresh travelled
    obtain ⟨sum, none | bound⟩ := travel_forwardCounter other travelled
    · omega
    · have one : packet.header.forwardCounter.toNat = 1 := by
        rw [fresh]
        rfl
      omega
  · intro hop packet out resent
    obtain ⟨-, counted⟩ | ⟨-, -, toPeerId, rfl⟩ | ⟨-, rfl⟩ := Hop.resend_cases resent
    · exact .inr counted.forwardCounter
    · exact .inl rfl
    · exact .inl rfl
  · intro mgr env packet out f done
    obtain other | ⟨_, _, _, other⟩ | ⟨_, same, alike⟩ | ⟨_, _, other, -⟩ | ⟨-, _, _, other⟩ :=
      PeerManager.recvPacket_cases done
    · cases other
    · cases other
    · cases same
      exact alike.isLatencyFirst
    · cases other
    · cases other

/-! ## A packet that circles -/

/-- Node `me`, whose only peer is `other` and which has it for the next hop to every node. -/
def circlingManager (me other : PeerId) : PeerManager where
  myPeerId := me
  peers := ⟨fun peer => if peer = other then some (samplePeer 7) else none,
    [{ sampleRoute with getNextHopWithPolicy := fun _ _ => some other }]⟩
  foreignNetworkClient := ⟨fun _ => none, []⟩
  getPeerGroups _ := []
  getNetworkPeerId _ := none
  aclFilter := (Acl.AclFilter.new fun _ => none).reloadRules (fun _ => none) none
  nicPacketProcessPipeline := []
  encryptor := .null
  zstd := ⟨fun _ => none, fun _ _ => .error .other⟩
  dataCompressAlgo := .none
  exitNodes := []
  ipv4 := none
  ipv6 := none
  latencyFirst := true

/-- From node 2 to node 1 and back, `n` hops. -/
def circle (n : Nat) : List Hop :=
  (List.range n).map fun i =>
    .peerManager (if i % 2 = 0 then circlingManager 2 1 else circlingManager 1 2) sampleRecvEnv

/-- A packet of node 1 for node 9. -/
def lostPacket : ZCPacket :=
  let packet := ZCPacket.fillPeerManagerHdr ⟨⟨0, 0, 0, 0, 0, 0⟩, [1, 2, 3]⟩ 1 9 PacketType.data.code
  { packet with header := packet.header.setLatencyFirst true }

/-- Two nodes that have each other for the next hop send the packet on seven times, and the eighth
loop drops it. -/
theorem circling_packet_dropped :
    travel (circle 7) lostPacket =
        some { lostPacket with
          header := { lostPacket.header.setLatencyFirst false with forwardCounter := 8 } } ∧
      (circle 7).countP Hop.isPeerManager ≤ 7 ∧ travel (circle 8) lostPacket = none := by
  have travelled : travel (circle 7) lostPacket =
      some { lostPacket with
        header := { lostPacket.header.setLatencyFirst false with forwardCounter := 8 } } := by
    decide +kernel
  exact ⟨travelled,
    routing_loops_cut.1 (circle 7) lostPacket lostPacket _ 1 9 PacketType.data.code (by decide) rfl
      travelled,
    by decide +kernel⟩

end PeerLink.Manager
