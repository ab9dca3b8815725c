import Mathlib.Data.Nat.Digits.Defs
import PeerLink.Manager.Fragmented

/-!
# A datagram in pieces

A datagram that the ACL allows as one packet may still lose fragments. Over IPv4 the first
fragment has the ports of the datagram, but a later one is judged by the bytes that it happens
to start with. Over IPv6 a fragment is none of the protocols that rules can name.
-/

namespace PeerLink.Manager

open Packet Acl Gateway

open Route (PeerId)

/-- A part of a datagram, cut out at multiples of eight bytes. -/
structure Cut (datagram : Bytes) where
  before : Bytes
  piece : Bytes
  after : Bytes
  joined : before ++ (piece ++ after) = datagram
  start : 8 ∣ before.length
  stop : 8 ∣ piece.length ∨ after = []
  nonempty : piece ≠ []
  proper : before ≠ [] ∨ after ≠ []

/-- The next header of a fragment over IPv6. -/
def PROTOCOL_IPV6_FRAGMENT : Nat := 44

/-- A data packet with an IPv6 header. -/
structure IsIpv6 (nextHeader : Nat) (packet : ZCPacket) : Prop where
  isData : packet.header.packetType = PacketType.data.code
  long : Ipv6Packet.minimumPacketSize ≤ packet.payload.length
  version : Ipv4Packet.version packet.payload = 6
  protocol : Ipv6Packet.nextHeader packet.payload = nextHeader

variable (whole : ZCPacket)

/-- The same peers. -/
structure SamePeers (part : ZCPacket) : Prop where
  sender : part.header.fromPeerId = whole.header.fromPeerId
  receiver : part.header.toPeerId = whole.header.toPeerId

structure FragmentV4 (cut : Cut (Ipv4Packet.payload whole.payload)) (part : ZCPacket) :
    Prop extends IsUdp part, SamePeers whole part where
  source : Ipv4Packet.source part.payload = Ipv4Packet.source whole.payload
  destination : Ipv4Packet.destination part.payload = Ipv4Packet.destination whole.payload
  body : Ipv4Packet.payload part.payload = cut.piece
  offset : Ipv4Packet.fragmentOffset part.payload * 8 = cut.before.length
  more : Ipv4Packet.moreFragments part.payload = !cut.after.isEmpty

/-- The extension header of a fragment over IPv6, which names UDP as what is cut. -/
def fragmentHeader (start : Nat) (more : Bool) (id : Bytes) : Bytes :=
  [17, 0, .ofNat (start / 256), .ofNat (start % 256 + more.toNat)] ++ id

structure FragmentV6 (cut : Cut (Ipv6Packet.payload whole.payload)) (part : ZCPacket) :
    Prop extends IsIpv6 PROTOCOL_IPV6_FRAGMENT part, SamePeers whole part where
  source : Ipv6Packet.source part.payload = Ipv6Packet.source whole.payload
  destination : Ipv6Packet.destination part.payload = Ipv6Packet.destination whole.payload
  body : ∃ id : Bytes, id.length = 4 ∧ Ipv6Packet.payload part.payload =
    fragmentHeader cut.before.length (!cut.after.isEmpty) id ++ cut.piece

/-- `part` is a fragment of the UDP datagram that `whole` carries in one packet. -/
inductive FragmentOf (part : ZCPacket) : Prop where
  | v4 (udp : IsUdp whole) (unfragmented : IpReassembler.isPacketFragmented whole.payload = false)
      (cut : Cut (Ipv4Packet.payload whole.payload)) (fragment : FragmentV4 whole cut part)
  | v6 (udp : IsIpv6 PROTOCOL_UDP whole) (cut : Cut (Ipv6Packet.payload whole.payload))
      (fragment : FragmentV6 whole cut part)

/-- What is read of a fragment over IPv4 whose payload starts with `piece`. -/
def pieceInfo (groups : PeerId → List String) (piece : Bytes) : PacketInfo where
  srcIp := .v4 (Ipv4Packet.source whole.payload)
  dstIp := .v4 (Ipv4Packet.destination whole.payload)
  srcPort := some (sourcePort piece)
  dstPort := some (destinationPort piece)
  protocol := .udp
  packetSize := whole.payload.length
  srcGroups := groups whole.header.fromPeerId
  dstGroups := groups whole.header.toPeerId

/-- What is read of any fragment over IPv6. -/
def fragmentInfo (groups : PeerId → List String) : PacketInfo where
  srcIp := .v6 (Ipv6Packet.source whole.payload)
  dstIp := .v6 (Ipv6Packet.destination whole.payload)
  srcPort := none
  dstPort := none
  protocol := .unspecified
  packetSize := whole.payload.length
  srcGroups := groups whole.header.fromPeerId
  dstGroups := groups whole.header.toPeerId

/-- Wherever a datagram over IPv4 can be cut, the configuration allows the ports that its
bytes spell there; and over IPv6, if there is something to cut, it allows packets of no
protocol and without ports. -/
structure PiecesAllowed (parseCidr : CidrParser) (acl : AclConfig) (f : AclFilter)
    (whole : ZCPacket) (isIn : Bool) (mine : AclFilter.MyAddrs) (groups : PeerId → List String) :
    Prop where
  v4 : IsUdp whole → IpReassembler.isPacketFragmented whole.payload = false →
    ∀ start, 0 < start → 8 ∣ start → start + 8 ≤ (Ipv4Packet.payload whole.payload).length →
      f.admitsInfo parseCidr acl
        (pieceInfo whole groups ((Ipv4Packet.payload whole.payload).drop start)) isIn mine = true
  v6 : IsIpv6 PROTOCOL_UDP whole → 8 < (Ipv6Packet.payload whole.payload).length →
    f.admitsInfo parseCidr acl (fragmentInfo whole groups) isIn mine = true

/-! ## Reading a fragment -/

section

variable {parseCidr : CidrParser} {acl : AclConfig} {f : AclFilter} {env : AclEnv}
  {whole part : ZCPacket}
variable {isIn : Bool} {mine : AclFilter.MyAddrs} {groups : PeerId → List String}

variable {datagram : Bytes}

theorem admits_data (isData : part.header.packetType = PacketType.data.code) {info : PacketInfo}
    (extracted : AclFilter.extractPacketInfo part groups = some info) :
    f.admits parseCidr acl part isIn mine groups =
      (!f.aclEnabled || f.admitsInfo parseCidr acl info isIn mine) := by
  simp [AclFilter.admits, isData, extracted]

variable (cut : Cut datagram)

theorem Cut.length_eq :
    datagram.length = cut.before.length + cut.piece.length + cut.after.length := by
  have total := congrArg List.length cut.joined
  rw [List.length_append, List.length_append, ← Nat.add_assoc] at total
  exact total.symm

theorem Cut.drop_before : datagram.drop cut.before.length = cut.piece ++ cut.after :=
  (congrArg (List.drop cut.before.length) cut.joined).symm.trans List.drop_left

/-- The first piece has the header of the datagram. -/
theorem Cut.header (first : cut.before = []) : 8 ≤ cut.piece.length := by
  have more : cut.after ≠ [] := cut.proper.resolve_left (not_not_intro first)
  have positive := List.length_pos_iff.mpr cut.nonempty
  have aligned := cut.stop.resolve_right more
  omega

theorem Cut.long (cut : Cut datagram) : 8 < datagram.length := by
  have start := cut.start
  have total := cut.length_eq
  have positive := List.length_pos_iff.mpr cut.nonempty
  by_cases first : cut.before = []
  · have header := cut.header first
    have more := List.length_pos_iff.mpr (cut.proper.resolve_left (not_not_intro first))
    omega
  · have later := List.length_pos_iff.mpr first
    omega

theorem pieceInfo_append (whole : ZCPacket) (groups : PeerId → List String) {piece : Bytes}
    (header : 8 ≤ piece.length) (more : Bytes) :
    pieceInfo whole groups (piece ++ more) = pieceInfo whole groups piece := by
  have ports : sourcePort (piece ++ more) = sourcePort piece ∧
      destinationPort (piece ++ more) = destinationPort piece :=
    ⟨congrArg UInt16.ofNat (field_append_left (by omega)),
      congrArg UInt16.ofNat (field_append_left (by omega))⟩
  rw [pieceInfo, ports.1, ports.2]
  rfl

/-- A fragment over IPv4 passes if it is too short for ports, and else by its first bytes. -/
theorem FragmentV4.admits_eq {cut : Cut (Ipv4Packet.payload whole.payload)}
    (fragment : FragmentV4 whole cut part) :
    f.admits parseCidr acl part isIn mine groups =
      (!f.aclEnabled || decide (cut.piece.length < 8) ||
        f.admitsInfo parseCidr acl (pieceInfo whole groups cut.piece) isIn mine) := by
  by_cases header : 8 ≤ cut.piece.length
  · rw [admits_data fragment.isData
      (extractPacketInfo_udp fragment.toIsUdp (fragment.body ▸ header) groups),
      fragment.source, fragment.destination, fragment.body, fragment.sender, fragment.receiver,
      decide_eq_false (not_lt.mpr header), Bool.or_false]
    rfl
  · have short : ports PROTOCOL_UDP (Ipv4Packet.payload part.payload) = none := by
      rw [fragment.body]
      exact if_pos (not_le.mp header)
    have unread : AclFilter.extractPacketInfo part groups = none := by
      unfold AclFilter.extractPacketInfo
      dsimp only
      rw [if_neg (not_lt.mpr fragment.long), if_pos fragment.version, fragment.protocol, short]
      rfl
    simp [AclFilter.admits, unread, not_le.mp header]

theorem FragmentV6.admits_eq {cut : Cut (Ipv6Packet.payload whole.payload)}
    (fragment : FragmentV6 whole cut part) :
    f.admits parseCidr acl part isIn mine groups =
      (!f.aclEnabled || f.admitsInfo parseCidr acl (fragmentInfo whole groups) isIn mine) := by
  have minimum : ¬ part.payload.length < Ipv4Packet.minimumPacketSize :=
    not_lt.mpr (le_trans (by decide) fragment.long)
  have extracted : AclFilter.extractPacketInfo part groups =
      some { fragmentInfo whole groups with packetSize := part.payload.length } := by
    unfold AclFilter.extractPacketInfo
    rw [if_neg minimum, if_neg (by rw [fragment.version]; decide), if_pos fragment.version,
      if_neg (not_lt.mpr fragment.long), fragment.protocol, fragment.source, fragment.destination,
      fragment.sender, fragment.receiver]
    rfl
  rw [admits_data fragment.isData extracted]
  rfl

/-! ## Cutting a datagram -/

/-- Eight bytes from `start` on. -/
def Cut.at (datagram : Bytes) (start : Nat) (aligned : 8 ∣ start)
    (within : start + 8 ≤ datagram.length) (proper : 8 < datagram.length) : Cut datagram where
  before := datagram.take start
  piece := (datagram.drop start).take 8
  after := datagram.drop (start + 8)
  joined := by
    rw [← List.drop_drop, List.take_append_drop, List.take_append_drop]
  start := by
    rw [List.length_take, Nat.min_eq_left (by omega)]
    exact aligned
  stop := by
    left
    rw [List.length_take, List.length_drop, Nat.min_eq_left (by omega)]
  nonempty := by
    rw [← List.length_pos_iff, List.length_take, List.length_drop]
    omega
  proper := by
    rw [← List.length_pos_iff, ← List.length_pos_iff, List.length_take, List.length_drop]
    omega

/-- The packet of a piece over IPv4, with no identification. -/
def cutV4 (whole : ZCPacket) (start : Nat) (more : Bool) (piece : Bytes) : ZCPacket where
  header := whole.header
  payload :=
    [0x45, 0, 0, 28, 0, 0, .ofNat (start / 8 / 256 + if more then 32 else 0),
      .ofNat (start / 8 % 256)] ++ ((whole.payload.drop 8).take 12 ++ piece)

/-- The packet of a piece over IPv6, with no identification. -/
def cutV6 (whole : ZCPacket) (start : Nat) (more : Bool) (piece : Bytes) : ZCPacket where
  header := whole.header
  payload :=
    [0x60, 0, 0, 0, 0, 16, 44, 64] ++ ((whole.payload.drop 8).take 32 ++
      (fragmentHeader start more [0, 0, 0, 0] ++ piece))

theorem field_lt (data : Bytes) (start len : Nat) : field data start len < 256 ^ len := by
  let bytes := (data.drop start).take len
  have digits : field data start len = Nat.ofDigits 256 (bytes.map UInt8.toNat).reverse := by
    rw [Nat.ofDigits_eq_foldr, List.foldr_reverse, List.foldl_map]
    simp [field, bytes, Nat.add_comm, Nat.mul_comm]
  have bound : ∀ digit ∈ (bytes.map UInt8.toNat).reverse, digit < 256 := by
    simpa using fun byte _ => UInt8.toNat_lt byte
  rw [digits]
  refine (Nat.ofDigits_lt_base_pow_length (by decide) bound).trans_le ?_
  exact Nat.pow_le_pow_right (by decide) (by simp [bytes])

theorem field_first (byte : UInt8) (rest : Bytes) : field (byte :: rest) 0 1 = byte.toNat := by
  simp [field]

theorem payload_length_lt (data : Bytes) : (Ipv4Packet.payload data).length < 2 ^ 16 := by
  have total : Ipv4Packet.totalLength data < 2 ^ 16 := field_lt data 2 2
  unfold Ipv4Packet.payload
  simp only [List.length_drop, List.length_take]
  omega

theorem cutV4_fragment (udp : IsUdp whole) (cut : Cut (Ipv4Packet.payload whole.payload))
    (eight : cut.piece.length = 8) :
    FragmentV4 whole cut (cutV4 whole cut.before.length (!cut.after.isEmpty) cut.piece) := by
  have long : 20 ≤ whole.payload.length := udp.long
  have twelve : ((whole.payload.drop 8).take 12).length = 12 := by simp; omega
  have total := cut.length_eq
  have small := payload_length_lt whole.payload
  have aligned := cut.start
  have fragmentation : field (cutV4 whole cut.before.length (!cut.after.isEmpty) cut.piece).payload
      6 2 = cut.before.length / 8 + if !cut.after.isEmpty then 2 ^ 13 else 0 := by
    unfold cutV4
    rw [field_append_left (by simp)]
    simp only [field, List.drop_succ_cons, List.drop_zero, List.take_succ_cons, List.take_zero,
      List.foldl_cons, List.foldl_nil, UInt8.toNat_ofNat']
    split <;> omega
  refine ⟨⟨udp.isData, ?_, ?_, ?_⟩, ⟨rfl, rfl⟩, ?_, ?_, ?_, ?_, ?_⟩
  · simp [cutV4, Ipv4Packet.minimumPacketSize, twelve]
  · exact congrArg (· / 16) (field_first _ _)
  · exact (field_replaced rfl long (by decide) (by decide)).trans udp.protocol
  · exact congrArg (BitVec.ofNat 32) (field_replaced rfl long (by decide) (by decide))
  · exact congrArg (BitVec.ofNat 32) (field_replaced rfl long (by decide) (by decide))
  · refine payload_behind rfl twelve ?_ ?_
    · exact congrArg (· % 16) (field_first _ _)
    · unfold Ipv4Packet.totalLength
      rw [field_append_left (by simp), eight]
      exact le_rfl
  · unfold Ipv4Packet.fragmentOffset
    rw [fragmentation]
    split <;> omega
  · unfold Ipv4Packet.moreFragments
    rw [fragmentation, Nat.testBit_eq_decide_div_mod_eq]
    cases cut.after.isEmpty with
    | true => exact decide_eq_false (by simp; omega)
    | false => exact decide_eq_true (by simp; omega)

theorem cutV6_fragment (udp : IsIpv6 PROTOCOL_UDP whole)
    (cut : Cut (Ipv6Packet.payload whole.payload)) (eight : cut.piece.length = 8) :
    FragmentV6 whole cut (cutV6 whole cut.before.length (!cut.after.isEmpty) cut.piece) := by
  have long : 40 ≤ whole.payload.length := udp.long
  have addresses : ((whole.payload.drop 8).take 32).length = 32 := by simp; omega
  refine ⟨⟨udp.isData, ?_, ?_, ?_⟩, ⟨rfl, rfl⟩, ?_, ?_, [0, 0, 0, 0], rfl, ?_⟩
  · simp [cutV6, Ipv6Packet.minimumPacketSize, addresses]
  · exact congrArg (· / 16) (field_first _ _)
  · unfold Ipv6Packet.nextHeader cutV6
    rw [field_append_left (by simp)]
    rfl
  · exact congrArg (BitVec.ofNat 128) (field_replaced rfl long (by decide) (by decide))
  · exact congrArg (BitVec.ofNat 128) (field_replaced rfl long (by decide) (by decide))
  · have payloadLength : Ipv6Packet.payloadLength
        (cutV6 whole cut.before.length (!cut.after.isEmpty) cut.piece).payload = 16 := by
      unfold Ipv6Packet.payloadLength cutV6
      rw [field_append_left (by simp)]
      rfl
    unfold Ipv6Packet.payload
    rw [payloadLength, List.take_of_length_le (by simp [cutV6, fragmentHeader, addresses, eight,
      Ipv6Packet.minimumPacketSize])]
    unfold cutV6
    rw [← List.append_assoc, List.drop_left' (by simp [Ipv6Packet.minimumPacketSize, addresses])]

/-! ## Which datagrams get through in pieces -/

theorem passed_eq_admits (free : acl.WithoutLimits) {f' : AclFilter}
    (after : f.Continues parseCidr acl f') (env : AclEnv) (packet : ZCPacket) :
    passed (f'.processPacketWithAcl env packet isIn mine groups) =
      f.admits parseCidr acl packet isIn mine groups := by
  obtain ⟨_, answered, -⟩ :=
    AclFilter.processPacketWithAcl_admits free after.faithful env packet isIn mine groups
  rw [answered, passed, after.admits_eq]

theorem fragment_admitted (enabled : f.aclEnabled = true)
    (allowed : f.admits parseCidr acl whole isIn mine groups = true)
    (pieces : PiecesAllowed parseCidr acl f whole isIn mine groups)
    (fragment : FragmentOf whole part) : f.admits parseCidr acl part isIn mine groups = true := by
  cases fragment with
  | v4 udp unfragmented cut fragment =>
    have long := cut.long
    have total := cut.length_eq
    have behind := cut.drop_before
    rw [fragment.admits_eq, enabled]
    simp only [Bool.not_true, Bool.false_or, Bool.or_eq_true, decide_eq_true_eq]
    refine or_iff_not_imp_left.mpr fun header => ?_
    rw [not_lt] at header
    rw [← pieceInfo_append whole groups header cut.after, ← behind]
    by_cases first : cut.before = []
    · rw [admits_data udp.isData (extractPacketInfo_udp udp long.le groups), enabled] at allowed
      rw [first]
      exact allowed
    · exact pieces.v4 udp unfragmented _ (List.length_pos_iff.mpr first) cut.start (by omega)
  | v6 udp cut fragment =>
    rw [fragment.admits_eq, pieces.v6 udp cut.long, Bool.or_true]

/-- **An allowed datagram passes in pieces** exactly when the rules allow what its pieces look
like. For a configuration without rate limits, in every state of the filter and for both
directions: all fragments of a datagram that passes as one packet pass, then and later, if and
only if the ACL is off or `PiecesAllowed`. -/
theorem fragments_pass_iff (free : acl.WithoutLimits)
    (built : f.aclProcessor.BuiltFrom parseCidr acl)
    (allowed : passed (f.processPacketWithAcl env whole isIn mine groups) = true) :
    (∀ part, FragmentOf whole part → ∀ f', f.Continues parseCidr acl f' → ∀ later,
        passed (f'.processPacketWithAcl later part isIn mine groups) = true) ↔
      (f.aclEnabled = true → PiecesAllowed parseCidr acl f whole isIn mine groups) := by
  have here : f.Continues parseCidr acl f := ⟨built.faithful, rfl, rfl⟩
  rw [passed_eq_admits free here] at allowed
  constructor
  · intro all enabled
    have admitted : ∀ part, FragmentOf whole part →
        f.admits parseCidr acl part isIn mine groups = true := fun part fragment =>
      (passed_eq_admits free here env part).symm.trans (all part fragment f here env)
    refine ⟨fun udp unfragmented start positive aligned within => ?_, fun udp long => ?_⟩
    · let cut := Cut.at _ start aligned within (by omega)
      have eight : cut.piece.length = 8 := by simp [cut, Cut.at]; omega
      have place : cut.before.length = start := by simp [cut, Cut.at]; omega
      have fragment := cutV4_fragment udp cut eight
      have passes := admitted _ (.v4 udp unfragmented cut fragment)
      rw [fragment.admits_eq, enabled, eight] at passes
      rw [← place, cut.drop_before, pieceInfo_append _ _ eight.ge]
      exact passes
    · let cut := Cut.at _ 0 (by decide) (by omega) long
      have eight : cut.piece.length = 8 := by simp [cut, Cut.at]; omega
      have fragment := cutV6_fragment udp cut eight
      have passes := admitted _ (.v6 udp cut fragment)
      rw [fragment.admits_eq, enabled] at passes
      exact passes
  · intro condition part fragment f' after later
    rw [passed_eq_admits free after]
    cases enabled : f.aclEnabled with
    | false => simp [AclFilter.admits, enabled]
    | true => exact fragment_admitted enabled allowed (condition enabled) fragment

end

/-! ## Two queries in pieces -/

theorem dnsAcl_withoutLimits : dnsAcl.WithoutLimits := by
  intro chain listed rule mem
  rw [List.mem_singleton.mp listed] at mem
  rw [List.mem_singleton.mp mem]

def dnsFilter : AclFilter :=
  (AclFilter.new fun _ => none).reloadRules (fun _ => none) (some dnsAcl)

theorem dnsFilter_built : dnsFilter.aclProcessor.BuiltFrom (fun _ => none) dnsAcl := .start _ _ _

def dnsAddrs : AclFilter.MyAddrs := ⟨some 0x0a000001, none⟩

/-- A query for 10.0.0.1:53 with eight bytes of data. -/
def queryWith (body : Bytes) : ZCPacket :=
  packetFromPeer (ipv4Bytes 17 0 0 ([0x13, 0x88, 0, 53, 0, 16, 0, 0] ++ body))

/-- The data happens to spell port 53 where a destination port would be. -/
theorem lucky_query_in_pieces :
    passed (dnsFilter.processPacketWithAcl sampleEnv (queryWith [1, 2, 0, 53, 5, 6, 7, 8]) true
        dnsAddrs fun _ => []) = true ∧
      ∀ part, FragmentOf (queryWith [1, 2, 0, 53, 5, 6, 7, 8]) part → ∀ later,
        passed (dnsFilter.processPacketWithAcl later part true dnsAddrs fun _ => []) = true := by
  have allowed : passed (dnsFilter.processPacketWithAcl sampleEnv
      (queryWith [1, 2, 0, 53, 5, 6, 7, 8]) true dnsAddrs fun _ => []) = true := by decide +kernel
  refine ⟨allowed, fun part fragment later => ?_⟩
  refine (fragments_pass_iff dnsAcl_withoutLimits dnsFilter_built allowed).mpr (fun _ => ?_)
    part fragment dnsFilter ⟨dnsFilter_built.faithful, rfl, rfl⟩ later
  refine ⟨fun _ _ start positive aligned within => ?_, fun udp => ?_⟩
  · have length : (Ipv4Packet.payload (queryWith [1, 2, 0, 53, 5, 6, 7, 8]).payload).length =
        16 := by decide +kernel
    obtain rfl : start = 8 := by omega
    decide +kernel
  · have version : Ipv4Packet.version (queryWith [1, 2, 0, 53, 5, 6, 7, 8]).payload = 4 := by
      decide +kernel
    exact absurd (version.symm.trans udp.version) (by decide)

/-- The data of another query. -/
def queryData : Cut (Ipv4Packet.payload (queryWith [1, 2, 3, 4, 5, 6, 7, 8]).payload) :=
  .at _ 8 (by decide) (by decide +kernel) (by decide +kernel)

/-- That query is allowed as one packet, and its second fragment is dropped. -/
theorem second_fragment_dropped :
    dnsAcl.WithoutLimits ∧ dnsFilter.aclProcessor.BuiltFrom (fun _ => none) dnsAcl ∧
      passed (dnsFilter.processPacketWithAcl sampleEnv (queryWith [1, 2, 3, 4, 5, 6, 7, 8]) true
        dnsAddrs fun _ => []) = true ∧
      ∃ part, FragmentOf (queryWith [1, 2, 3, 4, 5, 6, 7, 8]) part ∧
        passed (dnsFilter.processPacketWithAcl sampleEnv part true dnsAddrs fun _ => []) =
          false := by
  have udp : IsUdp (queryWith [1, 2, 3, 4, 5, 6, 7, 8]) :=
    ⟨rfl, by decide, by decide +kernel, by decide +kernel⟩
  refine ⟨dnsAcl_withoutLimits, dnsFilter_built, by decide +kernel, _,
    .v4 udp (by decide +kernel) queryData (cutV4_fragment udp queryData (by decide +kernel)), ?_⟩
  decide +kernel

end PeerLink.Manager
