import PeerLink.Gateway.Reassembler

/-!
# Malformed packets from the NIC

The filters on packets from the NIC unwrap the views that the packet library gives them.
A packet that is cut short makes them panic; any other packet passes all of them, since
what they write into it does not change the lengths that the views depend on.
-/

namespace PeerLink.Gateway

open Packet

open Route (PeerId)

/-! ## What the views depend on -/

/-- The lengths and header fields by which a packet is parsed. -/
structure SameShape (data data' : Bytes) : Prop where
  length : data'.length = data.length
  head : data'.take 10 = data.take 10

namespace SameShape
variable {data data' data'' : Bytes}

theorem refl (data : Bytes) : SameShape data data := ⟨rfl, rfl⟩

theorem trans (first : SameShape data data') (second : SameShape data' data'') :
    SameShape data data'' :=
  ⟨second.length.trans first.length, second.head.trans first.head⟩

variable (same : SameShape data data')
include same

theorem field_eq {start len : Nat} (early : start + len ≤ 10) :
    field data' start len = field data start len := by
  have cut (bytes : Bytes) :
      (bytes.drop start).take len = ((bytes.take 10).drop start).take len := by
    rw [List.drop_take, List.take_take, Nat.min_eq_left (by omega)]
  unfold field
  rw [cut data', cut data, same.head]

theorem payloadStart_eq : payloadStart data' = payloadStart data := by
  simp [payloadStart, Ipv4Packet.headerLength, same.field_eq (show 0 + 1 ≤ 10 by decide)]

theorem version_eq : Ipv4Packet.version data' = Ipv4Packet.version data := by
  simp [Ipv4Packet.version, same.field_eq (show 0 + 1 ≤ 10 by decide)]

theorem nextLevelProtocol_eq :
    Ipv4Packet.nextLevelProtocol data' = Ipv4Packet.nextLevelProtocol data :=
  same.field_eq (by decide)

theorem payload_length_eq :
    (Ipv4Packet.payload data').length = (Ipv4Packet.payload data).length := by
  simp [Ipv4Packet.payload, Ipv4Packet.headerLength, Ipv4Packet.totalLength, same.length,
    same.field_eq (show 0 + 1 ≤ 10 by decide), same.field_eq (show 2 + 2 ≤ 10 by decide)]

end SameShape

variable {data bytes : Bytes}

theorem writeBytes_sameShape {start : Nat} (late : 10 ≤ start)
    (fits : start + bytes.length ≤ data.length) :
    SameShape data (writeBytes data start bytes) where
  length := length_writeBytes fits
  head := by
    simp only [writeBytes, List.append_assoc]
    rw [List.take_append_of_le_length (by simp; omega), List.take_take,
      Nat.min_eq_left late]

section
variable {data : Bytes} (whole : 20 ≤ data.length)
include whole

theorem setSource_sameShape (ip : Ipv4Addr) : SameShape data (setSource data ip) :=
  writeBytes_sameShape (by decide) (by simpa using by omega)

theorem setDestination_sameShape (ip : Ipv4Addr) : SameShape data (setDestination data ip) :=
  writeBytes_sameShape (by decide) (by simpa using by omega)

theorem updateIpPacketChecksum_sameShape (sums : Checksums) :
    SameShape data (updateIpPacketChecksum sums data) :=
  writeBytes_sameShape (by decide) (by simp; omega)

end

/-- A payload of some length lies behind the header. -/
theorem payloadStart_add_le {least : Nat} (positive : 0 < least)
    (long : least ≤ (Ipv4Packet.payload data).length) :
    payloadStart data + least ≤ data.length := by
  simp only [Ipv4Packet.payload, List.length_drop, List.length_take] at long
  unfold payloadStart
  omega

theorem payloadStart_ge (data : Bytes) : 20 ≤ payloadStart data := Nat.le_add_right _ _

theorem setTransport_sameShape {offset sumOffset : Nat}
    (checksum : Bytes → UInt16) (fits : payloadStart data + offset + bytes.length ≤ data.length)
    (sumFits : payloadStart data + sumOffset + 2 ≤ data.length) :
    SameShape data (setTransport data offset bytes sumOffset checksum) := by
  have start := payloadStart_ge data
  have first : SameShape data (writeBytes data (payloadStart data + offset) bytes) :=
    writeBytes_sameShape (by omega) fits
  refine first.trans (writeBytes_sameShape ?_ ?_)
  · rw [first.payloadStart_eq]
    omega
  · rw [first.payloadStart_eq, first.length]
    exact sumFits

/-- The header, or the TCP header in a TCP packet, is cut short. -/
def Malformed (data : Bytes) : Prop :=
  data.length < Ipv4Packet.minimumPacketSize ∨
    Ipv4Packet.version data = 4 ∧ Ipv4Packet.nextLevelProtocol data = PROTOCOL_TCP ∧
      (Ipv4Packet.payload data).length < 20

theorem SameShape.malformed_iff {data' : Bytes} (same : SameShape data data') :
    Malformed data' ↔ Malformed data := by
  simp [Malformed, same.length, same.version_eq, same.nextLevelProtocol_eq, same.payload_length_eq]

theorem not_malformed (long : ¬ data.length < Ipv4Packet.minimumPacketSize)
    (whole : ¬ (Ipv4Packet.payload data).length < 20) : ¬ Malformed data := by
  rintro (short | ⟨-, -, short⟩)
  · exact long short
  · exact whole short

/-! ## The filters -/

/-- The entry is stored under its own source, and stands for an IPv4 destination. -/
def NatDstEntry.KeyedBy (entry : NatDstEntry) (addr : SocketAddr) : Prop :=
  entry.src = addr ∧ ∃ ip, entry.mappedDst.1 = .v4 ip

/-- The tables of a TCP proxy hold what its asserts expect. -/
structure TcpProxy.NatKeyed (proxy : TcpProxy) : Prop where
  conns : ∀ addr entry, proxy.addrConnMap.lookup addr = some entry → entry.KeyedBy addr
  syns : ∀ addr entry, proxy.synMap.lookup addr = some entry → entry.KeyedBy addr

theorem TcpProxy.NatKeyed.natEntry {proxy : TcpProxy} (keyed : proxy.NatKeyed) {addr : SocketAddr}
    {entry : NatDstEntry} (found : proxy.natEntry addr = some entry) : entry.KeyedBy addr := by
  obtain conn | ⟨-, syn⟩ := Option.or_eq_some_iff.mp found
  · exact keyed.conns addr entry conn
  · exact keyed.syns addr entry syn

/-- A filter panics if `crashes`. Otherwise the packet keeps its shape, and a malformed one
is left alone. -/
structure NicBehaves (result : Option (ZCPacket × Bool)) (packet : ZCPacket) (crashes : Prop) :
    Prop where
  panics_iff : result = none ↔ crashes
  shape : ∀ packet' b, result = some (packet', b) → SameShape packet.payload packet'.payload
  left : Malformed packet.payload → ∀ packet' b, result = some (packet', b) →
    packet' = packet ∧ b = false

section
variable {crashes : Prop} {packet packet' : ZCPacket}

theorem nicBehaves_none (crash : crashes) : NicBehaves none packet crashes :=
  ⟨iff_of_true rfl crash, by simp, by simp⟩

theorem nicBehaves_left (fine : ¬ crashes) : NicBehaves (some (packet, false)) packet crashes where
  panics_iff := iff_of_false nofun fine
  shape _ _ result := by
    cases result
    exact .refl _
  left _ _ _ result := by
    cases result
    exact ⟨rfl, rfl⟩

theorem nicBehaves_taken (fine : ¬ crashes) (sound : ¬ Malformed packet.payload)
    (same : SameShape packet.payload packet'.payload) :
    NicBehaves (some (packet', true)) packet crashes where
  panics_iff := iff_of_false nofun fine
  shape _ _ result := by
    cases result
    exact same
  left malformed := absurd malformed sound

end

namespace TcpProxy
variable {proxy : TcpProxy} {packet : ZCPacket}

/-- The proxy has an address, and the packet is cut short where the proxy reads it. -/
def NicCrashes (proxy : TcpProxy) (data : Bytes) : Prop :=
  ∃ inet, proxy.getLocalInet = some inet ∧
    (data.length < Ipv4Packet.minimumPacketSize ∨
      Ipv4Packet.version data = 4 ∧ Ipv4Packet.source data = inet.address ∧
        Ipv4Packet.nextLevelProtocol data = PROTOCOL_TCP ∧
        (Ipv4Packet.payload data).length < 20)

theorem NicCrashes.malformed (crashes : proxy.NicCrashes data) : Malformed data := by
  obtain ⟨inet, -, short | ⟨ipv4, -, tcp, short⟩⟩ := crashes
  · exact .inl short
  · exact .inr ⟨ipv4, tcp, short⟩

theorem rewritePacket_sameShape (sums : Checksums) (me : PeerId) (ip : Ipv4Addr) (port : UInt16)
    (backTo : Option Ipv4Addr) (long : 20 ≤ packet.payload.length)
    (whole : 20 ≤ (Ipv4Packet.payload packet.payload).length) :
    SameShape packet.payload (rewritePacket sums me packet ip port backTo).payload := by
  have room := payloadStart_add_le (by decide) whole
  have finished {data : Bytes} (same : SameShape packet.payload data) (checksum : Bytes → UInt16) :
      SameShape packet.payload (updateIpPacketChecksum sums (setPort data 0 port 16 checksum)) := by
    have ported : SameShape data (setPort data 0 port 16 checksum) := by
      apply setTransport_sameShape <;> rw [same.payloadStart_eq, same.length]
      · simp only [List.length_cons, List.length_nil]
        omega
      · omega
    refine (same.trans ported).trans (updateIpPacketChecksum_sameShape ?_ sums)
    rw [ported.length, same.length]
    exact long
  have source := setSource_sameShape long ip
  cases backTo with
  | none => exact finished source _
  | some myIpv4 =>
    have destination := @setDestination_sameShape (setSource packet.payload ip)
      (by rw [source.length]; exact long) myIpv4
    exact finished (source.trans destination) _

theorem tryProcessPacketFromNic_behaves (keyed : proxy.NatKeyed) (sums : Checksums) (me : PeerId)
    (packet : ZCPacket) :
    NicBehaves (proxy.tryProcessPacketFromNic sums me packet) packet
      (proxy.NicCrashes packet.payload) := by
  unfold tryProcessPacketFromNic
  cases located : proxy.getLocalInet with
  | none => exact nicBehaves_left (by simp [NicCrashes, located])
  | some inet =>
    dsimp only
    split
    · rename_i short
      exact nicBehaves_none ⟨inet, located, .inl short⟩
    · rename_i long
      split
      · rename_i other
        refine nicBehaves_left ?_
        rintro ⟨inet', located', short | ⟨ipv4, mine, tcp, -⟩⟩
        · exact long short
        · cases located.symm.trans located'
          simp [ipv4, mine, tcp] at other
      · rename_i mine
        have fields : Ipv4Packet.version packet.payload = 4 ∧
            Ipv4Packet.source packet.payload = inet.address ∧
            Ipv4Packet.nextLevelProtocol packet.payload = PROTOCOL_TCP := by
          simpa using mine
        split
        · rename_i short
          exact nicBehaves_none ⟨inet, located, .inr ⟨fields.1, fields.2.1, fields.2.2, short⟩⟩
        · rename_i whole
          have sound := not_malformed long whole
          have fine : ¬ proxy.NicCrashes packet.payload := fun crashes => sound crashes.malformed
          split
          · exact nicBehaves_left fine
          · split
            · exact nicBehaves_left fine
            · rename_i entry found
              obtain ⟨src, ip, mapped⟩ := keyed.natEntry found
              rw [if_neg (not_not.mpr src), mapped]
              exact nicBehaves_taken fine sound
                (rewritePacket_sameShape sums me ip _ _ (not_lt.mp long) (not_lt.mp whole))

end TcpProxy

theorem TcpProxyForSrc.tryTakeOver_behaves (proxy : TcpProxyForSrc) (me : PeerId)
    (packet : ZCPacket) :
    NicBehaves (proxy.tryTakeOver me packet) packet (Malformed packet.payload) := by
  unfold tryTakeOver
  dsimp only
  split
  · rename_i short
    exact nicBehaves_none (.inl short)
  · rename_i long
    split
    · rename_i other
      refine nicBehaves_left ?_
      rintro (short | ⟨ipv4, tcp, -⟩)
      · exact long short
      · simp [ipv4, tcp] at other
    · rename_i tcp
      split
      · rename_i short
        exact nicBehaves_none (.inr ⟨by simp_all, by simp_all, short⟩)
      · rename_i whole
        have sound := not_malformed long whole
        split
        · exact nicBehaves_left sound
        · exact nicBehaves_taken sound sound (.refl _)

theorem TcpProxyForSrc.tryProcessPacketFromNic_behaves {proxy : TcpProxyForSrc}
    (keyed : proxy.tcpProxy.NatKeyed) (sums : Checksums) (me : PeerId) (packet : ZCPacket) :
    NicBehaves (proxy.tryProcessPacketFromNic sums me packet) packet
      (Malformed packet.payload) := by
  have tcp := TcpProxy.tryProcessPacketFromNic_behaves keyed sums me packet
  unfold tryProcessPacketFromNic
  cases answered : proxy.tcpProxy.tryProcessPacketFromNic sums me packet with
  | none => exact nicBehaves_none (tcp.panics_iff.mp answered).malformed
  | some result =>
    obtain ⟨packet', taken⟩ := result
    have shape := tcp.shape packet' taken answered
    cases taken with
    | true =>
      have sound : ¬ Malformed packet.payload := fun malformed =>
        nomatch (tcp.left malformed packet' true answered).2
      exact nicBehaves_taken sound sound shape
    | false =>
      have rest := proxy.tryTakeOver_behaves me packet'
      refine ⟨rest.panics_iff.trans shape.malformed_iff,
        fun p b result => shape.trans (rest.shape p b result), fun malformed => ?_⟩
      obtain ⟨rfl, -⟩ := tcp.left malformed packet' false answered
      exact rest.left malformed

namespace MagicDns
variable {dns : MagicDns} {data data' : Bytes}

theorem translatePort_sameShape {localPort : Option UInt16} {least sumOffset : Nat}
    {checksum : Bytes → UInt16} (ports : 4 ≤ least) (sum : sumOffset + 2 ≤ least)
    (translated : translatePort localPort least sumOffset checksum data = some data') :
    SameShape data data' ∧ least ≤ (Ipv4Packet.payload data).length := by
  obtain ⟨port, -, translated⟩ := Option.bind_eq_some_iff.mp translated
  dsimp only at translated
  split at translated
  · cases translated
  · rename_i whole
    have whole := not_lt.mp whole
    have room := payloadStart_add_le (by omega) whole
    have fits {offset : Nat} (early : offset + 2 ≤ least) (port : UInt16) :
        SameShape data (setPort data offset port sumOffset checksum) := by
      apply setTransport_sameShape
      · simp only [List.length_cons, List.length_nil]
        omega
      · omega
    split at translated
    · cases translated
      exact ⟨fits (by omega) port, whole⟩
    · split at translated
      · cases translated
        exact ⟨fits (by omega) 53, whole⟩
      · cases translated

theorem echoReply_sameShape {checksum : Bytes → UInt16}
    (replied : echoReply checksum data = some data') : SameShape data data' := by
  unfold echoReply at replied
  dsimp only at replied
  split at replied
  · cases replied
  · rename_i echo
    cases replied
    have room : payloadStart data + 4 ≤ data.length :=
      payloadStart_add_le (by decide) (by omega)
    apply setTransport_sameShape
    · simp only [List.length_cons, List.length_nil]
      omega
    · omega

/-- A packet that the server answers is whole. -/
theorem translate_sameShape {sums : Checksums} (translated : dns.translate sums data = some data') :
    SameShape data data' ∧ (Ipv4Packet.nextLevelProtocol data = PROTOCOL_TCP →
      20 ≤ (Ipv4Packet.payload data).length) := by
  unfold translate at translated
  dsimp only at translated
  split at translated
  · rename_i udp
    refine ⟨(translatePort_sameShape (by decide) (by decide) translated).1, fun tcp => ?_⟩
    rw [udp] at tcp
    cases tcp
  · split at translated
    · obtain ⟨shape, whole⟩ := translatePort_sameShape (by decide) (by decide) translated
      exact ⟨shape, fun _ => whole⟩
    · rename_i other
      split at translated
      · exact ⟨echoReply_sameShape translated, fun tcp => absurd tcp other⟩
      · cases translated

theorem tryProcessPacketFromNic_behaves (dns : MagicDns) (sums : Checksums) (me : PeerId)
    (packet : ZCPacket) :
    NicBehaves (dns.tryProcessPacketFromNic sums me packet) packet
      (packet.payload.length < Ipv4Packet.minimumPacketSize) := by
  unfold tryProcessPacketFromNic
  dsimp only
  split
  · rename_i short
    exact nicBehaves_none short
  · rename_i long
    split
    · exact nicBehaves_left long
    · split
      · exact nicBehaves_left long
      · rename_i data translated
        obtain ⟨shape, whole⟩ := translate_sameShape translated
        have long' : 20 ≤ packet.payload.length := not_lt.mp long
        refine nicBehaves_taken long ?_ ?_
        · rintro (short | ⟨-, tcp, short⟩)
          · exact long short
          · exact absurd (whole tcp) (not_le.mpr short)
        · have source := setSource_sameShape (shape.length ▸ long') dns.fakeIp
          have destination := setDestination_sameShape
            (source.length ▸ shape.length ▸ long') dns.tunIp
          have checked := updateIpPacketChecksum_sameShape
            (destination.length ▸ source.length ▸ shape.length ▸ long') sums
          exact ((shape.trans source).trans destination).trans checked

end MagicDns

/-! ## The pipeline -/

namespace NicFilter

/-- The tables of the filter's TCP proxy hold what its asserts expect. -/
def NatKeyed : NicFilter → Prop
  | tcpProxy proxy => proxy.NatKeyed
  | srcProxy proxy => proxy.tcpProxy.NatKeyed
  | magicDns _ => True

/-- The payload makes the filter panic. -/
def Crashes (data : Bytes) : NicFilter → Prop
  | tcpProxy proxy => proxy.NicCrashes data
  | srcProxy _ => Malformed data
  | magicDns _ => data.length < Ipv4Packet.minimumPacketSize

theorem Crashes.malformed {f : NicFilter} (crashes : f.Crashes data) :
    Malformed data := by
  cases f with
  | tcpProxy proxy => exact TcpProxy.NicCrashes.malformed crashes
  | srcProxy proxy => exact crashes
  | magicDns dns => exact .inl crashes

theorem tryProcessPacketFromNic_behaves {f : NicFilter} (keyed : f.NatKeyed) (sums : Checksums)
    (me : PeerId) (packet : ZCPacket) :
    NicBehaves (f.tryProcessPacketFromNic sums me packet) packet (f.Crashes packet.payload) := by
  cases f with
  | tcpProxy proxy => exact TcpProxy.tryProcessPacketFromNic_behaves keyed sums me packet
  | srcProxy proxy => exact TcpProxyForSrc.tryProcessPacketFromNic_behaves keyed sums me packet
  | magicDns dns => exact dns.tryProcessPacketFromNic_behaves sums me packet

end NicFilter

/-- **Packets from the NIC.** The pipeline panics just if the packet as it came in makes one
of the filters panic. -/
theorem runNicFilters_eq_none_iff {filters : List NicFilter} (keyed : ∀ f ∈ filters, f.NatKeyed)
    (sums : Checksums) (me : PeerId) (packet : ZCPacket) :
    runNicFilters filters sums me packet = none ↔
      ∃ f ∈ filters, f.Crashes packet.payload := by
  have reversed (ran : List NicFilter) (keyed : ∀ f ∈ ran, f.NatKeyed) (packet : ZCPacket) :
      ran.foldlM (fun packet f => (f.tryProcessPacketFromNic sums me packet).map (·.1)) packet =
        none ↔ ∃ f ∈ ran, f.Crashes packet.payload := by
    induction ran generalizing packet with
    | nil => simp
    | cons f rest ih =>
      have behaves := NicFilter.tryProcessPacketFromNic_behaves
        (keyed f List.mem_cons_self) sums me packet
      have later := ih fun f mem => keyed f (List.mem_cons_of_mem _ mem)
      rw [List.foldlM_cons]
      cases answered : f.tryProcessPacketFromNic sums me packet with
      | none => simp [behaves.panics_iff.mp answered]
      | some result =>
        obtain ⟨packet', b⟩ := result
        have fine : ¬ f.Crashes packet.payload := fun crashes => by
          rw [behaves.panics_iff.mpr crashes] at answered
          cases answered
        simp only [Option.map_some, Option.bind_eq_bind, Option.bind_some, later,
          List.exists_mem_cons_iff, fine, false_or]
        by_cases malformed : Malformed packet.payload
        · obtain ⟨rfl, -⟩ := behaves.left malformed packet' b answered
          exact .rfl
        · have shape := behaves.shape packet' b answered
          refine iff_of_false ?_ ?_ <;> rintro ⟨g, -, crashes⟩
          · exact malformed (shape.malformed_iff.mp crashes.malformed)
          · exact malformed crashes.malformed
  rw [runNicFilters, reversed _ (by simpa using keyed)]
  simp

end PeerLink.Gateway
