import PeerLink.Gateway.Fragments
import PeerLink.Gateway.TcpNat

/-!
# Replies of the TCP proxy

A packet of a proxied connection leaves the node with the destination that the client dialled as
its source. The proxy finds that destination by the client's socket alone: in `addr_conn_map`,
and else in `syn_map`. A client socket has one place in each, whatever it dials.
-/

namespace PeerLink.Gateway

open Packet Schedule

open Route (PeerId)

/-! ## Reading a rewritten packet -/

variable {data bytes : Bytes} {start len place : Nat} {sums : Checksums} {me : PeerId}
  {packet : ZCPacket}

theorem field_congr {data' : Bytes}
    (same : ∀ i, start ≤ i → i < start + len → data'[i]? = data[i]?) :
    field data' start len = field data start len := by
  unfold field
  have cut : (data'.drop start).take len = (data.drop start).take len := by
    apply List.ext_getElem?
    intro i
    by_cases within : i < len
    · rw [List.getElem?_take_of_lt within, List.getElem?_take_of_lt within, List.getElem?_drop,
        List.getElem?_drop, same (start + i) (by omega) (by omega)]
    · rw [List.getElem?_take_eq_none (by omega), List.getElem?_take_eq_none (by omega)]
  rw [cut]

theorem field_writeBytes_apart (fits : place + bytes.length ≤ data.length)
    (apart : start + len ≤ place ∨ place + bytes.length ≤ start) :
    field (writeBytes data place bytes) start len = field data start len := by
  apply field_congr
  intro i after before
  rw [getElem?_writeBytes fits, if_neg (by omega)]

theorem field_writeBytes_self (fits : place + bytes.length ≤ data.length) :
    field (writeBytes data place bytes) place bytes.length =
      bytes.foldl (fun n byte => n * 256 + byte.toNat) 0 := by
  have before : (data.take place).length = place := by rw [List.length_take]; omega
  unfold field writeBytes
  rw [List.append_assoc, List.drop_left' before, List.take_left]

/-- A field of the payload, read in the packet. -/
theorem field_payload (within : start + len ≤ (Ipv4Packet.payload data).length) :
    field (Ipv4Packet.payload data) start len = field data (payloadStart data + start) len := by
  unfold Ipv4Packet.payload at within ⊢
  simp only [List.length_drop, List.length_take] at within
  unfold field payloadStart
  simp only [List.drop_drop, List.drop_take, List.take_take]
  rw [Nat.min_eq_left (by omega)]

theorem ofNat_ipv4Bytes (ip : Ipv4Addr) :
    BitVec.ofNat 32 (([24, 16, 8, 0].map fun shift : Nat =>
      (⟨(ip >>> shift).setWidth 8⟩ : UInt8)).foldl
        (fun n byte => n * 256 + byte.toNat) 0) = ip := by
  apply BitVec.eq_of_toNat_eq
  simp only [List.map_cons, List.map_nil, List.foldl_cons, List.foldl_nil, UInt8.toNat,
    BitVec.toNat_setWidth, BitVec.toNat_ushiftRight, Nat.shiftRight_eq_div_pow,
    BitVec.toNat_ofNat]
  omega

theorem ofNat_portBytes (port : UInt16) :
    UInt16.ofNat ([(port >>> 8).toUInt8, port.toUInt8].foldl
      (fun n byte => n * 256 + byte.toNat) 0) = port := by
  apply UInt16.toNat_inj.mp
  have small : port.toNat < 2 ^ 16 := port.toNat_lt
  simp only [List.foldl_cons, List.foldl_nil, UInt16.toNat_toUInt8, UInt16.toNat_ofNat',
    UInt16.toNat_shiftRight, UInt16.toNat_ofNat, Nat.shiftRight_eq_div_pow, Nat.reducePow,
    Nat.reduceMod]
  omega

variable {port : UInt16} {checksum : Bytes → UInt16}

section
variable (room : payloadStart data + 20 ≤ data.length)
include room

/-- The source port and both checksums are written into a packet with a TCP header. -/
theorem ported_writes :
    ∃ sum ipSum : Bytes, sum.length = 2 ∧ ipSum.length = 2 ∧
      updateIpPacketChecksum sums (setPort data 0 port 16 checksum) =
        writeBytes (writeBytes (writeBytes data (payloadStart data)
          [(port >>> 8).toUInt8, port.toUInt8]) (payloadStart data + 16) sum) 10 ipSum := by
  have base := payloadStart_ge data
  have shape : SameShape data (writeBytes data (payloadStart data)
      [(port >>> 8).toUInt8, port.toUInt8]) := by
    apply writeBytes_sameShape
    · omega
    · simp only [List.length_cons, List.length_nil]
      omega
  unfold updateIpPacketChecksum setPort setTransport writeU16
  dsimp only
  rw [Nat.add_zero, shape.payloadStart_eq]
  exact ⟨_, _, rfl, rfl, rfl⟩

/-- Before the checksum of TCP only the port is new. -/
theorem field_ported (header : 12 ≤ start) (before : start + len ≤ payloadStart data + 16) :
    field (updateIpPacketChecksum sums (setPort data 0 port 16 checksum)) start len =
      field (writeBytes data (payloadStart data) [(port >>> 8).toUInt8, port.toUInt8])
        start len := by
  have base := payloadStart_ge data
  obtain ⟨sum, ipSum, two, two', written⟩ := @ported_writes data sums port checksum room
  have first : (writeBytes data (payloadStart data)
      [(port >>> 8).toUInt8, port.toUInt8]).length = data.length :=
    length_writeBytes (by simp only [List.length_cons, List.length_nil]; omega)
  have second := @length_writeBytes _ sum (payloadStart data + 16) (by rw [first, two]; omega)
  rw [written, field_writeBytes_apart (by rw [second, first, two']; omega) (by omega),
    field_writeBytes_apart (by rw [first, two]; omega) (by omega)]

end

/-- The destination of an IPv4 packet, and the port there. -/
def dstOf (data : Bytes) : SocketAddr :=
  (.v4 (Ipv4Packet.destination data), destinationPort (Ipv4Packet.payload data))

variable {ip : Ipv4Addr}

theorem ported_reads (whole : 20 ≤ (Ipv4Packet.payload data).length) :
    PeerTcpProxy.srcOf (updateIpPacketChecksum sums (setPort data 0 port 16 checksum)) =
        (.v4 (Ipv4Packet.source data), port) ∧
      dstOf (updateIpPacketChecksum sums (setPort data 0 port 16 checksum)) = dstOf data := by
  have base := payloadStart_ge data
  have room := payloadStart_add_le (by decide) whole
  have ported : SameShape data (setPort data 0 port 16 checksum) := by
    apply setTransport_sameShape
    · simp only [List.length_cons, List.length_nil]
      omega
    · omega
  have shape := ported.trans (updateIpPacketChecksum_sameShape (by rw [ported.length]; omega) sums)
  have whole' := shape.payload_length_eq.symm ▸ whole
  have fits : payloadStart data + [(port >>> 8).toUInt8, port.toUInt8].length ≤ data.length := by
    simp only [List.length_cons, List.length_nil]
    omega
  have two := @field_writeBytes_self data [(port >>> 8).toUInt8, port.toUInt8] _ fits
  have others := @field_writeBytes_apart data [(port >>> 8).toUInt8, port.toUInt8]
  simp only [List.length_cons, List.length_nil] at fits two others
  unfold PeerTcpProxy.srcOf dstOf Ipv4Packet.source Ipv4Packet.destination sourcePort
    destinationPort
  rw [field_payload (by omega), field_payload (by omega), field_payload (by omega),
    shape.payloadStart_eq, Nat.add_zero, field_ported room (by omega) (by omega),
    field_ported room (by omega) (by omega), field_ported room (by omega) (by omega),
    field_ported room (by omega) (by omega), two, ofNat_portBytes, others fits (by omega),
    others fits (by omega), others fits (by omega)]
  exact ⟨rfl, rfl⟩

/-- An address is written into the header of a TCP packet. -/
theorem writeIpv4_reads {place : Nat} (header : 12 ≤ place ∧ place ≤ 16)
    (whole : 20 ≤ (Ipv4Packet.payload data).length) :
    SameShape data (writeIpv4 data place ip) ∧
      BitVec.ofNat 32 (field (writeIpv4 data place ip) place 4) = ip ∧
      (∀ start, start + 4 ≤ place ∨ place + 4 ≤ start →
        field (writeIpv4 data place ip) start 4 = field data start 4) ∧
      destinationPort (Ipv4Packet.payload (writeIpv4 data place ip)) =
        destinationPort (Ipv4Packet.payload data) := by
  have base := payloadStart_ge data
  have room := payloadStart_add_le (by decide) whole
  have fits : place + ([24, 16, 8, 0].map fun shift : Nat =>
      (⟨(ip >>> shift).setWidth 8⟩ : UInt8)).length ≤ data.length := by
    simp only [List.length_map, List.length_cons, List.length_nil]
    omega
  have shape : SameShape data (writeIpv4 data place ip) := writeBytes_sameShape (by omega) fits
  refine ⟨shape, ?_, fun start apart => field_writeBytes_apart fits apart, ?_⟩
  · exact (congrArg (BitVec.ofNat 32) (field_writeBytes_self fits)).trans (ofNat_ipv4Bytes ip)
  · have whole' := shape.payload_length_eq.symm ▸ whole
    unfold destinationPort
    rw [field_payload (by omega), field_payload (by omega), shape.payloadStart_eq]
    exact congrArg UInt16.ofNat (field_writeBytes_apart fits (by
      simp only [List.length_map, List.length_cons, List.length_nil]
      omega))

/-- What is read of a rewritten packet: the new source, and the client as before, or at the
node's own address. -/
theorem TcpProxy.rewritePacket_reads {port : UInt16} {backTo : Option Ipv4Addr}
    (whole : 20 ≤ (Ipv4Packet.payload packet.payload).length) :
    PeerTcpProxy.srcOf (rewritePacket sums me packet ip port backTo).payload = (.v4 ip, port) ∧
      dstOf (rewritePacket sums me packet ip port backTo).payload =
        (.v4 (backTo.getD (Ipv4Packet.destination packet.payload)),
          destinationPort (Ipv4Packet.payload packet.payload)) := by
  obtain ⟨shape, source, others, dstPort⟩ :=
    @writeIpv4_reads packet.payload ip 12 (by decide) whole
  have whole' := shape.payload_length_eq.symm ▸ whole
  cases backTo with
  | none =>
    obtain ⟨src, dst⟩ := @ported_reads (setSource packet.payload ip) sums port
      (sums.tcp · ip (Ipv4Packet.destination (setSource packet.payload ip))) whole'
    refine ⟨src.trans ?_, dst.trans ?_⟩
    · exact congrArg (fun addr => (IpAddr.v4 addr, port)) source
    · unfold dstOf Ipv4Packet.destination setSource
      rw [others 16 (by decide), dstPort]
      rfl
  | some myIpv4 =>
    obtain ⟨shape', destination, others', dstPort'⟩ :=
      @writeIpv4_reads (setSource packet.payload ip) myIpv4 16 (by decide) whole'
    have whole'' := shape'.payload_length_eq.symm ▸ whole'
    obtain ⟨src, dst⟩ := @ported_reads (setDestination (setSource packet.payload ip) myIpv4) sums
      port (sums.tcp · ip (Ipv4Packet.destination
        (setDestination (setSource packet.payload ip) myIpv4))) whole''
    refine ⟨src.trans ?_, dst.trans ?_⟩
    · unfold Ipv4Packet.source setDestination
      rw [others' 12 (by decide)]
      exact congrArg (fun addr => (IpAddr.v4 addr, port)) source
    · exact congrArg₂ (fun addr port => (IpAddr.v4 addr, port)) destination (dstPort'.trans dstPort)

/-- A packet that the proxy rewrites goes to a client that has an entry, with the mapped
destination of that entry as its source. -/
theorem TcpProxy.tryProcessPacketFromNic_sent {proxy : TcpProxy}
    {out : ZCPacket} (sent : proxy.tryProcessPacketFromNic sums me packet = some (out, true)) :
    ∃ entry, proxy.natEntry (dstOf out.payload) = some entry ∧
      PeerTcpProxy.srcOf out.payload = (entry.mappedDst.1, entry.realDst.2) := by
  unfold tryProcessPacketFromNic at sent
  split at sent
  · cases sent
  · rename_i inet located
    dsimp only at sent
    split at sent
    · cases sent
    split at sent
    · cases sent
    split at sent
    · cases sent
    rename_i whole
    split at sent
    · cases sent
    generalize (if (!proxy.enableSmoltcp && Ipv4Packet.destination packet.payload ==
      getFakeLocalIpv4 inet) = true then some inet.address else none) = backTo at sent
    split at sent
    · cases sent
    rename_i entry found
    split at sent
    · cases sent
    split at sent
    · cases sent
    rename_i ip mapped
    cases sent
    obtain ⟨src, dst⟩ := @rewritePacket_reads sums me packet ip entry.realDst.2 backTo
      (not_lt.mp whole)
    exact ⟨entry, by rw [dst]; exact found, by rw [src, mapped]⟩

/-! ## The tables that the filters see -/

/-- The entries without ids and times. -/
def plainEntries (m : AList fun _ : SocketAddr => NatEntry) :
    AList fun _ : SocketAddr => NatDstEntry :=
  ⟨m.entries.map (.map id fun _ entry => entry.toNatDstEntry), m.nodupKeys.map₂ _ _⟩

theorem lookup_plainEntries (m : AList fun _ : SocketAddr => NatEntry) (addr : SocketAddr) :
    (plainEntries m).lookup addr = (m.lookup addr).map NatEntry.toNatDstEntry :=
  List.dlookup_map₂ addr

namespace TcpNat

/-- A proxy with the tables of `nat`. -/
def view (nat : TcpNat) (proxy : TcpProxy) : TcpProxy :=
  { proxy with
    addrConnMap := plainEntries nat.addrConnMap
    synMap := plainEntries nat.synMap }

/-- The entry that stands for a client: an accepted connection before a SYN. -/
def front (nat : TcpNat) (addr : SocketAddr) : Option NatEntry :=
  (nat.addrConnMap.lookup addr).or (nat.synMap.lookup addr)

theorem natEntry_view (nat : TcpNat) (proxy : TcpProxy) (addr : SocketAddr) :
    (nat.view proxy).natEntry addr = (nat.front addr).map NatEntry.toNatDstEntry := by
  unfold TcpProxy.natEntry view front
  rw [lookup_plainEntries, lookup_plainEntries]
  cases nat.addrConnMap.lookup addr <;> rfl

end TcpNat

/-! ## Replies in a run -/

/-- The port is the same on both sides of the mapping. -/
theorem opened_ports {events : List TcpNatEvent} {entry : NatEntry} (mem : entry ∈ opened events) :
    ∃ ip, entry.mappedDst = (.v4 ip, entry.realDst.2) := by
  obtain ⟨event, -, opens⟩ := List.mem_filterMap.mp mem
  cases event with
  | syn id now syn =>
    cases opens
    exact ⟨syn.dstIp, rfl⟩
  | accept | proceed | clean | task => cases opens

section

variable {events : List TcpNatEvent} {pool : TcpNatPool} {entry other : NatEntry}

variable {proxy : TcpProxy} {out : ZCPacket}

theorem TcpNatPool.Ok.front {entries : List NatEntry} (ok : pool.Ok entries) {addr : SocketAddr}
    (found : pool.shared.front addr = some entry) : entry ∈ entries ∧ entry.src = addr := by
  obtain conn | ⟨-, syn⟩ := Option.or_eq_some_iff.mp found
  · exact ok.sound.shared.conn addr entry conn
  · exact (ok.sound.shared.syn addr entry syn).imp_right And.left

section
variable (distinct : ((opened events).map NatEntry.id).Nodup)
  (ran : final TcpNatPool.step .new events = some pool)
include distinct ran

theorem run_ok : pool.Ok (opened events) := by
  obtain ⟨_, ran', ok⟩ := TcpNatPool.Ok.new.run events distinct
  cases ran.symm.trans ran'
  exact ok

/-- What the filter for packets from the NIC asserts of its tables. -/
theorem run_natKeyed (proxy : TcpProxy) : (pool.shared.view proxy).NatKeyed := by
  have ok := run_ok distinct ran
  have keyed {addr : SocketAddr} {entry : NatEntry} (mem : entry ∈ opened events)
      (src : entry.src = addr) : entry.toNatDstEntry.KeyedBy addr := by
    obtain ⟨ip, mapped⟩ := opened_ports mem
    exact ⟨src, ip, congrArg Prod.fst mapped⟩
  constructor
  all_goals
    intro addr plain found
    change (plainEntries _).lookup addr = _ at found
    rw [lookup_plainEntries] at found
    obtain ⟨entry, here, rfl⟩ := Option.map_eq_some_iff.mp found
  · obtain ⟨mem, src⟩ := ok.sound.shared.conn addr entry here
    exact keyed mem src
  · obtain ⟨mem, src, -⟩ := ok.sound.shared.syn addr entry here
    exact keyed mem src

/-- **The proxy's asserts hold in every run**: it panics just at packets that are cut short. -/
theorem run_panics_iff (proxy : TcpProxy) (sums : Checksums) (me : PeerId) (packet : ZCPacket) :
    (pool.shared.view proxy).tryProcessPacketFromNic sums me packet = none ↔
      proxy.NicCrashes packet.payload :=
  (TcpProxy.tryProcessPacketFromNic_behaves (run_natKeyed distinct ran proxy) sums me
    packet).panics_iff

variable
  (sent : (pool.shared.view proxy).tryProcessPacketFromNic sums me packet = some (out, true))
include sent

/-- A reply goes out with the mapped destination of the entry in front. -/
theorem reply_front :
    ∃ entry ∈ opened events, pool.shared.front (dstOf out.payload) = some entry ∧
      entry.src = dstOf out.payload ∧ PeerTcpProxy.srcOf out.payload = entry.mappedDst := by
  obtain ⟨plain, found, source⟩ := TcpProxy.tryProcessPacketFromNic_sent sent
  rw [TcpNat.natEntry_view] at found
  obtain ⟨entry, here, rfl⟩ := Option.map_eq_some_iff.mp found
  obtain ⟨mem, src⟩ := (run_ok distinct ran).front here
  obtain ⟨ip, mapped⟩ := opened_ports mem
  exact ⟨entry, mem, here, src, by rw [source, mapped]⟩

end

/-- No connection to another destination stands before this one: the accepted connection that the
client's socket has an entry for goes to the same destination, and if there is none, so does the
last SYN that is kept for the socket. -/
structure TcpNat.Undisturbed (nat : TcpNat) (entry : NatEntry) : Prop where
  accepted : ∀ other, nat.addrConnMap.lookup entry.src = some other →
    other.mappedDst = entry.mappedDst
  waiting : nat.addrConnMap.lookup entry.src = none → ∀ other,
    nat.synMap.lookup entry.src = some other → other.mappedDst = entry.mappedDst

theorem TcpNat.undisturbed_iff {nat : TcpNat} (found : nat.front entry.src = some other) :
    nat.Undisturbed entry ↔ other.mappedDst = entry.mappedDst := by
  obtain conn | ⟨none, syn⟩ := Option.or_eq_some_iff.mp found
  · constructor
    · intro undisturbed
      exact undisturbed.accepted other conn
    · intro same
      refine ⟨fun another found => ?_, fun none => ?_⟩
      · cases conn.symm.trans found
        exact same
      · cases conn.symm.trans none
  · constructor
    · intro undisturbed
      exact undisturbed.waiting none other syn
    · intro same
      refine ⟨fun another found => ?_, fun _ another found => ?_⟩
      · cases none.symm.trans found
      · cases syn.symm.trans found
        exact same

/-- **Replies carry the destination that the client dialled** exactly when no connection of the
same socket to another destination stands before theirs: after any run, for every connection that a
SYN of the run has opened, and for every packet that the proxy sends to its client. A client that
dials one destination per socket gets its replies from there. -/
theorem reply_source_iff (distinct : ((opened events).map NatEntry.id).Nodup)
    (ran : final TcpNatPool.step .new events = some pool)
    {proxy : TcpProxy} {sums : Checksums} {me : PeerId} {packet out : ZCPacket}
    (sent : (pool.shared.view proxy).tryProcessPacketFromNic sums me packet = some (out, true)) :
    ∀ entry ∈ opened events, dstOf out.payload = entry.src →
      (PeerTcpProxy.srcOf out.payload = entry.mappedDst ↔ pool.shared.Undisturbed entry) ∧
      ((∀ other ∈ opened events, other.src = entry.src → other.mappedDst = entry.mappedDst) →
        PeerTcpProxy.srcOf out.payload = entry.mappedDst) := by
  intro entry _ client
  obtain ⟨other, mem, found, src, source⟩ := reply_front distinct ran sent
  rw [client] at found src
  rw [source, TcpNat.undisturbed_iff found]
  exact ⟨.rfl, fun one => one other mem src⟩

end

/-! ## Two destinations from one port -/

def replyProxy : TcpProxy where
  localPort := 8899
  enableSmoltcp := false
  ipv4 := some ⟨0x0a000001, Inet.defaultLength⟩
  addrConnMap := ∅
  synMap := ∅

def replySums : Checksums := ⟨fun _ => 0, fun _ _ _ => 0, fun _ _ _ => 0, fun _ => 0⟩

/-- SYN and ACK from 10.0.0.1:8899 to 10.0.0.2:1000. -/
def synAck : ZCPacket :=
  ⟨⟨0, 0, 0, 0, 0, 0⟩,
    [0x45, 0, 0, 40, 0, 0, 0, 0, 64, 6, 0, 0, 10, 0, 0, 1, 10, 0, 0, 2] ++
      [0x22, 0xc3, 0x03, 0xe8, 0, 0, 0, 0, 0, 0, 0, 0, 0x50, 0x12, 0, 0, 0, 0, 0, 0]⟩

/-- A SYN to 10.1.0.1:80 is answered. -/
theorem first_reply_from_dialled :
    ∃ pool out, final TcpNatPool.step .new [.syn 1 0 (webSyn 0x0a010001)] = some pool ∧
      (pool.shared.view replyProxy).tryProcessPacketFromNic replySums 1 synAck =
        some (out, true) ∧
      PeerTcpProxy.srcOf out.payload = (.v4 0x0a010001, 80) := by
  obtain ⟨pool, ran, none, syn, ⟨out, b⟩, sent, rfl, client⟩ :
      ∃ pool ∈ final TcpNatPool.step .new [.syn 1 0 (webSyn 0x0a010001)],
        pool.shared.addrConnMap.lookup (.v4 0x0a000002, 1000) = none ∧
        pool.shared.synMap.lookup (.v4 0x0a000002, 1000) = some ((webSyn 0x0a010001).entry 1 0) ∧
        ∃ out ∈ (pool.shared.view replyProxy).tryProcessPacketFromNic replySums 1 synAck,
          out.2 = true ∧ dstOf out.1.payload = (.v4 0x0a000002, 1000) := by
    decide +kernel
  have distinct : ((opened [.syn 1 0 (webSyn 0x0a010001)]).map NatEntry.id).Nodup := by
    decide +kernel
  have mem : (webSyn 0x0a010001).entry 1 0 ∈ opened [.syn 1 0 (webSyn 0x0a010001)] := .head _
  refine ⟨pool, out, ran, sent, (reply_source_iff distinct ran sent _ mem client).1.mpr
    ⟨fun other found => ?_, fun _ other found => ?_⟩⟩
  · cases none.symm.trans found
  · cases syn.symm.trans found
    rfl

/-- This answer passes. -/
theorem first_reply_passes :
    ∃ pool, final TcpNatPool.step .new [.syn 1 0 (webSyn 0x0a010001)] = some pool ∧
      (pool.shared.view replyProxy).tryProcessPacketFromNic replySums 1 synAck ≠ none := by
  have ran : final TcpNatPool.step .new [.syn 1 0 (webSyn 0x0a010001)] = some _ := rfl
  refine ⟨_, ran, fun panics => ?_⟩
  have cut := ((run_panics_iff (by decide +kernel) ran _ _ _ _).mp panics).malformed
  exact absurd cut (by unfold Malformed; decide +kernel)

/-- The client's first connection is closed, and its entry not yet removed. -/
def firstClosed : List TcpNatEvent :=
  [.syn 1 0 (webSyn 0x0a010001), .accept none (.v4 0x0a000002, 1000),
    .proceed, .proceed, .proceed, .proceed, .task 0 true, .task 0 true, .task 0 true, .task 0 true,
    .task 0 true]

/-- Then a SYN to 10.1.0.2:80 comes from the same port, and is answered from 10.1.0.1:80. -/
theorem second_reply_from_first :
    ∃ pool out, final TcpNatPool.step .new (firstClosed ++ [.syn 2 50 (webSyn 0x0a010002)]) =
        some pool ∧
      ((opened (firstClosed ++ [.syn 2 50 (webSyn 0x0a010002)])).map NatEntry.id).Nodup ∧
      pool.tasks = [⟨(webSyn 0x0a010001).entry 1 0, .removeConn⟩] ∧
      pool.shared.synMap.lookup (.v4 0x0a000002, 1000) =
        some ((webSyn 0x0a010002).entry 2 50) ∧
      (pool.shared.view replyProxy).tryProcessPacketFromNic replySums 1 synAck =
        some (out, true) ∧
      dstOf out.payload = (.v4 0x0a000002, 1000) ∧
      PeerTcpProxy.srcOf out.payload = (.v4 0x0a010001, 80) := by
  obtain ⟨pool, ran, tasks, syn, ⟨out, b⟩, sent, rfl, client, source⟩ :
      ∃ pool ∈ final TcpNatPool.step .new (firstClosed ++ [.syn 2 50 (webSyn 0x0a010002)]),
        pool.tasks = [⟨(webSyn 0x0a010001).entry 1 0, .removeConn⟩] ∧
        pool.shared.synMap.lookup (.v4 0x0a000002, 1000) =
          some ((webSyn 0x0a010002).entry 2 50) ∧
        ∃ out ∈ (pool.shared.view replyProxy).tryProcessPacketFromNic replySums 1 synAck,
          out.2 = true ∧ dstOf out.1.payload = (.v4 0x0a000002, 1000) ∧
          PeerTcpProxy.srcOf out.1.payload = (.v4 0x0a010001, 80) := by
    decide +kernel
  exact ⟨pool, out, ran, by decide +kernel, tasks, syn, sent, client, source⟩

end PeerLink.Gateway
