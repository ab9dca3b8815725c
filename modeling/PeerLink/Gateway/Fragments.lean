import PeerLink.Gateway.PeerPipeline
import PeerLink.Spans.Cover

/-!
# What a reassembled datagram is made of

The reassembler never stores a fragment that overlaps a stored one. So the fragments of a
packet that comes together without a panic lie in it one beside the other and fill it, and
each stands in the buffer as it came. Since offsets are multiples of eight, the header of a
UDP datagram is all in one fragment.
-/

namespace PeerLink.Gateway

open Packet Spans

/-! ## Copying the fragments -/

theorem getElem?_writeBytes {data bytes : Bytes} {start : Nat}
    (fits : start + bytes.length ≤ data.length) (i : Nat) :
    (writeBytes data start bytes)[i]? =
      if start ≤ i ∧ i < start + bytes.length then bytes[i - start]? else data[i]? := by
  have before : (data.take start).length = start := by rw [List.length_take]; omega
  unfold writeBytes
  by_cases left : i < start
  · rw [if_neg (by omega), List.append_assoc, List.getElem?_append_left (by omega),
      List.getElem?_take_of_lt left]
  · by_cases right : i < start + bytes.length
    · rw [if_pos (by omega), List.getElem?_append_left (by rw [List.length_append]; omega),
        List.getElem?_append_right (by omega), before]
    · rw [if_neg (by omega), List.getElem?_append_right (by rw [List.length_append]; omega),
        List.getElem?_drop, List.length_append, before]
      congr 1
      omega

/-- Where the fragment lies in its packet. -/
def IpFragment.span (f : IpFragment) : Span := ⟨f.offset.toNat, f.data.length⟩

theorem IpFragment.mem_cells {f : IpFragment} {i : Nat} :
    i ∈ f.span.cells ↔ f.offset.toNat ≤ i ∧ i < f.offset.toNat + f.data.length := Span.mem_cells

namespace IpPacket

/-- Neither of the two starts within the other. -/
def Clear (f g : IpFragment) : Prop := covers f g.offset = false ∧ covers g f.offset = false

variable {f g : IpFragment} {total : Nat}

/-- A fragment that fits into a packet does not wrap around. -/
theorem covers_iff (fits : Fits total f) (small : total < 2 ^ 16) (offset : UInt16) :
    covers f offset = true ↔ offset.toNat ∈ f.span.cells := by
  unfold Fits at fits
  have length : (UInt16.ofNat f.data.length).toNat = f.data.length :=
    UInt16.toNat_ofNat_of_lt' (show _ < 2 ^ 16 by omega)
  have stop : (f.offset + .ofNat f.data.length).toNat = f.offset.toNat + f.data.length := by
    rw [UInt16.toNat_add, length, Nat.mod_eq_of_lt (by omega)]
  rw [IpFragment.mem_cells, ← stop]
  simp [covers, UInt16.le_iff_toNat_le, UInt16.lt_iff_toNat_lt]

theorem Clear.apart (clear : Clear f g) (fits : Fits total f) (fits' : Fits total g)
    (small : total < 2 ^ 16) : f.span.Apart g.span := by
  have left := (covers_iff fits small g.offset).not.mp (by simp [clear.1])
  have right := (covers_iff fits' small f.offset).not.mp (by simp [clear.2])
  refine Finset.disjoint_left.mpr fun n inF inG => ?_
  rw [IpFragment.mem_cells] at left right inF inG
  omega

variable {fragments : List IpFragment} {packet buf : Bytes}

theorem foldlM_copyFragment_cons
    (copied : (f :: fragments).foldlM copyFragment packet = some buf) :
    Fits packet.length f ∧
      fragments.foldlM copyFragment (writeBytes packet f.offset.toNat f.data) = some buf := by
  rw [List.foldlM_cons] at copied
  obtain ⟨mid, one, rest⟩ := Option.bind_eq_some_iff.mp copied
  unfold copyFragment at one
  split at one
  · rename_i fits
    cases one
    exact ⟨fits, rest⟩
  · cases one

section
variable (copied : fragments.foldlM copyFragment packet = some buf)
include copied

theorem foldlM_copyFragment_length : buf.length = packet.length := by
  induction fragments generalizing packet with
  | nil => cases copied; rfl
  | cons f rest ih =>
    obtain ⟨fits, copied⟩ := foldlM_copyFragment_cons copied
    rw [ih copied, length_writeBytes fits]

/-- The copies leave alone what none of them covers. -/
theorem foldlM_copyFragment_outside {i : Nat} (outside : ∀ f ∈ fragments, i ∉ f.span.cells) :
    buf[i]? = packet[i]? := by
  induction fragments generalizing packet with
  | nil => cases copied; rfl
  | cons f rest ih =>
    obtain ⟨fits, copied⟩ := foldlM_copyFragment_cons copied
    have here := IpFragment.mem_cells.not.mp (outside f List.mem_cons_self)
    rw [ih copied fun g mem => outside g (List.mem_cons_of_mem f mem), getElem?_writeBytes fits,
      if_neg here]

/-- Copies that do not meet are all there in the end. -/
theorem foldlM_copyFragment_inside (apart : fragments.Pairwise fun f g => f.span.Apart g.span)
    (mem : f ∈ fragments) {i : Nat} (within : i < f.data.length) :
    buf[f.offset.toNat + i]? = f.data[i]? := by
  induction fragments generalizing packet with
  | nil => cases mem
  | cons g rest ih =>
    obtain ⟨fits, copied⟩ := foldlM_copyFragment_cons copied
    obtain ⟨here, later⟩ := List.pairwise_cons.mp apart
    obtain rfl | mem := List.mem_cons.mp mem
    · have outside : ∀ g ∈ rest, f.offset.toNat + i ∉ g.span.cells := by
        intro g mem
        exact Finset.disjoint_left.mp (here g mem) (IpFragment.mem_cells.mpr (by omega))
      rw [foldlM_copyFragment_outside copied outside, getElem?_writeBytes fits,
        if_pos (by omega), Nat.add_sub_cancel_left]
    · exact ih copied later mem

end

/-! ## A packet that comes together -/

instance : Std.Symm Clear := ⟨fun _ _ clear => clear.symm⟩

theorem toNat_foldl_length (fragments : List IpFragment) (start : UInt16) :
    (fragments.foldl (fun total f => total + .ofNat f.data.length) start).toNat =
      (start.toNat + ((fragments.map IpFragment.span).map Span.length).sum) % 2 ^ 16 := by
  induction fragments generalizing start with
  | nil => simp [Nat.mod_eq_of_lt start.toNat_lt]
  | cons f rest ih =>
    rw [List.foldl_cons, ih, UInt16.toNat_add, UInt16.toNat_ofNat', List.map_cons, List.map_cons,
      List.sum_cons, show f.span.length = f.data.length from rfl]
    omega

variable {p : IpPacket}

theorem assemble_some (assembled : p.assemble = some (some buf)) :
    ∃ total : UInt16, p.totalLength = some total ∧ p.isComplete = true ∧
      (p.fragments.insertionSort (·.offset ≤ ·.offset)).foldlM copyFragment
        (.replicate total.toNat 0) = some buf := by
  unfold assemble at assembled
  cases stated : p.totalLength with
  | none => simp [stated] at assembled
  | some total =>
    rw [stated] at assembled
    split_ifs at assembled with complete
    · cases assembled
    · obtain ⟨_, copied, same⟩ := Option.map_eq_some_iff.mp assembled
      cases same
      exact ⟨total, rfl, by simpa using complete, copied⟩

variable (clear : p.fragments.Pairwise Clear)
include clear

/-- The fragments lie within the buffer, do not meet, and fill it. -/
theorem assemble_fills (assembled : p.assemble = some (some buf)) :
    (∀ f ∈ p.fragments, Fits buf.length f) ∧ buf.length < 2 ^ 16 ∧
      (p.fragments.map IpFragment.span).Pairwise Span.Apart ∧
      ((p.fragments.map IpFragment.span).map Span.length).sum = buf.length := by
  obtain ⟨total, stated, complete, copied⟩ := assemble_some assembled
  have length : buf.length = total.toNat := by
    rw [foldlM_copyFragment_length copied, List.length_replicate]
  have small : total.toNat < 2 ^ 16 := total.toNat_lt
  have within : ∀ f ∈ p.fragments, Fits total.toNat f := by
    have fine := (foldlM_copyFragment_eq_none_iff _ _).not.mp
      (Option.ne_none_iff_exists'.mpr ⟨_, copied⟩)
    simpa using fine
  have apart : (p.fragments.map IpFragment.span).Pairwise Span.Apart :=
    List.pairwise_map.mpr (clear.imp_of_mem fun mem mem' clear =>
      clear.apart (within _ mem) (within _ mem') small)
  have bound : ((p.fragments.map IpFragment.span).map Span.length).sum ≤ total.toNat :=
    sum_length_le (List.forall_mem_map.mpr within) apart
  refine ⟨length ▸ within, length ▸ small, apart, ?_⟩
  have sum := congrArg (Option.map UInt16.toNat) (beq_iff_eq.mp complete)
  rw [stated, Option.map_some, Option.map_some, toNat_foldl_length, UInt16.toNat_zero,
    Nat.zero_add, Nat.mod_eq_of_lt (by omega)] at sum
  rw [length, Option.some.inj sum]

/-- Each fragment stands in the buffer as it came. -/
theorem assemble_places (assembled : p.assemble = some (some buf)) (mem : f ∈ p.fragments) {i : Nat}
    (within : i < f.data.length) : buf[f.offset.toNat + i]? = f.data[i]? := by
  obtain ⟨-, -, apart, -⟩ := assemble_fills clear assembled
  obtain ⟨total, -, -, copied⟩ := assemble_some assembled
  have sorted := List.perm_insertionSort (fun f g : IpFragment => f.offset ≤ g.offset) p.fragments
  refine foldlM_copyFragment_inside copied ?_ (sorted.mem_iff.mpr mem) within
  exact (List.pairwise_map.mp apart).perm sorted.symm fun apart => apart.symm

/-- A fragment at offset 0 has all of the first eight bytes. -/
theorem assemble_first (aligned : ∀ f ∈ p.fragments, 8 ∣ f.offset.toNat)
    (assembled : p.assemble = some (some buf)) (long : 8 ≤ buf.length) :
    (∃ f ∈ p.fragments, f.offset = 0) ∧
      ∀ f ∈ p.fragments, f.offset = 0 → 8 ≤ f.data.length ∧ f.data.take 8 = buf.take 8 := by
  obtain ⟨within, small, apart, full⟩ := assemble_fills clear assembled
  obtain ⟨_, listed, start, reaches⟩ := exists_first (List.forall_mem_map.mpr within) apart full
    (by decide : 0 < 8) (List.forall_mem_map.mpr aligned) long
  obtain ⟨first, mem, rfl⟩ := List.mem_map.mp listed
  have zero : first.offset = 0 := UInt16.toNat_inj.mp start
  have header : 8 ≤ first.data.length := reaches
  refine ⟨⟨first, mem, zero⟩, fun f mem' zero' => ?_⟩
  -- another fragment at offset 0, even an empty one, would lie in the first
  have same : f = first := by
    by_contra differ
    have inside : f.offset.toNat ∈ first.span.cells := by
      rw [IpFragment.mem_cells, zero, zero', UInt16.toNat_zero]
      omega
    have covered := (covers_iff (within first mem) small f.offset).mpr inside
    rw [(clear.forall mem' mem differ).2] at covered
    cases covered
  subst same
  refine ⟨header, List.ext_getElem? fun i => ?_⟩
  by_cases early : i < 8
  · have placed := assemble_places clear assembled mem (Nat.lt_of_lt_of_le early header)
    rw [zero, UInt16.toNat_zero, Nat.zero_add] at placed
    rw [List.getElem?_take_of_lt early, List.getElem?_take_of_lt early, placed]
  · rw [List.getElem?_eq_none (by rw [List.length_take]; omega),
      List.getElem?_eq_none (by rw [List.length_take]; omega)]

/-- The fragment would be ignored. -/
def overlaps (p : IpPacket) (fragment : IpFragment) : Bool :=
  p.fragments.any fun f => covers f fragment.offset || covers fragment f.offset

theorem addFragment_clear (fragment : IpFragment) :
    (p.addFragment fragment).fragments.Pairwise Clear := by
  unfold addFragment
  split_ifs with free
  · exact clear
  · refine List.pairwise_append.mpr ⟨clear, List.pairwise_singleton Clear fragment, ?_⟩
    intro f mem g last
    rw [List.mem_singleton] at last
    subst last
    have missed := List.any_eq_false.mp (Bool.not_eq_true _ ▸ free) f mem
    exact Bool.or_eq_false_iff.mp (Bool.not_eq_true _ ▸ missed)

end IpPacket

/-! ## Where the fragments came from -/

/-- For each packet that is not yet complete, the packets that brought its fragments. -/
abbrev Origins := IpResemblerKey → List ZCPacket

namespace IpReassembler

variable (r : IpReassembler) (origins : Origins)

def stored (key : IpResemblerKey) : IpPacket := (r.packets.lookup key).getD .new

/-- The packets behind the fragments that are there with this one. -/
def constituents (packet : ZCPacket) : List ZCPacket :=
  let key := keyOf packet.payload
  if (r.stored key).overlaps (fragmentOf packet.payload) then origins key
  else origins key ++ [packet]

/-- The origins once `add_fragment` is through: those of a complete packet are forgotten. -/
def originsAfter (packet : ZCPacket) : Origins :=
  let key := keyOf packet.payload
  if statedLength packet.payload ≠ .ofNat (Ipv4Packet.payload packet.payload).length then
    origins
  else if (r.withFragment packet.payload).assemble = some none then
    Function.update origins key (r.constituents origins packet)
  else
    Function.update origins key []

/-- The origins are those of the stored fragments. -/
structure Tracks : Prop where
  fragments : ∀ key, (r.stored key).fragments = (origins key).map fun packet =>
    fragmentOf packet.payload
  clear : ∀ key, (r.stored key).fragments.Pairwise IpPacket.Clear
  keyed : ∀ key, ∀ packet ∈ origins key, keyOf packet.payload = key

variable {r r' : IpReassembler} {origins : Origins} {packet : ZCPacket}

variable {part : ZCPacket} {key : IpResemblerKey} {parts : List ZCPacket} {buf : Bytes}

theorem mem_constituents (mem : part ∈ r.constituents origins packet) :
    part ∈ origins (keyOf packet.payload) ∨ part = packet := by
  unfold constituents at mem
  dsimp only at mem
  split at mem
  · exact .inl mem
  · simpa using mem

theorem mem_update {other : IpResemblerKey} (mem : part ∈ Function.update origins key parts other) :
    part ∈ origins other ∨ other = key ∧ part ∈ parts := by
  by_cases here : other = key
  · subst here
    rw [Function.update_self] at mem
    exact .inr ⟨rfl, mem⟩
  · rw [Function.update_of_ne here] at mem
    exact .inl mem

theorem mem_originsAfter
    (mem : part ∈ r.originsAfter origins packet key) : part ∈ origins key ∨ part = packet := by
  unfold originsAfter at mem
  split at mem
  · exact .inl mem
  · split at mem
    · obtain old | ⟨rfl, listed⟩ := mem_update mem
      · exact .inl old
      · exact mem_constituents listed
    · obtain old | ⟨-, listed⟩ := mem_update mem
      · exact .inl old
      · cases listed

/-- What the length of the last fragment changes is not the list of fragments. -/
theorem withFragment_fragments (r : IpReassembler) (data : Bytes) :
    (r.withFragment data).fragments =
      ((r.stored (keyOf data)).addFragment (fragmentOf data)).fragments := by
  unfold withFragment stored IpPacket.addFragment
  dsimp only
  split <;> split <;> rfl

theorem Tracks.new : Tracks ⟨∅⟩ fun _ => [] where
  fragments _ := rfl
  clear _ := List.Pairwise.nil
  keyed _ _ mem := nomatch mem

theorem stored_insert (r : IpReassembler) (key : IpResemblerKey) (p : IpPacket) :
    IpReassembler.stored ⟨r.packets.insert key p⟩ = Function.update r.stored key p := by
  funext other
  unfold stored
  by_cases here : other = key
  · subst here
    simp
  · simp [AList.lookup_insert_ne here, Function.update_of_ne here]

theorem stored_erase (r : IpReassembler) (key : IpResemblerKey) :
    IpReassembler.stored ⟨r.packets.erase key⟩ = Function.update r.stored key .new := by
  funext other
  unfold stored
  by_cases here : other = key
  · subst here
    simp
  · simp [AList.lookup_erase_ne here, Function.update_of_ne here]

theorem addFragment_assembled {data : Bytes} (added : r.addFragment data = some (some buf, r')) :
    (r.withFragment data).assemble = some (some buf) := by
  unfold IpReassembler.addFragment at added
  split at added
  · cases added
  · dsimp only at added
    split at added
    · cases added
    · cases added
    · rename_i assembled
      cases added
      exact assembled

theorem toNat_offset (data : Bytes) :
    (fragmentOf data).offset.toNat = Ipv4Packet.fragmentOffset data * 8 := by
  have bound : Ipv4Packet.fragmentOffset data < 2 ^ 13 := Nat.mod_lt _ (by decide)
  exact UInt16.toNat_ofNat_of_lt' (show _ < 2 ^ 16 by omega)

section
variable (tracks : r.Tracks origins)
include tracks

theorem Tracks.constituents_fragments (packet : ZCPacket) :
    (r.withFragment packet.payload).fragments =
      (r.constituents origins packet).map fun part => fragmentOf part.payload := by
  rw [withFragment_fragments]
  unfold IpPacket.addFragment constituents IpPacket.overlaps
  dsimp only
  split
  · exact tracks.fragments _
  · rw [List.map_append, ← tracks.fragments]
    rfl

theorem Tracks.withFragment_clear (packet : ZCPacket) :
    (r.withFragment packet.payload).fragments.Pairwise IpPacket.Clear := by
  rw [withFragment_fragments]
  exact IpPacket.addFragment_clear (tracks.clear _) _

theorem Tracks.constituents_keyed (mem : part ∈ r.constituents origins packet) :
    keyOf part.payload = keyOf packet.payload := by
  obtain old | rfl := mem_constituents mem
  · exact tracks.keyed _ part old
  · rfl

/-- What is stored under one key changes. -/
theorem Tracks.update {p : IpPacket} (changed : r'.stored = Function.update r.stored key p)
    (fragments : p.fragments = parts.map fun part => fragmentOf part.payload)
    (clear : p.fragments.Pairwise IpPacket.Clear)
    (keyed : ∀ part ∈ parts, keyOf part.payload = key) :
    r'.Tracks (Function.update origins key parts) := by
  constructor <;> intro other <;> by_cases here : other = key
  · subst here
    rw [changed, Function.update_self, Function.update_self, fragments]
  · rw [changed, Function.update_of_ne here, Function.update_of_ne here, tracks.fragments]
  · subst here
    rw [changed, Function.update_self]
    exact clear
  · rw [changed, Function.update_of_ne here]
    exact tracks.clear other
  · subst here
    rw [Function.update_self]
    exact keyed
  · rw [Function.update_of_ne here]
    exact tracks.keyed other

theorem Tracks.erase (key : IpResemblerKey) :
    Tracks ⟨r.packets.erase key⟩ (Function.update origins key []) :=
  tracks.update (r.stored_erase key) rfl List.Pairwise.nil nofun

theorem Tracks.addFragment {buf : Option Bytes}
    (added : r.addFragment packet.payload = some (buf, r')) :
    r'.Tracks (r.originsAfter origins packet) := by
  unfold IpReassembler.addFragment at added
  unfold originsAfter
  split_ifs at added with misstated
  · cases added
    rw [if_pos misstated]
    exact tracks
  · rw [if_neg misstated]
    dsimp only at added
    split at added
    · cases added
    · rename_i waiting
      cases added
      rw [if_pos waiting]
      exact tracks.update (r.stored_insert _ _) (tracks.constituents_fragments packet)
        (tracks.withFragment_clear packet) fun _ mem => tracks.constituents_keyed mem
    · rename_i assembled
      cases added
      rw [if_neg (by simp [assembled])]
      exact tracks.erase _

/-- Each constituent is a part of the datagram, at its own offset. -/
theorem Tracks.placed (added : r.addFragment packet.payload = some (some buf, r'))
    (mem : part ∈ r.constituents origins packet) {i : Nat}
    (within : i < (Ipv4Packet.payload part.payload).length) :
    buf[Ipv4Packet.fragmentOffset part.payload * 8 + i]? =
      (Ipv4Packet.payload part.payload)[i]? := by
  have listed : fragmentOf part.payload ∈ (r.withFragment packet.payload).fragments := by
    rw [tracks.constituents_fragments]
    exact List.mem_map_of_mem mem
  rw [← toNat_offset]
  exact IpPacket.assemble_places (tracks.withFragment_clear packet) (addFragment_assembled added)
    listed within

/-- The UDP header of a datagram is all in a constituent at offset 0. -/
theorem Tracks.header (added : r.addFragment packet.payload = some (some buf, r'))
    (long : 8 ≤ buf.length) :
    (∃ first ∈ r.constituents origins packet, Ipv4Packet.fragmentOffset first.payload = 0) ∧
      ∀ first ∈ r.constituents origins packet, Ipv4Packet.fragmentOffset first.payload = 0 →
        8 ≤ (Ipv4Packet.payload first.payload).length ∧
          (Ipv4Packet.payload first.payload).take 8 = buf.take 8 := by
  have fragments := tracks.constituents_fragments packet
  have aligned : ∀ f ∈ (r.withFragment packet.payload).fragments, 8 ∣ f.offset.toNat := by
    rw [fragments]
    refine List.forall_mem_map.mpr fun part _ => ?_
    rw [toNat_offset]
    exact Nat.dvd_mul_left 8 _
  have zero_iff (part : ZCPacket) : (fragmentOf part.payload).offset = 0 ↔
      Ipv4Packet.fragmentOffset part.payload = 0 := by
    rw [← UInt16.toNat_inj, toNat_offset, UInt16.toNat_zero]
    omega
  obtain ⟨⟨_, listed, start⟩, all⟩ := IpPacket.assemble_first (tracks.withFragment_clear packet)
    aligned (addFragment_assembled added) long
  rw [fragments] at listed all
  obtain ⟨first, mem, rfl⟩ := List.mem_map.mp listed
  refine ⟨⟨first, mem, (zero_iff first).mp start⟩, fun first mem zero => ?_⟩
  exact all _ (List.mem_map_of_mem mem) ((zero_iff first).mpr zero)

end

end IpReassembler

/-! ## What the UDP proxy sends -/

/-- A UDP packet on its way to a real destination. -/
structure UdpDatagram where
  packet : Bytes
  dst : SocketAddr
  deriving DecidableEq

namespace DatagramProxy

/-- The packets that the datagram of a packet is made of. -/
def constituents (p : DatagramProxy) (origins : Origins) (packet : ZCPacket) : List ZCPacket :=
  if IpReassembler.isPacketFragmented packet.payload then
    p.ipResemmbler.constituents origins packet
  else
    [packet]

def originsAfter (p : DatagramProxy) (protocol : Nat) (origins : Origins) (packet : ZCPacket) :
    Origins :=
  if p.concerns protocol packet && IpReassembler.isPacketFragmented packet.payload then
    p.ipResemmbler.originsAfter origins packet
  else
    origins

/-- A fragment goes through the reassembler, and a whole packet is its own datagram. -/
theorem datagram_some {p p' : DatagramProxy} {data : Bytes} {buf : Option Bytes}
    (read : p.datagram data = some (buf, p')) :
    IpReassembler.isPacketFragmented data = true ∧
        p.ipResemmbler.addFragment data = some (buf, p'.ipResemmbler) ∨
      IpReassembler.isPacketFragmented data = false ∧ buf = some (Ipv4Packet.payload data) ∧
        p' = p := by
  unfold datagram at read
  split_ifs at read with fragmented
  · obtain ⟨_, added, same⟩ := Option.map_eq_some_iff.mp read
    cases same
    exact .inl ⟨fragmented, added⟩
  · cases read
    exact .inr ⟨by simpa using fragmented, rfl, rfl⟩

end DatagramProxy

namespace UdpProxy

/-- The end of `try_handle_packet`: the socket that the datagram goes to. -/
def dstSocket (p : UdpProxy) (packet : ZCPacket) (buf : Bytes) : SocketAddr :=
  let dst := Ipv4Packet.destination packet.payload
  if some dst = p.proxy.ipv4.map (·.address) then (.v4 0x7f000001, destinationPort buf)
  else (.v4 (p.proxy.config.realDstIp dst), destinationPort buf)

/-- What the proxy sends when it is given the packet. -/
def sends (p : UdpProxy) (socketOpens : Bool) (packet : ZCPacket) : Option UdpDatagram :=
  match p.tryProcessPacketFromPeer socketOpens packet, p.proxy.datagram packet.payload with
  | some (.taken, _), some (some buf, _) => some ⟨buf, p.dstSocket packet buf⟩
  | _, _ => none

variable {p p' : UdpProxy} {origins : Origins} {packet : ZCPacket} {socketOpens : Bool}

/-- The proxy leaves alone what is not for it, and takes nothing but whole datagrams. -/
theorem tryProcessPacketFromPeer_proxy {out : PeerOutcome}
    (processed : p.tryProcessPacketFromPeer socketOpens packet = some (out, p')) :
    out = .passed ∧ p' = p ∧ p.proxy.concerns PROTOCOL_UDP packet = false ∨
      p.proxy.concerns PROTOCOL_UDP packet = true ∧
        ∃ buf, p.proxy.datagram packet.payload = some (buf, p'.proxy) ∧
          (out = .taken → ∃ whole, buf = some whole ∧ 8 ≤ whole.length) := by
  unfold tryProcessPacketFromPeer at processed
  split at processed
  · rename_i other
    cases processed
    exact .inl ⟨rfl, rfl, by simpa using other⟩
  · rename_i concerned
    refine .inr ⟨by simpa using concerned, ?_⟩
    split at processed
    · cases processed
    · rename_i read
      cases processed
      exact ⟨none, read, nofun⟩
    · rename_i buf proxy read
      dsimp only at processed
      split at processed
      · cases processed
        exact ⟨some buf, read, nofun⟩
      · rename_i long
        split at processed <;> cases processed
        · exact ⟨some buf, read, fun _ => ⟨buf, rfl, not_lt.mp long⟩⟩
        · exact ⟨some buf, read, nofun⟩

/-- A packet that is taken is sent. -/
theorem sends_isSome_iff :
    (p.sends socketOpens packet).isSome ↔
      ∃ p', p.tryProcessPacketFromPeer socketOpens packet = some (.taken, p') := by
  unfold sends
  constructor
  · intro sent
    split at sent
    · rename_i p' _ _ processed _
      exact ⟨p', processed⟩
    · cases sent
  · rintro ⟨p', processed⟩
    obtain ⟨passes, -⟩ | ⟨-, buf, read, taken⟩ := tryProcessPacketFromPeer_proxy processed
    · cases passes
    · obtain ⟨whole, rfl, -⟩ := taken rfl
      simp [processed, read]

theorem sends_some {sent : UdpDatagram} (sends : p.sends socketOpens packet = some sent) :
    p.proxy.concerns PROTOCOL_UDP packet = true ∧ 8 ≤ sent.packet.length ∧
      ∃ proxy, p.proxy.datagram packet.payload = some (some sent.packet, proxy) := by
  obtain ⟨p', processed⟩ := sends_isSome_iff.mp (Option.isSome_iff_exists.mpr ⟨sent, sends⟩)
  obtain ⟨passes, -⟩ | ⟨concerned, buf, read, taken⟩ := tryProcessPacketFromPeer_proxy processed
  · cases passes
  · obtain ⟨whole, rfl, long⟩ := taken rfl
    simp only [UdpProxy.sends, processed, read, Option.some.injEq] at sends
    subst sends
    exact ⟨concerned, long, p'.proxy, read⟩

theorem tracks_step (tracks : p.proxy.ipResemmbler.Tracks origins) {out : PeerOutcome}
    (processed : p.tryProcessPacketFromPeer socketOpens packet = some (out, p')) :
    p'.proxy.ipResemmbler.Tracks (p.proxy.originsAfter PROTOCOL_UDP origins packet) := by
  unfold DatagramProxy.originsAfter
  obtain ⟨-, rfl, other⟩ | ⟨concerned, buf, read, -⟩ := tryProcessPacketFromPeer_proxy processed
  · rw [other, Bool.false_and, if_neg Bool.false_ne_true]
    exact tracks
  · rw [concerned, Bool.true_and]
    obtain ⟨fragmented, added⟩ | ⟨whole, -, same⟩ := DatagramProxy.datagram_some read
    · rw [if_pos fragmented]
      exact tracks.addFragment added
    · rw [whole, if_neg Bool.false_ne_true, same]
      exact tracks

variable {sent : UdpDatagram}

theorem fragmentOffset_of_whole {data : Bytes}
    (whole : IpReassembler.isPacketFragmented data = false) :
    Ipv4Packet.fragmentOffset data = 0 := by
  simpa using (Bool.or_eq_false_iff.mp whole).1

section
variable (tracks : p.proxy.ipResemmbler.Tracks origins)
  (sends : p.sends socketOpens packet = some sent)
include tracks sends

/-- **The header of a sent datagram** stands in its constituents at offset 0, of which there
is one, with the addresses of the packet that completes it. -/
theorem sends_header :
    (∃ first ∈ p.proxy.constituents origins packet,
        Ipv4Packet.fragmentOffset first.payload = 0) ∧
      ∀ first ∈ p.proxy.constituents origins packet,
        Ipv4Packet.fragmentOffset first.payload = 0 →
          IpReassembler.keyOf first.payload = IpReassembler.keyOf packet.payload ∧
          8 ≤ (Ipv4Packet.payload first.payload).length ∧
          (Ipv4Packet.payload first.payload).take 8 = sent.packet.take 8 := by
  obtain ⟨-, long, proxy, read⟩ := sends_some sends
  unfold DatagramProxy.constituents
  obtain ⟨fragmented, added⟩ | ⟨whole, same, -⟩ := DatagramProxy.datagram_some read
  · obtain ⟨first, header⟩ := tracks.header added long
    rw [if_pos fragmented]
    exact ⟨first, fun first mem zero => ⟨tracks.constituents_keyed mem, header first mem zero⟩⟩
  · rw [whole, if_neg Bool.false_ne_true]
    refine ⟨⟨packet, List.mem_singleton_self packet, fragmentOffset_of_whole whole⟩, ?_⟩
    intro first mem _
    rw [List.mem_singleton.mp mem, ← Option.some.inj same]
    exact ⟨rfl, long, rfl⟩

/-- Each constituent is a part of what is sent, at its own offset. -/
theorem sends_placed {part : ZCPacket} (mem : part ∈ p.proxy.constituents origins packet) {i : Nat}
    (within : i < (Ipv4Packet.payload part.payload).length) :
    sent.packet[Ipv4Packet.fragmentOffset part.payload * 8 + i]? =
      (Ipv4Packet.payload part.payload)[i]? := by
  obtain ⟨-, -, proxy, read⟩ := sends_some sends
  unfold DatagramProxy.constituents at mem
  obtain ⟨fragmented, added⟩ | ⟨whole, same, -⟩ := DatagramProxy.datagram_some read
  · rw [if_pos fragmented] at mem
    exact tracks.placed added mem within
  · rw [whole, if_neg Bool.false_ne_true, List.mem_singleton] at mem
    rw [mem, fragmentOffset_of_whole whole, Nat.zero_mul, Nat.zero_add, Option.some.inj same]

end

end UdpProxy

/-! ## The way to the UDP proxy -/

namespace Filters

/-- The filters before the UDP proxy let the packet pass. -/
def reachesUdp (env : FilterEnv) (packet : ZCPacket) : List PeerFilterId → Filters → Bool
  | [], _ => false
  | id :: rest, g =>
    if id = .udpProxy then
      true
    else
      match g.tryProcessPacketFromPeer env packet id with
      | some (.passed, g) => reachesUdp env packet rest g
      | _ => false

/-- What the UDP proxy sends when the packet comes in. -/
def sendsUdp (g : Filters) (env : FilterEnv) (packet : ZCPacket) : Option UdpDatagram :=
  if reachesUdp env packet g.peerPacketProcessPipeline.reverse g then
    g.udpProxy.sends env.udpSocketOpens packet
  else
    none

def originsAfter (g : Filters) (env : FilterEnv) (origins : Origins) (packet : ZCPacket) :
    Origins :=
  if reachesUdp env packet g.peerPacketProcessPipeline.reverse g then
    g.udpProxy.proxy.originsAfter PROTOCOL_UDP origins packet
  else
    origins

variable {g g' : Filters} {env : FilterEnv} {packet : ZCPacket} {out : PeerOutcome}
variable {ids : List PeerFilterId}

theorem tryProcessPacketFromPeer_udpProxy {id : PeerFilterId} (other : id ≠ .udpProxy)
    (processed : g.tryProcessPacketFromPeer env packet id = some (out, g')) :
    g'.udpProxy = g.udpProxy :=
  tryProcessPacketFromPeer_agrees processed other.symm

theorem runPeerFilters_without_udpProxy (absent : .udpProxy ∉ ids)
    (processed : runPeerFilters env packet ids g = some (out, g')) :
    g'.udpProxy = g.udpProxy := by
  induction ids generalizing g with
  | nil => cases processed; rfl
  | cons id rest ih =>
    have other : id ≠ .udpProxy := fun same => absent (same ▸ List.mem_cons_self)
    unfold runPeerFilters at processed
    split at processed
    · cases processed
    · rename_i passed
      rw [ih (fun mem => absent (List.mem_cons_of_mem id mem)) processed]
      exact tryProcessPacketFromPeer_udpProxy other passed
    · rename_i taken
      cases processed
      exact tryProcessPacketFromPeer_udpProxy other taken

/-- The pipeline works on the UDP proxy once, if the packet gets there. -/
theorem runPeerFilters_udpProxy (nodup : ids.Nodup)
    (processed : runPeerFilters env packet ids g = some (out, g')) :
    if reachesUdp env packet ids g then
      ∃ out, g.udpProxy.tryProcessPacketFromPeer env.udpSocketOpens packet = some (out, g'.udpProxy)
    else
      g'.udpProxy = g.udpProxy := by
  induction ids generalizing g with
  | nil => cases processed; rfl
  | cons id rest ih =>
    obtain ⟨fresh, nodup⟩ := List.nodup_cons.mp nodup
    unfold reachesUdp
    unfold runPeerFilters at processed
    by_cases here : id = .udpProxy
    · subst here
      rw [if_pos rfl, if_pos rfl]
      split at processed
      · cases processed
      · rename_i mid passed
        obtain ⟨⟨out, p⟩, answered, same⟩ := Option.map_eq_some_iff.mp passed
        rw [runPeerFilters_without_udpProxy fresh processed]
        cases same
        exact ⟨_, answered⟩
      · rename_i taken
        obtain ⟨⟨out, p⟩, answered, same⟩ := Option.map_eq_some_iff.mp taken
        cases processed
        cases same
        exact ⟨_, answered⟩
    · rw [if_neg here]
      split at processed
      · cases processed
      · rename_i mid passed
        rw [passed, ← tryProcessPacketFromPeer_udpProxy here passed]
        exact ih nodup processed
      · rename_i notPassed taken
        cases processed
        have kept := tryProcessPacketFromPeer_udpProxy here taken
        rw [taken]
        cases out with
        | passed => exact absurd rfl notPassed
        | toNic | toStack | toPortalClient | taken => exact kept

theorem processPacketFromPeer_tracks {origins : Origins}
    (nodup : g.peerPacketProcessPipeline.Nodup)
    (tracks : g.udpProxy.proxy.ipResemmbler.Tracks origins)
    (processed : g.processPacketFromPeer env packet = some (out, g')) :
    g'.udpProxy.proxy.ipResemmbler.Tracks (g.originsAfter env origins packet) := by
  have once := runPeerFilters_udpProxy (List.nodup_reverse.mpr nodup) processed
  unfold originsAfter
  split_ifs with reached
  · rw [if_pos reached] at once
    obtain ⟨out, answered⟩ := once
    exact UdpProxy.tracks_step tracks answered
  · rw [if_neg reached] at once
    rw [once]
    exact tracks

/-- Only packets that the UDP proxy is meant for become origins. -/
theorem mem_originsAfter {origins : Origins} {key : IpResemblerKey} {part : ZCPacket}
    (mem : part ∈ g.originsAfter env origins packet key) :
    part ∈ origins key ∨ part = packet ∧ g.udpProxy.proxy.concerns PROTOCOL_UDP packet = true := by
  unfold originsAfter DatagramProxy.originsAfter at mem
  split at mem
  · split_ifs at mem with fed
    · exact (IpReassembler.mem_originsAfter mem).imp_right fun same =>
        ⟨same, (Bool.and_eq_true_iff.mp fed).1⟩
    · exact .inl mem
  · exact .inl mem

end Filters

end PeerLink.Gateway
