import PeerLink.Gateway.NicFilter
import Mathlib.Algebra.GroupWithZero.Nat

/-!
# Reassembling IP fragments

The reassembler of the UDP and ICMP proxies, and `compose_ipv4_packet`, which cuts a
reply into fragments again. Lengths and offsets of fragments are 16 bit numbers that wrap
around. `none` is a panic: a slice that is out of range.
-/

namespace PeerLink.Gateway

open Packet

structure IpFragment where
  offset : UInt16
  data : Bytes
  deriving DecidableEq

structure IpPacket where
  totalLength : Option UInt16
  fragments : List IpFragment

namespace IpPacket

def new : IpPacket := ⟨none, []⟩

def covers (f : IpFragment) (offset : UInt16) : Bool :=
  f.offset ≤ offset && offset < f.offset + .ofNat f.data.length

/-- A fragment that overlaps a stored one is ignored. -/
def addFragment (p : IpPacket) (fragment : IpFragment) : IpPacket :=
  if p.fragments.any fun f => covers f fragment.offset || covers fragment f.offset then
    p
  else
    { p with fragments := p.fragments ++ [fragment] }

/-- The lengths of the fragments add up; where the fragments lie is not looked at. -/
def isComplete (p : IpPacket) : Bool :=
  p.totalLength == some (p.fragments.foldl (fun total f => total + .ofNat f.data.length) 0)

/-- `packet[start..end].copy_from_slice(&fragment.data)` -/
def copyFragment (packet : Bytes) (fragment : IpFragment) : Option Bytes :=
  if fragment.offset.toNat + fragment.data.length ≤ packet.length then
    some (writeBytes packet fragment.offset.toNat fragment.data)
  else
    none

def assemble (p : IpPacket) : Option (Option Bytes) :=
  match p.totalLength with
  | none => some none
  | some totalLength =>
    if !p.isComplete then
      some none
    else
      let fragments := p.fragments.insertionSort (·.offset ≤ ·.offset)
      (fragments.foldlM copyFragment (.replicate totalLength.toNat 0)).map some

end IpPacket

structure IpResemblerKey where
  source : Ipv4Addr
  destination : Ipv4Addr
  id : Nat
  deriving DecidableEq

structure IpReassembler where
  packets : AList fun _ : IpResemblerKey => IpPacket

namespace IpReassembler

variable (data : Bytes)

def isPacketFragmented : Bool :=
  Ipv4Packet.fragmentOffset data != 0 || Ipv4Packet.moreFragments data

def keyOf : IpResemblerKey :=
  ⟨Ipv4Packet.source data, Ipv4Packet.destination data, Ipv4Packet.identification data⟩

/-- The length that the header gives to the payload. -/
def statedLength : UInt16 :=
  .ofNat (Ipv4Packet.totalLength data) - .ofNat (Ipv4Packet.headerLength data) * 4

def fragmentOf : IpFragment :=
  ⟨.ofNat (Ipv4Packet.fragmentOffset data * 8), Ipv4Packet.payload data⟩

/-- What is stored once the fragment has come in. The last fragment tells the length. -/
def withFragment (r : IpReassembler) (data : Bytes) : IpPacket :=
  let stored := (r.packets.lookup (keyOf data)).getD .new
  let fragment := fragmentOf data
  let stored :=
    if Ipv4Packet.moreFragments data then stored
    else { stored with totalLength := some (statedLength data + fragment.offset) }
  stored.addFragment fragment

/-- The payload of the whole packet once its fragments are there. -/
def addFragment (r : IpReassembler) (data : Bytes) : Option (Option Bytes × IpReassembler) :=
  if statedLength data ≠ .ofNat (Ipv4Packet.payload data).length then
    some (none, r)
  else
    let stored := r.withFragment data
    match stored.assemble with
    | none => none
    | some none => some (none, ⟨r.packets.insert (keyOf data) stored⟩)
    | some (some payload) => some (some payload, ⟨r.packets.erase (keyOf data)⟩)

end IpReassembler

/-! ## When reassembling panics -/

theorem length_writeBytes {data bytes : Bytes} {start : Nat}
    (fits : start + bytes.length ≤ data.length) :
    (writeBytes data start bytes).length = data.length := by
  simp only [writeBytes, List.length_append, List.length_take, List.length_drop]
  omega

namespace IpPacket

/-- The fragment lies within the first `total` bytes. -/
def Fits (total : Nat) (f : IpFragment) : Prop := f.offset.toNat + f.data.length ≤ total
  deriving Decidable

theorem foldlM_copyFragment_eq_none_iff (fragments : List IpFragment) (packet : Bytes) :
    fragments.foldlM copyFragment packet = none ↔
      ∃ f ∈ fragments, ¬ Fits packet.length f := by
  induction fragments generalizing packet with
  | nil => simp
  | cons f rest ih =>
    by_cases fits : Fits packet.length f
    · have copied : copyFragment packet f =
          some (writeBytes packet f.offset.toNat f.data) := if_pos fits
      simp [List.foldlM_cons, copied, ih, length_writeBytes fits, fits]
    · have refused : copyFragment packet f = none := if_neg fits
      simp [List.foldlM_cons, refused, fits]

/-- The fragments count as complete, though one of them reaches past the end. -/
def Bursts (p : IpPacket) : Prop :=
  p.isComplete ∧ ∃ f ∈ p.fragments, ¬ Fits (p.totalLength.getD 0).toNat f

theorem assemble_eq_none_iff (p : IpPacket) : p.assemble = none ↔ p.Bursts := by
  unfold assemble Bursts
  cases total : p.totalLength with
  | none => simp [isComplete, total]
  | some totalLength =>
    by_cases complete : p.isComplete = true
    · simp [complete, foldlM_copyFragment_eq_none_iff, List.mem_insertionSort]
    · simp [complete]

end IpPacket

/-- The fragment completes a packet with a fragment that reaches past its end. -/
def IpReassembler.Bursts (r : IpReassembler) (data : Bytes) : Prop :=
  statedLength data = .ofNat (Ipv4Packet.payload data).length ∧ (r.withFragment data).Bursts

theorem IpReassembler.addFragment_eq_none_iff (r : IpReassembler) (data : Bytes) :
    r.addFragment data = none ↔ r.Bursts data := by
  unfold addFragment Bursts
  rw [← IpPacket.assemble_eq_none_iff]
  by_cases stated : statedLength data = .ofNat (Ipv4Packet.payload data).length
  · simp only [stated, ne_eq, not_true_eq_false, if_false, true_and]
    cases (r.withFragment data).assemble with
    | none => simp
    | some payload => cases payload <;> simp
  · simp [stated]

/-! ## Cutting a reply into fragments -/

/-- The loop of `compose_ipv4_packet`: the slices of the buffer that become packets, as
start and length of what they carry. -/
def composeLoop (bufLen payloadLen payloadMtu totalPieces : Nat) :
    Nat → Nat → Nat → Option (List (Nat × Nat))
  | 0, _, _ => some []
  | fuel + 1, bufOffset, fragmentOffset =>
    if fragmentOffset < payloadLen then
      let nextFragmentOffset := min (fragmentOffset + payloadMtu) payloadLen
      let fragmentLen := nextFragmentOffset - fragmentOffset
      if bufLen < bufOffset + fragmentLen + 20 then
        none
      else if 1 < totalPieces ∧ fragmentOffset % 8 ≠ 0 then
        none
      else
        (composeLoop bufLen payloadLen payloadMtu totalPieces fuel (bufOffset + fragmentLen)
          nextFragmentOffset).map ((bufOffset, fragmentLen) :: ·)
    else
      some []

def composeIpv4Packet (bufLen payloadLen payloadMtu : Nat) : Option (List (Nat × Nat)) :=
  composeLoop bufLen payloadLen payloadMtu ((payloadLen + payloadMtu - 1) / payloadMtu)
    payloadLen 0 0

/-- Up to here the loop has taken whole pieces, and what is left fits into the buffer. -/
theorem composeLoop_spec {payloadLen payloadMtu : Nat} (totalPieces : Nat)
    (positive : 0 < payloadMtu) (aligned : payloadMtu % 8 = 0) {fuel offset : Nat}
    (enough : payloadLen ≤ offset + fuel)
    (whole : offset % payloadMtu = 0 ∨ payloadLen ≤ offset) (within : offset ≤ payloadLen) :
    ∃ pieces, composeLoop (payloadLen + 20) payloadLen payloadMtu totalPieces fuel offset offset =
        some pieces ∧ (pieces.map (·.2)).sum = payloadLen - offset := by
  induction fuel generalizing offset with
  | zero => exact ⟨[], rfl, by simp; omega⟩
  | succ fuel ih =>
    unfold composeLoop
    split
    · rename_i more
      have multiple : offset % 8 = 0 := by
        have byEight : 8 ∣ payloadMtu := Nat.dvd_of_mod_eq_zero aligned
        have byMtu : payloadMtu ∣ offset :=
          Nat.dvd_of_mod_eq_zero (whole.resolve_right (by omega))
        exact Nat.mod_eq_zero_of_dvd (Nat.dvd_trans byEight byMtu)
      have next : offset + (min (offset + payloadMtu) payloadLen - offset) =
          min (offset + payloadMtu) payloadLen := by omega
      have wholeNext : min (offset + payloadMtu) payloadLen % payloadMtu = 0 ∨
          payloadLen ≤ min (offset + payloadMtu) payloadLen := by
        by_cases fits : offset + payloadMtu ≤ payloadLen
        · left
          rw [Nat.min_eq_left fits, Nat.add_mod_right]
          exact whole.resolve_right (by omega)
        · right
          omega
      obtain ⟨pieces, composed, total⟩ :=
        ih (by omega) wholeNext (by omega)
      refine ⟨(offset, min (offset + payloadMtu) payloadLen - offset) :: pieces, ?_, ?_⟩
      · rw [if_neg (by omega), if_neg (by simp [multiple]), next, composed]
        rfl
      · rw [List.map_cons, List.sum_cons, total]
        omega
    · exact ⟨[], rfl, by simp; omega⟩

/-- A reply in a buffer of its own size is cut into pieces that carry all of it. -/
theorem composeIpv4Packet_spec (payloadLen : Nat) :
    ∃ pieces, composeIpv4Packet (payloadLen + 20) payloadLen 1200 = some pieces ∧
      (pieces.map (·.2)).sum = payloadLen :=
  composeLoop_spec _ (by decide) (by decide) (by omega) (.inl rfl) (by omega)

end PeerLink.Gateway
