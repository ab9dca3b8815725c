import PeerLink.Packet.Layout

/-!
# Reading from the TUN device

Packets are read into one buffer one after the other. New memory is reserved when the capacity is
below the 2500 bytes that the device gets, but the headers in front of the packet and the tail
behind it need room as well.
-/

namespace PeerLink.Tunnel

open Packet Schedule

def TAIL_RESERVED_SIZE : Nat := max Encryptor.AES_GCM_ENCRYPTION_RESERVED COMPRESSOR_TAIL_SIZE

/-- The buffer by its length and capacity. -/
structure TunStream where
  payloadOffset : Nat
  len : Nat
  capacity : Nat
  /-- Every access was inside the allocation. -/
  inside : Bool

/-- What a call finds: how much `reserve` allocates beyond what it is asked for, and how many bytes
the device fills, none also if it has no packet yet. -/
structure Poll where
  spare : Nat
  filled : Nat
  fits : filled ≤ 2500

namespace TunStream

def new (hasPacketInfo : Bool) : TunStream where
  payloadOffset := Layout.ZCPacketType.nic.payloadOffset - if hasPacketInfo then 4 else 0
  len := 0
  capacity := 0
  inside := true

variable (s : TunStream)

def reserveBuf (minSize maxSize spare : Nat) : TunStream :=
  if s.capacity < minSize then { s with capacity := s.len + maxSize + spare } else s

def access (bytes : Nat) : TunStream :=
  { s with inside := s.inside && decide (s.len + bytes ≤ s.capacity) }

def pollNext (poll : Poll) : TunStream :=
  let s := s.reserveBuf 2500 (4 * 1024) poll.spare
  let s := if s.len = 0 then { s with len := s.payloadOffset } else s
  let s := s.access 2500
  if poll.filled = 0 then
    s
  else
    let s := s.access (poll.filled + TAIL_RESERVED_SIZE)
    -- `split` leaves the rest of the capacity
    { s with len := 0, capacity := s.capacity - (s.len + poll.filled + TAIL_RESERVED_SIZE) }

/-- New memory is reserved, or what is left has room for the headers and the slice, and for the
headers, the packet and the tail. -/
def Roomy (poll : Poll) : Prop :=
  s.capacity < 2500 ∨ s.payloadOffset + 2500 ≤ s.capacity ∧
    (poll.filled ≠ 0 → s.payloadOffset + poll.filled + TAIL_RESERVED_SIZE ≤ s.capacity)

/-- The buffer is empty or has the headers of the next packet. -/
structure Ready : Prop where
  len : s.len = 0 ∨ s.len = s.payloadOffset
  offset : 0 < s.payloadOffset ∧ s.payloadOffset ≤ 36

theorem pollNext_inside {s : TunStream} (ready : s.Ready) (inside : s.inside = true) (poll : Poll) :
    (s.pollNext poll).Ready ∧ ((s.pollNext poll).inside = true ↔ s.Roomy poll) := by
  obtain ⟨payloadOffset, len, capacity, _⟩ := s
  obtain ⟨len_eq, positive, bound⟩ := ready
  cases inside
  have tail : TAIL_RESERVED_SIZE = 28 := rfl
  have fits := poll.fits
  dsimp only at len_eq positive bound
  unfold pollNext reserveBuf Roomy access
  refine ⟨⟨?_, ?_⟩, ?_⟩
  all_goals
    by_cases small : capacity < 2500 <;> by_cases empty : len = 0 <;>
      by_cases none : poll.filled = 0 <;> simp [small, empty, none] <;> omega

/-- **Reads stay inside the buffer**, just if what each of them finds is too small to be used again
or has room for the headers and the tail too. -/
theorem reads_inside_iff (hasPacketInfo : Bool) (polls : List Poll) :
    (∀ s ∈ visited (fun s poll => some (pollNext s poll)) (new hasPacketInfo) polls,
        s.inside = true) ↔
      ∀ move ∈ moves (fun s poll => some (pollNext s poll)) (new hasPacketInfo) polls,
        move.1.Roomy move.2 := by
  apply @visited_iff_moves _ _ _ Ready Roomy _ _ fun _ => True
  · intro s poll _ ready inside
    exact ⟨_, rfl, pollNext_inside ready inside poll⟩
  · exact fun _ _ => trivial
  · cases hasPacketInfo <;> exact ⟨.inl rfl, by decide⟩
  · rfl

/-- After a packet of 1532 bytes there are 2500 left, and the headers take 36 of them. -/
theorem second_read_outside :
    ((new false).pollNext ⟨0, 1532, by decide⟩).inside = true ∧
      (((new false).pollNext ⟨0, 1532, by decide⟩).pollNext ⟨0, 100, by decide⟩).inside =
        false := by
  decide

end TunStream

end PeerLink.Tunnel
