import PeerLink.Packet.Cipher

/-!
# Addresses and IP packets

The fields of IP, TCP and UDP headers that the packet filters read, as the
packet library reads them: a view exists once the fixed part of the header is
there, and the payload is cut by the lengths the header states.
-/

namespace PeerLink.Packet

abbrev Ipv4Addr := BitVec 32

abbrev Ipv6Addr := BitVec 128

inductive IpAddr where
  | v4 (addr : Ipv4Addr)
  | v6 (addr : Ipv6Addr)
  deriving DecidableEq

/-- An address and the length of its network part. -/
structure Inet (w : Nat) where
  address : BitVec w
  networkLength : Fin (w + 1)
  deriving DecidableEq

namespace Inet
variable {w : Nat}

variable (inet : Inet w)

def hostMask : BitVec w := BitVec.allOnes w >>> inet.networkLength.val

def firstAddress : BitVec w := inet.address &&& ~~~inet.hostMask

def lastAddress : BitVec w := inet.address ||| inet.hostMask

@[simp]
theorem getElem_hostMask (i : Nat) (bound : i < w) :
    inet.hostMask[i] = decide (i + inet.networkLength.val < w) := by
  simp [hostMask, Nat.add_comm]

/-- The length that the source gives to IPv4 networks without one of their own. -/
def defaultLength : Fin (32 + 1) := ⟨24, by decide⟩

end Inet

/-- The big-endian number in `len` bytes from `start` on. -/
def field (data : Bytes) (start len : Nat) : Nat :=
  ((data.drop start).take len).foldl (fun n byte => n * 256 + byte.toNat) 0

namespace Ipv4Packet

def minimumPacketSize : Nat := 20

variable (data : Bytes)

def version : Nat := field data 0 1 / 16

def headerLength : Nat := field data 0 1 % 16

def totalLength : Nat := field data 2 2

def identification : Nat := field data 4 2

/-- In units of eight bytes. -/
def fragmentOffset : Nat := field data 6 2 % 2 ^ 13

def moreFragments : Bool := (field data 6 2).testBit 13

def nextLevelProtocol : Nat := field data 9 1

def source : Ipv4Addr := .ofNat 32 (field data 12 4)

def destination : Ipv4Addr := .ofNat 32 (field data 16 4)

def payload : Bytes :=
  let start := minimumPacketSize + (headerLength data * 4 - minimumPacketSize)
  let stop := start + (totalLength data - headerLength data * 4)
  (data.take stop).drop start

end Ipv4Packet

namespace Ipv6Packet

def minimumPacketSize : Nat := 40

variable (data : Bytes)

def payloadLength : Nat := field data 4 2

def nextHeader : Nat := field data 6 1

def source : Ipv6Addr := .ofNat 128 (field data 8 16)

def destination : Ipv6Addr := .ofNat 128 (field data 24 16)

def payload : Bytes :=
  (data.take (minimumPacketSize + payloadLength data)).drop minimumPacketSize

end Ipv6Packet

/-- The protocol numbers of `IpNextHeaderProtocols`. -/
def PROTOCOL_ICMP : Nat := 1

def PROTOCOL_TCP : Nat := 6

def PROTOCOL_UDP : Nat := 17

def PROTOCOL_ICMPV6 : Nat := 58

/-- The least size of a TCP or UDP header. -/
def transportMinimum (protocol : Nat) : Option Nat :=
  if protocol = PROTOCOL_TCP then some 20
  else if protocol = PROTOCOL_UDP then some 8
  else none

/-- Both ports of a TCP or UDP packet, and none for other protocols. It fails when
the transport header is cut short. -/
def ports (protocol : Nat) (data : Bytes) : Option (Option UInt16 × Option UInt16) :=
  match transportMinimum protocol with
  | none => some (none, none)
  | some least =>
    if data.length < least then
      none
    else
      some (some (.ofNat (field data 0 2)), some (.ofNat (field data 2 2)))

end PeerLink.Packet
