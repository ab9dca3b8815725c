import PeerLink.Route.Synced

/-!
# Packets between peers

A packet is the peer manager header and the payload after it. The bytes of the
tunnel header in front are left out: they carry nothing that the peer manager
reads.
-/

namespace PeerLink.Packet

open Route (PeerId)

inductive PacketType where
  | invalid
  | data
  | handShake
  | routePacket
  | ping
  | pong
  | taRpc
  | route
  | rpcReq
  | rpcResp
  | foreignNetworkPacket
  | kcpSrc
  | kcpDst

def PacketType.code : PacketType → UInt8
  | invalid => 0
  | data => 1
  | handShake => 2
  | routePacket => 3
  | ping => 4
  | pong => 5
  | taRpc => 6
  | route => 7
  | rpcReq => 8
  | rpcResp => 9
  | foreignNetworkPacket => 10
  | kcpSrc => 11
  | kcpDst => 12

/-! ## Flags -/

inductive Flag where
  | encrypted
  | latencyFirst
  | exitNode
  | noProxy
  | compressed
  | kcpSrcModified
  deriving DecidableEq

/-- The position of the flag's bit. -/
def Flag.bit : Flag → Nat
  | encrypted => 0
  | latencyFirst => 1
  | exitNode => 2
  | noProxy => 3
  | compressed => 4
  | kcpSrcModified => 5

theorem Flag.bit_injective : Function.Injective Flag.bit := by
  intro f g same
  cases f <;> cases g <;> first | rfl | cases same

theorem Flag.bit_lt (f : Flag) : f.bit < 8 := by
  cases f <;> decide

/-- The flags of a header. Bits without a meaning are kept as they came. -/
abbrev Flags := BitVec 8

namespace Flags

variable (flags : Flags) (f : Flag)

def contains : Bool := flags.getLsbD f.bit

def insert : Flags := flags ||| BitVec.twoPow 8 f.bit

def remove : Flags := flags &&& ~~~BitVec.twoPow 8 f.bit

def set (on : Bool) : Flags :=
  if on then flags.insert f else flags.remove f

theorem contains_set (g : Flag) (on : Bool) :
    (flags.set f on).contains g = if g = f then on else flags.contains g := by
  unfold set contains insert remove
  by_cases same : g = f
  · subst same
    cases on <;> simp [g.bit_lt]
  · have apart : g.bit ≠ f.bit := fun eq => same (Flag.bit_injective eq)
    cases on <;> simp [same, apart, g.bit_lt]

theorem contains_zero : contains 0 f = false := by
  simp [contains]

end Flags

/-! ## The header -/

structure PeerManagerHeader where
  fromPeerId : PeerId
  toPeerId : PeerId
  packetType : UInt8
  flags : Flags
  forwardCounter : UInt8
  len : Nat
  deriving DecidableEq

namespace PeerManagerHeader

variable (hdr : PeerManagerHeader) (on : Bool)

def isEncrypted : Bool := hdr.flags.contains .encrypted

def isLatencyFirst : Bool := hdr.flags.contains .latencyFirst

def isCompressed : Bool := hdr.flags.contains .compressed

def isExitNode : Bool := hdr.flags.contains .exitNode

def isNoProxy : Bool := hdr.flags.contains .noProxy

def isKcpSrcModified : Bool := hdr.flags.contains .kcpSrcModified

def setFlag (f : Flag) (on : Bool) : PeerManagerHeader :=
  { hdr with flags := hdr.flags.set f on }

@[simp] def setEncrypted : PeerManagerHeader :=
  hdr.setFlag .encrypted on

@[simp] def setLatencyFirst : PeerManagerHeader :=
  hdr.setFlag .latencyFirst on

@[simp] def setExitNode : PeerManagerHeader :=
  hdr.setFlag .exitNode on

@[simp] def setNoProxy : PeerManagerHeader :=
  hdr.setFlag .noProxy on

@[simp] def setCompressed : PeerManagerHeader :=
  hdr.setFlag .compressed on

@[simp] def setKcpSrcModified : PeerManagerHeader :=
  hdr.setFlag .kcpSrcModified on

/-- The packet types that carry user traffic. -/
def isUserTraffic : Bool :=
  hdr.packetType == PacketType.data.code || hdr.packetType == PacketType.kcpSrc.code ||
    hdr.packetType == PacketType.kcpDst.code

variable (hdr : PeerManagerHeader) (on : Bool)

@[simp] theorem setFlag_contains (f g : Flag) (on : Bool) :
    (hdr.setFlag f on).flags.contains g = if g = f then on else hdr.flags.contains g :=
  Flags.contains_set hdr.flags f g on

@[simp] theorem setFlag_isEncrypted (f : Flag) :
    (hdr.setFlag f on).isEncrypted = if .encrypted = f then on else hdr.isEncrypted :=
  hdr.setFlag_contains f .encrypted on

@[simp] theorem setFlag_isLatencyFirst (f : Flag) :
    (hdr.setFlag f on).isLatencyFirst = if .latencyFirst = f then on else hdr.isLatencyFirst :=
  hdr.setFlag_contains f .latencyFirst on

end PeerManagerHeader

structure ZCPacket where
  header : PeerManagerHeader
  payload : List UInt8
  deriving DecidableEq

namespace ZCPacket

def fillPeerManagerHdr (packet : ZCPacket) (fromPeerId toPeerId : PeerId) (packetType : UInt8) :
    ZCPacket :=
  { packet with
    header :=
      { fromPeerId := fromPeerId
        toPeerId := toPeerId
        packetType := packetType
        flags := 0
        forwardCounter := 1
        len := packet.payload.length % 2 ^ 32 } }

def setTo (packet : ZCPacket) (toPeerId : PeerId) : ZCPacket :=
  { packet with header := { packet.header with toPeerId := toPeerId } }

variable (packet : ZCPacket) (fromPeerId toPeerId : PeerId) (packetType : UInt8)

@[simp] theorem fillPeerManagerHdr_flags (flag : Flag) :
    (packet.fillPeerManagerHdr fromPeerId toPeerId packetType).header.flags.contains flag =
      false :=
  Flags.contains_zero flag

@[simp] theorem fillPeerManagerHdr_isEncrypted :
    (packet.fillPeerManagerHdr fromPeerId toPeerId packetType).header.isEncrypted = false :=
  packet.fillPeerManagerHdr_flags fromPeerId toPeerId packetType .encrypted

end ZCPacket

end PeerLink.Packet
