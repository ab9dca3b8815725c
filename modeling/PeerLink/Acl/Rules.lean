import PeerLink.Packet.Ip

/-!
# ACL rules

The configuration as it arrives, and the rule lists that a processor is built
from. Enumerations of the configuration are plain numbers on the wire; a number
without a meaning reads as the first member.
-/

namespace PeerLink.Acl

open Packet

inductive Protocol where
  | unspecified
  | tcp
  | udp
  | icmp
  | icmpv6
  | any
  deriving DecidableEq

def Protocol.ofCode : Int → Protocol
  | 1 => tcp
  | 2 => udp
  | 3 => icmp
  | 4 => icmpv6
  | 5 => any
  | _ => unspecified

inductive Action where
  | noop
  | allow
  | drop
  deriving DecidableEq

def Action.ofCode : Int → Action
  | 1 => allow
  | 2 => drop
  | _ => noop

inductive ChainType where
  | unspecifiedChain
  | inbound
  | outbound
  | forward
  deriving DecidableEq

namespace ChainType

def code : ChainType → Int
  | unspecifiedChain => 0
  | inbound => 1
  | outbound => 2
  | forward => 3

def ofCode : Int → ChainType
  | 1 => inbound
  | 2 => outbound
  | 3 => forward
  | _ => unspecifiedChain

end ChainType

structure Rule where
  priority : Nat
  enabled : Bool
  protocol : Int
  ports : List String
  sourceIps : List String
  destinationIps : List String
  sourcePorts : List String
  action : Int
  rateLimit : Nat
  burstLimit : Nat
  stateful : Bool
  sourceGroups : List String
  destinationGroups : List String
  deriving DecidableEq

structure Chain where
  chainType : Int
  enabled : Bool
  rules : List Rule
  defaultAction : Int
  deriving DecidableEq

structure AclV1 where
  chains : List Chain
  deriving DecidableEq

structure AclConfig where
  aclV1 : Option AclV1
  deriving DecidableEq

def AclConfig.default : AclConfig := ⟨none⟩

def AclConfig.chains (acl : AclConfig) : List Chain :=
  match acl.aclV1 with
  | some v1 => v1.chains
  | none => []

/-! ## Compiled rules -/

inductive IpCidr where
  | v4 (network : Ipv4Addr) (length : Nat)
  | v6 (network : Ipv6Addr) (length : Nat)
  deriving DecidableEq

/-- An address of the other family is in no network. -/
def IpCidr.contains : IpCidr → IpAddr → Bool
  | v4 network length, .v4 addr => addr >>> (32 - length) == network >>> (32 - length)
  | v6 network length, .v6 addr => addr >>> (128 - length) == network >>> (128 - length)
  | _, _ => false

/-- `IpCidr::from_str` of the address library. -/
abbrev CidrParser := String → Option IpCidr

/-- `char::is_whitespace` -/
def isWhitespace (c : Char) : Bool :=
  let n := c.toNat
  (0x9 ≤ n && n ≤ 0xd) || n == 0x20 || n == 0x85 || n == 0xa0 || n == 0x1680 ||
    (0x2000 ≤ n && n ≤ 0x200a) || n == 0x2028 || n == 0x2029 || n == 0x202f || n == 0x205f ||
    n == 0x3000

def trim (s : List Char) : List Char :=
  ((s.dropWhile isWhitespace).reverse.dropWhile isWhitespace).reverse

def splitOnce (c : Char) : List Char → Option (List Char × List Char)
  | [] => none
  | d :: rest =>
    if d = c then some ([], rest) else (splitOnce c rest).map fun parts => (d :: parts.1, parts.2)

def parseDigits (n : Nat) : List Char → Option UInt16
  | [] => some (.ofNat n)
  | c :: rest =>
    if c.isDigit then
      let n := n * 10 + (c.toNat - '0'.toNat)
      if n < 2 ^ 16 then parseDigits n rest else none
    else
      none

/-- `u16::from_str`: digits, after a plus sign or none. -/
def parseU16 : List Char → Option UInt16
  | [] | ['+'] => none
  | '+' :: digits | digits => parseDigits 0 digits

def parsePortRange (s : String) : Option (UInt16 × UInt16) :=
  match splitOnce '-' s.toList with
  | some (start, stop) => do
    let start ← parseU16 (trim start)
    let stop ← parseU16 (trim stop)
    return (start, stop)
  | none => do
    let port ← parseU16 (trim s.toList)
    return (port, port)

structure FastLookupRule where
  priority : Nat
  protocol : Protocol
  srcIpRanges : List IpCidr
  dstIpRanges : List IpCidr
  srcPortRanges : List (UInt16 × UInt16)
  dstPortRanges : List (UInt16 × UInt16)
  sourceGroups : List String
  destinationGroups : List String
  action : Action
  enabled : Bool
  stateful : Bool
  rateLimit : Nat
  burstLimit : Nat

variable (parseCidr : CidrParser)

/-- Entries that do not parse are left out. -/
def convertToFastLookupRule (rule : Rule) : FastLookupRule where
  priority := rule.priority
  protocol := .ofCode rule.protocol
  srcIpRanges := rule.sourceIps.filterMap parseCidr
  dstIpRanges := rule.destinationIps.filterMap parseCidr
  srcPortRanges := rule.sourcePorts.filterMap parsePortRange
  dstPortRanges := rule.ports.filterMap parsePortRange
  sourceGroups := rule.sourceGroups
  destinationGroups := rule.destinationGroups
  action := .ofCode rule.action
  enabled := rule.enabled
  stateful := rule.stateful
  rateLimit := rule.rateLimit
  burstLimit := rule.burstLimit

/-- The enabled rules of one chain, higher priority first. -/
def chainRules (chain : Chain) : List FastLookupRule :=
  ((chain.rules.filter (·.enabled)).map (convertToFastLookupRule parseCidr)).insertionSort
    fun a b => b.priority ≤ a.priority

/-- The rules of `build_rules` for one chain type. -/
def buildRules (acl : AclConfig) (chainType : ChainType) : List FastLookupRule :=
  (acl.chains.filter fun chain =>
    chain.enabled && ChainType.ofCode chain.chainType == chainType).flatMap (chainRules parseCidr)

/-- The default of `build_default_actions` for one chain type: the first chain of
the type has it, enabled or not. -/
def buildDefaultAction (acl : AclConfig) (chainType : ChainType) : Action :=
  match acl.chains.find? (·.chainType == chainType.code) with
  | some chain => .ofCode chain.defaultAction
  | none => .allow

/-! ## Matching -/

structure PacketInfo where
  srcIp : IpAddr
  dstIp : IpAddr
  srcPort : Option UInt16
  dstPort : Option UInt16
  protocol : Protocol
  packetSize : Nat
  srcGroups : List String
  dstGroups : List String
  deriving DecidableEq

def ipMatches (ranges : List IpCidr) (ip : IpAddr) : Bool :=
  ranges.isEmpty || ranges.any (·.contains ip)

/-- A packet without ports passes every port list. -/
def portMatches (ranges : List (UInt16 × UInt16)) (port : Option UInt16) : Bool :=
  match port with
  | none => true
  | some port => ranges.isEmpty || ranges.any fun range => range.1 ≤ port && port ≤ range.2

def groupMatches (wanted groups : List String) : Bool :=
  wanted.isEmpty || groups.any fun group => wanted.contains group

def FastLookupRule.ruleMatches (rule : FastLookupRule) (info : PacketInfo) : Bool :=
  (rule.protocol == .any || rule.protocol == info.protocol) &&
    ipMatches rule.srcIpRanges info.srcIp &&
    ipMatches rule.dstIpRanges info.dstIp &&
    portMatches rule.srcPortRanges info.srcPort &&
    portMatches rule.dstPortRanges info.dstPort &&
    groupMatches rule.sourceGroups info.srcGroups &&
    groupMatches rule.destinationGroups info.dstGroups

end PeerLink.Acl
