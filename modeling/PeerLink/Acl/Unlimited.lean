import PeerLink.Acl.Priority

/-!
# Configurations without rate limits

Without rate limits the ACL's answer to a packet depends on the configuration and on what is
read of the packet, and on nothing that came before it: not on the cache, the connections or
the counters.
-/

namespace PeerLink.Acl

open Packet

open Route (PeerId)

def AclConfig.WithoutLimits (acl : AclConfig) : Prop :=
  ∀ chain ∈ acl.chains, ∀ rule ∈ chain.rules, rule.rateLimit = 0

/-- The action of the first rule that applies, or else the default action. -/
def AclConfig.actionFor (parseCidr : CidrParser) (acl : AclConfig) (info : PacketInfo)
    (chainType : ChainType) : Action :=
  ((acl.firstMatch parseCidr info chainType).map (·.action)).getD
    (buildDefaultAction acl chainType)

namespace AclFilter

/-- Whether a packet with the info passes. -/
def admitsInfo (parseCidr : CidrParser) (acl : AclConfig) (f : AclFilter) (info : PacketInfo)
    (isIn : Bool) (mine : MyAddrs) : Bool :=
  f.checkIsQuicPacket info mine ||
    acl.actionFor parseCidr info (chainTypeOf info isIn mine) ≠ .drop

/-- What `process_packet_with_acl` answers, by the configuration alone. -/
def admits (parseCidr : CidrParser) (acl : AclConfig) (f : AclFilter) (packet : ZCPacket)
    (isIn : Bool) (mine : MyAddrs) (groups : PeerId → List String) : Bool :=
  !f.aclEnabled || packet.header.packetType != PacketType.data.code ||
    (extractPacketInfo packet groups).all (f.admitsInfo parseCidr acl · isIn mine)

end AclFilter

section

variable {parseCidr : CidrParser} {acl : AclConfig} {info : PacketInfo} {chainType : ChainType}

theorem firstMatch_unlimited (free : acl.WithoutLimits) {compiled : FastLookupRule}
    (found : acl.firstMatch parseCidr info chainType = some compiled) : compiled.rateLimit = 0 := by
  obtain ⟨chain, rule, first, mem, -, rfl, -⟩ := firstMatch_some found
  obtain ⟨listed, -⟩ := firstChain_some first
  exact free chain listed rule mem

end

namespace AclFilter

variable {parseCidr : CidrParser} {acl : AclConfig} {f f' : AclFilter}

/-- The filter after a packet: the same switch and port, and a processor of the same
configuration. -/
structure Continues (parseCidr : CidrParser) (acl : AclConfig) (f f' : AclFilter) : Prop where
  faithful : f'.aclProcessor.Faithful parseCidr acl
  enabled : f'.aclEnabled = f.aclEnabled
  quic : f'.quicUdpPort = f.quicUdpPort

theorem chainTypeOf_served (info : PacketInfo) (isIn : Bool) (mine : MyAddrs) :
    chainTypeOf info isIn mine ≠ .unspecifiedChain := by
  unfold chainTypeOf
  repeat' split
  all_goals decide

theorem runProcessor_continues (free : acl.WithoutLimits)
    (faithful : f.aclProcessor.Faithful parseCidr acl) {info : PacketInfo}
    (ports : PortsPresent info) {chainType : ChainType} (served : chainType ≠ .unspecifiedChain)
    (env : AclEnv) :
    ∃ f', f.runProcessor env info chainType = some (acl.actionFor parseCidr info chainType, f') ∧
      f.Continues parseCidr acl f' := by
  obtain ⟨result, p', processed, -⟩ :=
    AclProcessor.processPacket_processes faithful.cacheSound ports env chainType
  have action := processPacket_action faithful ports served
    (fun _ found => firstMatch_unlimited free found) processed
  have after := faithful.packet ports processed
  refine ⟨{ f with aclProcessor := handleAclResult result chainType p' }, ?_, ?_, rfl, rfl⟩
  · rw [AclConfig.actionFor, ← action, runProcessor, processed]
    rfl
  · have sound := after.cacheSound.handleAclResult result chainType
    rw [AclProcessor.handleAclResult_eq] at sound ⊢
    exact ⟨after.rules, after.defaults, sound, after.recorded.mono rfl fun _ _ found => found⟩

theorem processPacketWithAcl_admits (free : acl.WithoutLimits)
    (faithful : f.aclProcessor.Faithful parseCidr acl) (env : AclEnv) (packet : ZCPacket)
    (isIn : Bool) (mine : MyAddrs) (groups : PeerId → List String) :
    ∃ f', f.processPacketWithAcl env packet isIn mine groups =
        some (f.admits parseCidr acl packet isIn mine groups, f') ∧
      f.Continues parseCidr acl f' := by
  have same : f.Continues parseCidr acl f := ⟨faithful, rfl, rfl⟩
  unfold processPacketWithAcl admits
  cases f.aclEnabled with
  | false => exact ⟨f, rfl, same⟩
  | true =>
    by_cases data : packet.header.packetType = PacketType.data.code
    · simp only [data, Bool.not_true, Bool.false_eq_true, if_false, ne_eq, not_true,
        bne_self_eq_false,
        Bool.false_or]
      cases extracted : extractPacketInfo packet groups with
      | none => exact ⟨f, rfl, same⟩
      | some info =>
        simp only [Option.all_some, admitsInfo]
        cases f.checkIsQuicPacket info mine with
        | true => exact ⟨f, rfl, same⟩
        | false =>
          obtain ⟨f', ran, after⟩ := runProcessor_continues free faithful
            (extractPacketInfo_portsPresent extracted) (chainTypeOf_served info isIn mine) env
          exact ⟨f', by simp [ran], after⟩
    · exact ⟨f, by simp [data], same⟩

theorem Continues.admits_eq (after : f.Continues parseCidr acl f') (packet : ZCPacket)
    (isIn : Bool) (mine : MyAddrs) (groups : PeerId → List String) :
    f'.admits parseCidr acl packet isIn mine groups =
      f.admits parseCidr acl packet isIn mine groups := by
  simp [admits, admitsInfo, checkIsQuicPacket, after.enabled, after.quic]

end AclFilter

end PeerLink.Acl
