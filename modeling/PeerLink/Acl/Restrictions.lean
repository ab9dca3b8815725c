import PeerLink.Acl.Answers

/-!
# What a rule is restricted to

Four lists of texts restrict a rule: networks and ports, of the source and the destination.
A text that cannot be read is left out when the rule is compiled, and a compiled list that
is empty restricts nothing. A list of which no text can be read is therefore as good as no
list.
-/

namespace PeerLink.Acl

open Packet

/-- A list of a rule, and whether a packet fits an entry; an entry that is not well formed
has no answer. -/
structure Restriction where
  entries : List String
  fits : String → Option Bool

namespace Restriction

variable (r : Restriction)

/-- There are entries, and the packet fits no well-formed one. -/
def Unmet : Prop :=
  r.entries ≠ [] ∧ ∀ entry ∈ r.entries, r.fits entry ≠ some true

/-- Some entry is well formed. -/
def Readable : Prop :=
  ∃ entry ∈ r.entries, r.fits entry ≠ none

/-- The compiled list lets the packet pass. -/
def admits : Bool :=
  (r.entries.filterMap r.fits).isEmpty || (r.entries.filterMap r.fits).any id

theorem admits_iff :
    r.admits = true ↔ ¬ r.Readable ∨ ∃ entry ∈ r.entries, r.fits entry = some true := by
  unfold admits Readable
  rw [Bool.or_eq_true, List.isEmpty_iff, List.filterMap_eq_nil_iff, List.any_eq_true]
  simp only [List.mem_filterMap, id_eq, exists_eq_right, not_exists, not_and, not_not]

/-- A readable list does its work. -/
theorem admits_of_readable {r : Restriction} (readable : r.Readable) :
    r.admits = false ↔ r.Unmet := by
  have inhabited : r.entries ≠ [] := by
    obtain ⟨entry, mem, -⟩ := readable
    exact List.ne_nil_of_mem mem
  rw [← Bool.not_eq_true, admits_iff, or_iff_right (not_not_intro readable)]
  simp only [Unmet, and_iff_right inhabited, not_exists, not_and, ne_eq]

theorem admits_of_not_readable {r : Restriction} (unreadable : ¬ r.Readable) : r.admits = true :=
  r.admits_iff.mpr (.inl unreadable)

end Restriction

/-- A network, for an address of the packet. -/
def networkRestriction (parseCidr : CidrParser) (entries : List String) (ip : IpAddr) :
    Restriction :=
  ⟨entries, fun entry => (parseCidr entry).map (·.contains ip)⟩

/-- A port or a range of ports; a packet without ports fits every range. -/
def portRestriction (entries : List String) (port : Option UInt16) : Restriction :=
  ⟨entries, fun entry => (parsePortRange entry).map fun range =>
    port.all fun port => range.1 ≤ port && port ≤ range.2⟩

/-- The lists of the rule, held against the packet. -/
def Rule.restrictions (parseCidr : CidrParser) (rule : Rule) (info : PacketInfo) :
    List Restriction :=
  [networkRestriction parseCidr rule.sourceIps info.srcIp,
    networkRestriction parseCidr rule.destinationIps info.dstIp,
    portRestriction rule.sourcePorts info.srcPort, portRestriction rule.ports info.dstPort]

/-- The protocol and the groups of the rule suit the packet. -/
def Rule.suits (rule : Rule) (info : PacketInfo) : Bool :=
  (Protocol.ofCode rule.protocol == .any || Protocol.ofCode rule.protocol == info.protocol) &&
    groupMatches rule.sourceGroups info.srcGroups &&
    groupMatches rule.destinationGroups info.dstGroups

section

variable {parseCidr : CidrParser} {rule : Rule} {info : PacketInfo}

theorem ipMatches_eq (entries : List String) (ip : IpAddr) :
    ipMatches (entries.filterMap parseCidr) ip =
      (networkRestriction parseCidr entries ip).admits := by
  have read : entries.filterMap (networkRestriction parseCidr entries ip).fits =
      (entries.filterMap parseCidr).map (·.contains ip) := by
    rw [List.map_filterMap]
    rfl
  have compiled : (networkRestriction parseCidr entries ip).entries = entries := rfl
  rw [Restriction.admits, compiled, read, List.isEmpty_map, List.any_map]
  rfl

theorem portMatches_eq (entries : List String) (port : Option UInt16) :
    portMatches (entries.filterMap parsePortRange) port =
      (portRestriction entries port).admits := by
  have read : entries.filterMap (portRestriction entries port).fits =
      (entries.filterMap parsePortRange).map fun range =>
        port.all fun port => range.1 ≤ port && port ≤ range.2 := by
    rw [List.map_filterMap]
    rfl
  have compiled : (portRestriction entries port).entries = entries := rfl
  rw [Restriction.admits, compiled, read, List.isEmpty_map, List.any_map]
  cases port with
  | some port => rfl
  | none => cases entries.filterMap parsePortRange <;> rfl

/-- Compiling and matching, in terms of the lists as configured. -/
theorem ruleMatches_eq (parseCidr : CidrParser) (rule : Rule) (info : PacketInfo) :
    (convertToFastLookupRule parseCidr rule).ruleMatches info =
      (rule.suits info && (rule.restrictions parseCidr info).all Restriction.admits) := by
  simp only [FastLookupRule.ruleMatches, convertToFastLookupRule, Rule.suits, Rule.restrictions,
    ipMatches_eq, portMatches_eq, List.all_cons, List.all_nil, Bool.and_true]
  ac_rfl

/-- **A malformed restriction widens no rule** exactly when each of its lists that is not
empty has a well-formed entry, or the packet is kept out by something else: the protocol, the
groups, or a list that has well-formed entries. -/
theorem restriction_kept_iff (parseCidr : CidrParser) (rule : Rule) (info : PacketInfo) :
    ((∃ r ∈ rule.restrictions parseCidr info, r.Unmet) →
        (convertToFastLookupRule parseCidr rule).ruleMatches info = false) ↔
      (∀ r ∈ rule.restrictions parseCidr info, r.entries ≠ [] → r.Readable) ∨
        rule.suits info = false ∨
          ∃ r ∈ rule.restrictions parseCidr info, r.Readable ∧ r.Unmet := by
  rw [ruleMatches_eq, Bool.and_eq_false_iff, List.all_eq_false]
  constructor
  · intro kept
    by_contra none
    obtain ⟨widened, suits, unmet⟩ : (¬ ∀ r ∈ rule.restrictions parseCidr info,
        r.entries ≠ [] → r.Readable) ∧ ¬ rule.suits info = false ∧
          ¬ ∃ r ∈ rule.restrictions parseCidr info, r.Readable ∧ r.Unmet := by
      simpa only [not_or] using none
    push Not at widened
    obtain ⟨r, mem, inhabited, unreadable⟩ := widened
    have isUnmet : r.Unmet := ⟨inhabited, fun entry entryMem fits =>
      unreadable ⟨entry, entryMem, fits ▸ Option.some_ne_none true⟩⟩
    obtain unsuited | ⟨other, otherMem, blocked⟩ := kept ⟨r, mem, isUnmet⟩
    · exact suits unsuited
    · have readable : other.Readable := by
        by_contra unreadable
        exact blocked (Restriction.admits_of_not_readable unreadable)
      have blocks := Bool.not_eq_true _ ▸ blocked
      exact unmet ⟨other, otherMem, readable, (Restriction.admits_of_readable readable).mp blocks⟩
  · rintro (wellFormed | unsuited | ⟨r, mem, readable, unmet⟩) ⟨other, otherMem, otherUnmet⟩
    · have readable := wellFormed other otherMem otherUnmet.1
      have blocks := (Restriction.admits_of_readable readable).mpr otherUnmet
      exact .inr ⟨other, otherMem, Bool.not_eq_true _ ▸ blocks⟩
    · exact .inl unsuited
    · have blocks := (Restriction.admits_of_readable readable).mpr unmet
      exact .inr ⟨r, mem, Bool.not_eq_true _ ▸ blocks⟩

end

/-- Inbound TCP to the ports is let through, everything else inbound is dropped. -/
def portsAcl (ports : List String) : AclConfig :=
  ⟨some ⟨[⟨ChainType.inbound.code, true,
    [⟨10, true, 1, ports, [], [], [], 1, 0, 0, false, [], []⟩], 2⟩]⟩⟩

/-- A rule for the port `http`, which is no number, lets a packet to any port through. -/
theorem unreadable_port_widens :
    (∃ rule ∈ (portsAcl ["http"]).chains.flatMap Chain.rules,
      sampleHandler.packetInfo.protocol = .tcp ∧
      (∃ r ∈ rule.restrictions (fun _ => none) sampleHandler.packetInfo, r.Unmet) ∧
      (convertToFastLookupRule (fun _ => none) rule).ruleMatches sampleHandler.packetInfo = true) ∧
    ((AclProcessor.freshProcessor (portsAcl ["http"])).processPacket sampleEnv
      sampleHandler.packetInfo .inbound).map (·.1.action) = some .allow ∧
    ((AclProcessor.freshProcessor (portsAcl ["9"])).processPacket sampleEnv
      sampleHandler.packetInfo .inbound).map (·.1.action) = some .drop := by
  refine ⟨⟨_, List.mem_cons_self, rfl, ⟨_, List.mem_cons_of_mem _ (List.mem_cons_of_mem _
    (List.mem_cons_of_mem _ List.mem_cons_self)), nofun, ?_⟩, by decide +kernel⟩,
    by decide +kernel, by decide +kernel⟩
  intro entry mem
  cases List.mem_singleton.mp mem
  have unread : parsePortRange "http" = none := by decide +kernel
  exact fun fits => by simp [portRestriction, unread] at fits

end PeerLink.Acl
