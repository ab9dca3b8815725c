import PeerLink.Acl.Answers

/-!
# Priorities and disabled parts

What of a configuration decides about a packet. The rules of a chain are sorted by their
priority, but the chains stand one after the other, so a rule of an earlier chain goes before
every rule of a later one. Chains and rules that are disabled are left out, except that the
default action is that of the first chain, disabled or not.
-/

namespace PeerLink.Acl

open Packet

/-- The chain is enabled and is of the type. -/
def Chain.serves (chain : Chain) (chainType : ChainType) : Bool :=
  chain.enabled && ChainType.ofCode chain.chainType == chainType

/-- The rule is enabled and matches, once it is compiled. -/
def Rule.applies (parseCidr : CidrParser) (info : PacketInfo) (rule : Rule) : Bool :=
  rule.enabled && (convertToFastLookupRule parseCidr rule).ruleMatches info

namespace AclConfig

variable (parseCidr : CidrParser) (acl : AclConfig) (info : PacketInfo) (chainType : ChainType)

/-- An enabled rule of an enabled chain of the type matches. -/
def Applies (rule : Rule) : Prop :=
  ∃ chain ∈ acl.chains, chain.serves chainType = true ∧ rule ∈ chain.rules ∧
    rule.applies parseCidr info = true

/-- No rule that applies has a higher priority. -/
def Highest (rule : Rule) : Prop :=
  acl.Applies parseCidr info chainType rule ∧
    ∀ other, acl.Applies parseCidr info chainType other → other.priority ≤ rule.priority

/-- The first chain with a rule that applies. -/
def firstChain : Option Chain :=
  acl.chains.find? fun chain =>
    chain.serves chainType && chain.rules.any (Rule.applies parseCidr info)

/-- The answer where no rule applies; a chain type that is not served has no other. -/
def fallback : Action :=
  if chainType = .unspecifiedChain then .drop else buildDefaultAction acl chainType

end AclConfig

/-! ## The first match -/

section

variable {parseCidr : CidrParser} {acl : AclConfig} {info : PacketInfo} {chainType : ChainType}

variable {chain : Chain} {compiled : FastLookupRule} {rule : Rule} {p p' : AclProcessor}
  {result : AclResult} {env : AclEnv}

/-- The first hit in an ordered list comes before the other hits. -/
theorem find?_before {α : Type} {r : α → α → Prop} {l : List α} {hits : α → Bool} {x y : α}
    (ordered : l.Pairwise r) (found : l.find? hits = some x) (mem : y ∈ l) (hit : hits y = true) :
    y = x ∨ r x y := by
  obtain ⟨-, before, after, rfl, misses⟩ := List.find?_eq_some_iff_append.mp found
  obtain early | late := List.mem_append.mp mem
  · exact absurd hit (by simpa using misses y early)
  · obtain rfl | late := List.mem_cons.mp late
    · exact .inl rfl
    · have tail := (List.pairwise_append.mp ordered).2.1
      exact .inr ((List.pairwise_cons.mp tail).1 y late)

theorem mem_chainRules :
    compiled ∈ chainRules parseCidr chain ↔ ∃ rule ∈ chain.rules, rule.enabled = true ∧
      convertToFastLookupRule parseCidr rule = compiled := by
  simp [chainRules, List.mem_insertionSort, List.mem_map, List.mem_filter, and_assoc]

theorem chainRules_ordered (chain : Chain) :
    (chainRules parseCidr chain).Pairwise fun a b => b.priority ≤ a.priority := by
  have total : Std.Total fun a b : FastLookupRule => b.priority ≤ a.priority :=
    ⟨fun a b => Nat.le_total b.priority a.priority⟩
  have trans : IsTrans FastLookupRule fun a b => b.priority ≤ a.priority :=
    ⟨fun _ _ _ first second => Nat.le_trans second first⟩
  exact List.pairwise_insertionSort _ _

/-- Within a chain the first match has the highest priority. -/
theorem chainRules_find
    (found : (chainRules parseCidr chain).find?
      (fun rule => rule.enabled && rule.ruleMatches info) =
      some compiled) :
    ∃ rule ∈ chain.rules, rule.applies parseCidr info = true ∧
      convertToFastLookupRule parseCidr rule = compiled ∧
      ∀ other ∈ chain.rules, other.applies parseCidr info = true →
        other.priority ≤ rule.priority := by
  obtain ⟨rule, mem, enabled, rfl⟩ := mem_chainRules.mp (List.mem_of_find?_eq_some found)
  have hit := List.find?_some found
  refine ⟨rule, mem, hit, rfl, fun other mem' applies => ?_⟩
  have compiledMem : convertToFastLookupRule parseCidr other ∈ chainRules parseCidr chain :=
    mem_chainRules.mpr ⟨other, mem', (Bool.and_eq_true_iff.mp applies).1, rfl⟩
  obtain same | lower := find?_before (chainRules_ordered chain) found compiledMem applies
  · exact (congrArg FastLookupRule.priority same).le
  · exact lower

theorem chainRules_find_none :
    (chainRules parseCidr chain).find? (fun rule => rule.enabled && rule.ruleMatches info) = none ↔
      chain.rules.any (Rule.applies parseCidr info) = false := by
  rw [List.find?_eq_none, List.any_eq_false]
  constructor
  · intro misses rule mem applies
    exact misses _
      (mem_chainRules.mpr ⟨rule, mem, (Bool.and_eq_true_iff.mp applies).1, rfl⟩) applies
  · intro misses compiled listed
    obtain ⟨rule, mem, -, rfl⟩ := mem_chainRules.mp listed
    exact misses rule mem

theorem buildRules_eq (acl : AclConfig) : buildRules parseCidr acl chainType =
    (acl.chains.filter (·.serves chainType)).flatMap (chainRules parseCidr) := rfl

/-- The scan ends in the first chain with a rule that applies. -/
theorem firstMatch_eq (acl : AclConfig) :
    acl.firstMatch parseCidr info chainType =
      (acl.firstChain parseCidr info chainType).bind fun chain =>
        (chainRules parseCidr chain).find? fun rule => rule.enabled && rule.ruleMatches info := by
  unfold AclConfig.firstMatch AclConfig.firstChain
  rw [buildRules_eq]
  induction acl.chains with
  | nil => rfl
  | cons chain chains ih =>
    rw [List.filter_cons, List.find?_cons]
    cases chain.serves chainType with
    | false => exact ih
    | true =>
      rw [if_pos rfl, List.flatMap_cons, List.find?_append, ih]
      cases found : (chainRules parseCidr chain).find? fun rule =>
          rule.enabled && rule.ruleMatches info with
      | none => simp [chainRules_find_none.mp found]
      | some compiled =>
        obtain ⟨rule, mem, applies, -⟩ := chainRules_find found
        simp [List.any_eq_true.mpr ⟨rule, mem, applies⟩, found]

theorem firstChain_some (first : acl.firstChain parseCidr info chainType = some chain) :
    chain ∈ acl.chains ∧ chain.serves chainType = true ∧
      ∃ rule ∈ chain.rules, rule.applies parseCidr info = true := by
  have hits : (chain.serves chainType && chain.rules.any (Rule.applies parseCidr info)) = true :=
    List.find?_some (p := fun chain : Chain =>
      chain.serves chainType && chain.rules.any (Rule.applies parseCidr info)) first
  obtain ⟨serves, any⟩ := Bool.and_eq_true_iff.mp hits
  exact ⟨List.mem_of_find?_eq_some first, serves, List.any_eq_true.mp any⟩

theorem firstChain_of_applies (applies : acl.Applies parseCidr info chainType rule) :
    ∃ chain, acl.firstChain parseCidr info chainType = some chain := by
  obtain ⟨chain, mem, serves, ruleMem, hits⟩ := applies
  refine Option.isSome_iff_exists.mp (List.find?_isSome.mpr ⟨chain, mem, ?_⟩)
  exact Bool.and_eq_true_iff.mpr ⟨serves, List.any_eq_true.mpr ⟨rule, ruleMem, hits⟩⟩

theorem firstMatch_some (found : acl.firstMatch parseCidr info chainType = some compiled) :
    ∃ chain rule, acl.firstChain parseCidr info chainType = some chain ∧ rule ∈ chain.rules ∧
      rule.applies parseCidr info = true ∧ convertToFastLookupRule parseCidr rule = compiled ∧
      ∀ other ∈ chain.rules, other.applies parseCidr info = true →
        other.priority ≤ rule.priority := by
  rw [firstMatch_eq] at found
  obtain ⟨chain, first, found⟩ := Option.bind_eq_some_iff.mp found
  obtain ⟨rule, mem, applies, same, highest⟩ := chainRules_find found
  exact ⟨chain, rule, first, mem, applies, same, highest⟩

theorem firstMatch_none :
    acl.firstMatch parseCidr info chainType = none ↔
      ∀ rule, ¬ acl.Applies parseCidr info chainType rule := by
  rw [firstMatch_eq]
  constructor
  · intro missed rule applies
    obtain ⟨chain, first⟩ := firstChain_of_applies applies
    obtain ⟨-, -, any⟩ := firstChain_some first
    rw [first, Option.bind_some, chainRules_find_none, List.any_eq_true.mpr any] at missed
    cases missed
  · intro misses
    refine Option.bind_eq_none_iff.mpr fun chain first => ?_
    obtain ⟨mem, serves, rule, ruleMem, applies⟩ := firstChain_some first
    exact absurd ⟨chain, mem, serves, ruleMem, applies⟩ (misses rule)

theorem firstChain_applies
    (first : acl.firstChain parseCidr info chainType = some chain) (mem : rule ∈ chain.rules)
    (applies : rule.applies parseCidr info = true) :
    acl.Applies parseCidr info chainType rule := by
  obtain ⟨chainMem, serves, -⟩ := firstChain_some first
  exact ⟨chain, chainMem, serves, mem, applies⟩

/-! ## Who decides -/

/-- A rule of the highest priority is named in the answer, which is its action or a drop by
its rate limit; or nothing applies, and the answer is the default action. -/
inductive DecidedByPriority (parseCidr : CidrParser) (acl : AclConfig) (info : PacketInfo)
    (chainType : ChainType) (result : AclResult) : Prop where
  | rule (rule : Rule) (highest : acl.Highest parseCidr info chainType rule)
      (named : result.matchedRule.bind RuleId.rulePriority = some rule.priority)
      (action : result.action = .ofCode rule.action ∨
        0 < rule.rateLimit ∧ result.logContext = some .rateLimitDrop ∧ result.action = .drop)
  | default (unmatched : ∀ rule, ¬ acl.Applies parseCidr info chainType rule)
      (action : result.action = acl.fallback chainType)

/-- The answer names the rule that the scan meets first. -/
theorem answers_first {index : Nat} (answers : p.Answers info chainType result p')
    (decides : p.matching info chainType = some (compiled, index)) :
    result.matchedRule.bind RuleId.rulePriority = some compiled.priority ∧
      (result.action = compiled.action ∨ 0 < compiled.rateLimit ∧
        result.logContext = some .rateLimitDrop ∧ result.action = .drop) := by
  cases answers with
  | overLimit rule index' decides' limited log dropped named stats =>
    cases decides.symm.trans decides'
    exact ⟨named, .inr ⟨limited, log, dropped⟩⟩
  | answered log action named stats =>
    rw [AclProcessor.decision_of_matching decides] at action
    rw [named]
    exact ⟨AclProcessor.matchedRule_priority decides, .inl action⟩

theorem answers_default (answers : p.Answers info chainType result p')
    (undecided : p.matching info chainType = none) :
    result.action = p.defaultAction chainType := by
  cases answers with
  | overLimit rule index decides =>
    rw [undecided] at decides
    cases decides
  | answered log action named stats =>
    rw [action, AclProcessor.decision_of_no_matching undecided]

/-- Where no limit comes into it, the first match decides, or else the default action. -/
theorem processPacket_action (h : p.Faithful parseCidr acl)
    (ports : PortsPresent info) (served : chainType ≠ .unspecifiedChain)
    (unlimited : ∀ rule, acl.firstMatch parseCidr info chainType = some rule → rule.rateLimit = 0)
    (processed : p.processPacket env info chainType = some (result, p')) :
    result.action = ((acl.firstMatch parseCidr info chainType).map (·.action)).getD
      (buildDefaultAction acl chainType) := by
  obtain ⟨answers, -⟩ :=
    AclProcessor.processPacket_answers h.cacheSound h.recorded ports served processed
  have first := h.matching_map info chainType
  cases matched : p.matching info chainType with
  | none =>
    rw [matched] at first
    rw [← first, answers_default answers matched, h.defaults]
    rfl
  | some item =>
    rw [matched] at first
    obtain ⟨-, action | ⟨limited, -⟩⟩ := answers_first answers matched
    · rw [← first, action]
      rfl
    · exact absurd (unlimited _ first.symm) limited.ne'

/-- A packet of a chain type that is not served is dropped, whatever the rules. -/
theorem processPacket_unserved (sound : p.CacheSound) (ports : PortsPresent info)
    (processed : p.processPacket env info .unspecifiedChain = some (result, p')) :
    result.action = .drop ∧ result.matchedRule = some .default := by
  cases hit : p.ruleCache.lookup (.fromPacketInfo info .unspecifiedChain) with
  | some entry =>
    obtain ⟨other, otherType, isKey, served, otherPorts, -⟩ := sound _ _ hit
    exact absurd (AclProcessor.key_determines ports otherPorts isKey).1.symm served
  | none =>
    simp only [AclProcessor.processPacket, hit, if_true] at processed
    cases processed
    exact ⟨rfl, rfl⟩

/-- **Priority decides about a packet** exactly when the first chain with a rule that applies
has one of the highest priority, and is of a type that is served: chains are not sorted into
each other. -/
theorem decided_by_priority_iff {p p' : AclProcessor} (built : p.BuiltFrom parseCidr acl)
    (ports : PortsPresent info) {env : AclEnv} {result : AclResult}
    (processed : p.processPacket env info chainType = some (result, p')) :
    DecidedByPriority parseCidr acl info chainType result ↔
      ∀ chain, acl.firstChain parseCidr info chainType = some chain →
        chainType ≠ .unspecifiedChain ∧ ∀ other, acl.Applies parseCidr info chainType other →
          ∃ rule ∈ chain.rules, rule.applies parseCidr info = true ∧
            other.priority ≤ rule.priority := by
  have h := built.faithful
  by_cases served : chainType = .unspecifiedChain
  · subst served
    obtain ⟨dropped, named⟩ := processPacket_unserved h.cacheSound ports processed
    constructor
    · rintro (⟨top, -, topNamed, -⟩ | ⟨unmatched, -⟩) chain isFirst
      · rw [named] at topNamed
        cases topNamed
      · obtain ⟨-, -, rule, mem, applies⟩ := firstChain_some isFirst
        exact absurd (firstChain_applies isFirst mem applies) (unmatched rule)
    · intro condition
      refine .default (fun rule applies => ?_) dropped
      obtain ⟨chain, isFirst⟩ := firstChain_of_applies applies
      exact (condition chain isFirst).1 rfl
  obtain ⟨answers, -⟩ :=
    AclProcessor.processPacket_answers h.cacheSound h.recorded ports served processed
  have first := h.matching_map info chainType
  cases matched : p.matching info chainType with
  | none =>
    rw [matched] at first
    have unmatched := firstMatch_none.mp first.symm
    refine iff_of_true (.default unmatched ?_) fun chain isFirst => ?_
    · rw [answers_default answers matched, h.defaults, AclConfig.fallback, if_neg served]
    · obtain ⟨-, -, rule, mem, applies⟩ := firstChain_some isFirst
      exact absurd (firstChain_applies isFirst mem applies) (unmatched rule)
  | some item =>
    obtain ⟨compiled, index⟩ := item
    rw [matched] at first
    obtain ⟨chain, rule, isFirst, mem, applies, rfl, best⟩ := firstMatch_some first.symm
    obtain ⟨named, action⟩ := answers_first answers matched
    have here := firstChain_applies isFirst mem applies
    constructor
    · rintro (⟨top, highest, topNamed, -⟩ | ⟨unmatched, -⟩) chain' isFirst'
      · cases isFirst.symm.trans isFirst'
        have same : rule.priority = top.priority := Option.some.inj (named.symm.trans topNamed)
        exact ⟨served, fun other applies' =>
          ⟨rule, mem, applies, same ▸ highest.2 other applies'⟩⟩
      · exact absurd here (unmatched rule)
    · intro condition
      refine .rule rule ⟨here, fun other applies' => ?_⟩ named action
      obtain ⟨better, betterMem, betterApplies, le⟩ :=
        (condition chain isFirst).2 other applies'
      exact le.trans (best better betterMem betterApplies)

/-- A rule for TCP packets, at the priority and with the code of its action. -/
def tcpRule (priority action : Nat) : Rule :=
  ⟨priority, true, 1, [], [], [], [], action, 0, 0, false, [], []⟩

/-- Two inbound chains: the first lets TCP through at the first priority, the second drops it
at the second. -/
def twoChains (first second : Nat) : AclConfig :=
  ⟨some ⟨[⟨ChainType.inbound.code, true, [tcpRule first 1], 2⟩,
    ⟨ChainType.inbound.code, true, [tcpRule second 2], 2⟩]⟩⟩

theorem higher_chain_first_decides :
    ∃ result p', (AclProcessor.freshProcessor (twoChains 20 10)).processPacket sampleEnv
        sampleHandler.packetInfo .inbound = some (result, p') ∧ result.action = .allow ∧
      DecidedByPriority (fun _ => none) (twoChains 20 10) sampleHandler.packetInfo .inbound
        result := by
  obtain ⟨⟨result, p'⟩, processed, allowed⟩ :
      ∃ answer ∈ (AclProcessor.freshProcessor (twoChains 20 10)).processPacket sampleEnv
        sampleHandler.packetInfo .inbound, answer.1.action = .allow := by decide +kernel
  refine ⟨result, p', processed, allowed, (decided_by_priority_iff
    (AclProcessor.freshProcessor_built (twoChains 20 10)) (by decide) processed).mpr ?_⟩
  refine fun chain isFirst => ⟨nofun, ?_⟩
  rintro other ⟨chain', mem, -, otherMem, -⟩
  have found : ((twoChains 20 10).firstChain (fun _ => none) sampleHandler.packetInfo
      .inbound).map Chain.rules = some [tcpRule 20 1] := by decide +kernel
  rw [isFirst] at found
  have rules : chain.rules = [tcpRule 20 1] := Option.some.inj found
  have low : ∀ chain ∈ (twoChains 20 10).chains, ∀ rule ∈ chain.rules, rule.priority ≤ 20 := by
    decide
  exact ⟨tcpRule 20 1, rules ▸ List.mem_singleton_self _, by decide +kernel,
    low chain' mem other otherMem⟩

/-- A rule of priority 5 in the first chain lets a packet through that one of priority 100 in
the second drops. -/
theorem lower_chain_first_decides :
    AclProcessor.BuiltFrom (fun _ => none) (twoChains 5 100)
        (AclProcessor.freshProcessor (twoChains 5 100)) ∧
      PortsPresent sampleHandler.packetInfo ∧
      (twoChains 5 100).Applies (fun _ => none) sampleHandler.packetInfo .inbound
        (tcpRule 100 2) ∧
      ((AclProcessor.freshProcessor (twoChains 5 100)).processPacket sampleEnv
        sampleHandler.packetInfo .inbound).map (fun answer =>
          (answer.1.action, answer.1.matchedRule)) = some (.allow, some (.priority 5)) :=
  ⟨AclProcessor.freshProcessor_built _, by decide,
    ⟨_, List.mem_cons_of_mem _ List.mem_cons_self, rfl, List.mem_cons_self, by decide +kernel⟩,
    by decide +kernel⟩

/-! ## Disabled chains and rules -/

def Chain.prune (chain : Chain) : Chain :=
  { chain with rules := chain.rules.filter (·.enabled) }

/-- The configuration with its disabled chains and rules deleted. -/
def AclConfig.prune (acl : AclConfig) : AclConfig :=
  ⟨acl.aclV1.map fun v1 => ⟨(v1.chains.filter (·.enabled)).map Chain.prune⟩⟩

/-- The default action that a chain brings; without one it is to allow. -/
def Chain.defaultOf (chain : Option Chain) : Action :=
  chain.elim .allow fun chain => .ofCode chain.defaultAction

/-- The first chain of the type and the first enabled one have one default action. -/
def AclConfig.DefaultsAgree (acl : AclConfig) (chainType : ChainType) : Prop :=
  Chain.defaultOf (acl.chains.find? (·.chainType == chainType.code)) =
    Chain.defaultOf (acl.chains.find? fun chain =>
      chain.enabled && chain.chainType == chainType.code)

theorem prune_chains (acl : AclConfig) :
    acl.prune.chains = (acl.chains.filter (·.enabled)).map Chain.prune := by
  obtain ⟨_ | v1⟩ := acl <;> rfl

theorem chainRules_prune (chain : Chain) :
    chainRules parseCidr chain.prune = chainRules parseCidr chain := by
  simp [chainRules, Chain.prune]

theorem buildRules_prune (acl : AclConfig) :
    buildRules parseCidr acl.prune = buildRules parseCidr acl := by
  funext chainType
  rw [buildRules_eq, buildRules_eq, prune_chains, List.filter_map, List.filter_filter,
    List.flatMap_map]
  have kept : (fun chain : Chain => (chain.serves chainType && chain.enabled)) =
      fun chain => chain.serves chainType := by
    funext chain
    unfold Chain.serves
    cases chain.enabled <;> simp
  have rules : (fun chain : Chain => chainRules parseCidr chain.prune) = chainRules parseCidr :=
    funext chainRules_prune
  exact congrArg₂ (fun chains rules => List.flatMap rules chains)
    (congrArg (List.filter · acl.chains) kept) rules

theorem buildDefaultAction_eq (acl : AclConfig) (chainType : ChainType) :
    buildDefaultAction acl chainType =
      Chain.defaultOf (acl.chains.find? (·.chainType == chainType.code)) := by
  unfold buildDefaultAction Chain.defaultOf
  split <;> rename_i found <;> rw [found] <;> rfl

theorem buildDefaultAction_prune (acl : AclConfig) (chainType : ChainType) :
    buildDefaultAction acl.prune chainType = Chain.defaultOf (acl.chains.find? fun chain =>
      chain.enabled && chain.chainType == chainType.code) := by
  rw [buildDefaultAction_eq, prune_chains, List.find?_map, List.find?_filter]
  have hits : (fun chain : Chain => decide (chain.enabled = true ∧
      ((fun chain : Chain => chain.chainType == chainType.code) ∘ Chain.prune) chain = true)) =
        fun chain => chain.enabled && chain.chainType == chainType.code := by
    funext chain
    by_cases same : chain.chainType = chainType.code <;> simp [Chain.prune, same]
  rw [hits]
  cases acl.chains.find? _ <;> rfl

theorem defaultsAgree_iff (acl : AclConfig) (chainType : ChainType) :
    acl.DefaultsAgree chainType ↔
      buildDefaultAction acl chainType = buildDefaultAction acl.prune chainType := by
  rw [buildDefaultAction_prune, buildDefaultAction_eq]
  rfl

end

namespace AclProcessor

/-- The actions that a run shows. -/
def actions (p : AclProcessor) (events : List AclEvent) : Option (List (Option Action)) :=
  (p.trace processPacket events).map (·.map (·.1))

/-- Processors of a configuration and of the pruned one, which have seen the same. -/
structure Siblings (parseCidr : CidrParser) (acl : AclConfig) (p q : AclProcessor) : Prop where
  whole : Faithful parseCidr acl p
  pruned : Faithful parseCidr acl.prune q
  shared : p.shared = q.shared

section

variable {parseCidr : CidrParser} {acl : AclConfig} {p q : AclProcessor}

variable {info : PacketInfo} {event : AclEvent}

theorem evaluate_siblings (shared : p.shared = q.shared) (rules : p.rules = q.rules) {env : AclEnv}
    {chainType : ChainType} {action other : Action} {after later : AclShared}
    (evaluated : p.evaluate env info chainType = some (action, after))
    (evaluated' : q.evaluate env info chainType = some (other, later)) :
    after = later ∧ (action = other ↔ (chainType ≠ .unspecifiedChain →
      p.matching info chainType = none →
        p.defaultAction chainType = q.defaultAction chainType)) := by
  unfold evaluate at evaluated evaluated'
  by_cases served : chainType = .unspecifiedChain
  · rw [if_pos served] at evaluated evaluated'
    cases evaluated
    cases evaluated'
    exact ⟨shared, iff_of_true rfl fun supported => absurd served supported⟩
  · rw [if_neg served] at evaluated evaluated'
    cases matched : p.matching info chainType with
    | some item =>
      obtain ⟨rule, index⟩ := item
      have matched' := (matching_congr rules).symm.trans matched
      rw [decision_of_matching matched] at evaluated
      rw [decision_of_matching matched', ← perform_congr env info shared, evaluated] at evaluated'
      cases evaluated'
      exact ⟨rfl, iff_of_true rfl fun _ => nofun⟩
    | none =>
      have matched' := (matching_congr rules).symm.trans matched
      rw [decision_of_no_matching matched] at evaluated
      rw [decision_of_no_matching matched'] at evaluated'
      cases evaluated
      cases evaluated'
      exact ⟨shared, fun same _ _ => same, fun same => same served rfl⟩

/-- The condition that one event puts on the configuration. -/
def EventAgrees (parseCidr : CidrParser) (acl : AclConfig) (event : AclEvent) : Prop :=
  ∀ info chainType env, event = .packet info chainType env → chainType ≠ .unspecifiedChain →
    (∀ rule, ¬ acl.Applies parseCidr info chainType rule) → acl.DefaultsAgree chainType

section
variable (siblings : Siblings parseCidr acl p q)
include siblings

theorem Siblings.packet (ports : PortsPresent info) (chainType : ChainType) (env : AclEnv) :
    ∃ action other p' q', p.step processPacket (.packet info chainType env) = some (action, p') ∧
      q.step processPacket (.packet info chainType env) = some (other, q') ∧
      Siblings parseCidr acl p' q' ∧
      (action = other ↔ EventAgrees parseCidr acl (.packet info chainType env)) := by
  obtain ⟨whole, pruned, shared⟩ := siblings
  obtain ⟨result, p', processed, h⟩ := processPacket_processes whole.cacheSound ports env chainType
  obtain ⟨result', q', processed', h'⟩ :=
    processPacket_processes pruned.cacheSound ports env chainType
  have rules : p.rules = q.rules := by
    rw [whole.rules, pruned.rules, buildRules_prune]
  obtain ⟨after, agrees⟩ := evaluate_siblings shared rules h.evaluated h'.evaluated
  refine ⟨some result.action, some result'.action, p', q', ?_, ?_,
    ⟨whole.packet ports processed, pruned.packet ports processed', after⟩, ?_⟩
  · simp [AclProcessor.step, processed]
  · simp [AclProcessor.step, processed']
  · have unmatched : p.matching info chainType = none ↔
        ∀ rule, ¬ acl.Applies parseCidr info chainType rule := by
      rw [← firstMatch_none, ← whole.matching_map, Option.map_eq_none_iff]
    rw [Option.some.injEq, agrees, whole.defaults, pruned.defaults, ← defaultsAgree_iff, unmatched]
    constructor
    · intro agree info' chainType' env' isEvent
      cases isEvent
      exact agree
    · exact fun agree => agree info chainType env rfl

/-- The events that are no packets show nothing. -/
theorem Siblings.silent (silent : ∀ info chainType env, event ≠ .packet info chainType env) :
    ∃ p' q', p.step processPacket event = some (none, p') ∧
      q.step processPacket event = some (none, q') ∧ Siblings parseCidr acl p' q' := by
  obtain ⟨whole, pruned, shared⟩ := siblings
  obtain ⟨conns, buckets⟩ := AclShared.mk.inj shared
  have extracted : Extracted [event] := fun info chainType env mem =>
    absurd (List.mem_singleton.mp mem).symm (silent info chainType env)
  suffices ∃ p' q', p.step processPacket event = some (none, p') ∧
      q.step processPacket event = some (none, q') ∧ p'.shared = q'.shared by
    obtain ⟨p', q', stepped, stepped', shared'⟩ := this
    exact ⟨p', q', stepped, stepped', whole.step extracted stepped,
      pruned.step extracted stepped', shared'⟩
  cases event with
  | packet info chainType env => exact absurd rfl (silent info chainType env)
  | evict keys => exact ⟨_, _, rfl, rfl, shared⟩
  | refill key tokens =>
    simp only [AclProcessor.step, ← buckets]
    cases p.rateLimiters.lookup key with
    | none => exact ⟨_, _, rfl, rfl, shared⟩
    | some bucket => exact ⟨_, _, rfl, rfl, congrArg (AclShared.mk · _) conns⟩
  | expire now =>
    refine ⟨_, _, rfl, rfl, ?_⟩
    simp [AclProcessor.shared, conns, buckets]

theorem Siblings.step (extracted : Extracted [event]) :
    ∃ action other p' q', p.step processPacket event = some (action, p') ∧
      q.step processPacket event = some (other, q') ∧ Siblings parseCidr acl p' q' ∧
      (action = other ↔ EventAgrees parseCidr acl event) := by
  by_cases isPacket : ∃ info chainType env, event = .packet info chainType env
  · obtain ⟨info, chainType, env, rfl⟩ := isPacket
    exact siblings.packet (extracted info chainType env List.mem_cons_self) chainType env
  · have silent : ∀ info chainType env, event ≠ .packet info chainType env :=
      fun info chainType env isEvent => isPacket ⟨info, chainType, env, isEvent⟩
    obtain ⟨p', q', stepped, stepped', siblings'⟩ := siblings.silent silent
    exact ⟨none, none, p', q', stepped, stepped', siblings', iff_of_true rfl
      fun info chainType env isEvent => absurd isEvent (silent info chainType env)⟩

end

theorem actions_cons {p' : AclProcessor} {action : Option Action}
    (stepped : p.step processPacket event = some (action, p')) (events : List AclEvent) :
    p.actions (event :: events) = (p'.actions events).map (action :: ·) := by
  cases rest : p'.trace processPacket events <;> simp [actions, trace, stepped, rest]

/-- The induction over a run: every event shows the same, or puts its condition. -/
theorem Siblings.actions_iff (siblings : Siblings parseCidr acl p q) {events : List AclEvent}
    (extracted : Extracted events) :
    (∃ seen, p.actions events = some seen) ∧ (∃ seen, q.actions events = some seen) ∧
      (p.actions events = q.actions events ↔
        ∀ event ∈ events, EventAgrees parseCidr acl event) := by
  induction events generalizing p q with
  | nil => exact ⟨⟨[], rfl⟩, ⟨[], rfl⟩, iff_of_true rfl (List.forall_mem_nil _)⟩
  | cons event events ih =>
    have here : Extracted [event] := fun info chainType env mem =>
      extracted info chainType env (List.mem_singleton.mp mem ▸ List.mem_cons_self)
    obtain ⟨action, other, p', q', stepped, stepped', siblings', agrees⟩ := siblings.step here
    obtain ⟨⟨seen, run⟩, ⟨seen', run'⟩, same⟩ := ih siblings' fun info chainType env mem =>
      extracted info chainType env (List.mem_cons_of_mem _ mem)
    rw [actions_cons stepped, actions_cons stepped', run, run']
    rw [run, run', Option.some.injEq] at same
    refine ⟨⟨_, rfl⟩, ⟨_, rfl⟩, ?_⟩
    rw [Option.map_some, Option.map_some, Option.some.injEq, List.cons.injEq, agrees, same,
      List.forall_mem_cons]

/-- **Disabled chains and rules have no effect** on the actions of a run exactly when, for
each packet of it that no rule applies to, the first chain of its type and the first enabled
one have the same default action: the default action is read off disabled chains too. -/
theorem disabled_parts_idle_iff (parseCidr : CidrParser) (acl : AclConfig)
    (connTrack : AList fun _ : ConnTrackKey => ConnTrackEntry)
    (rateLimiters : AList fun _ : RateLimitKey => TokenBucket)
    (stats : AList fun _ : AclStatKey => Nat) (events : List AclEvent)
    (extracted : Extracted events) :
    (newWithSharedState parseCidr acl connTrack rateLimiters stats).actions events =
        (newWithSharedState parseCidr acl.prune connTrack rateLimiters stats).actions events ↔
      ∀ info chainType env, AclEvent.packet info chainType env ∈ events →
        chainType ≠ .unspecifiedChain → (∀ rule, ¬ acl.Applies parseCidr info chainType rule) →
          acl.DefaultsAgree chainType := by
  have siblings : Siblings parseCidr acl
      (newWithSharedState parseCidr acl connTrack rateLimiters stats)
      (newWithSharedState parseCidr acl.prune connTrack rateLimiters stats) :=
    ⟨(BuiltFrom.start connTrack rateLimiters stats).faithful,
      (BuiltFrom.start connTrack rateLimiters stats).faithful, rfl⟩
  rw [(siblings.actions_iff extracted).2.2]
  constructor
  · exact fun agrees info chainType env mem => agrees _ mem info chainType env rfl
  · rintro agrees event mem info chainType env rfl
    exact agrees info chainType env mem

end

/-- An inbound chain without rules, disabled or not, with the code of its default action,
before an enabled one that drops. -/
def shadowed (enabled : Bool) (defaultAction : Int) : AclConfig :=
  ⟨some ⟨[⟨ChainType.inbound.code, enabled, [], defaultAction⟩,
    ⟨ChainType.inbound.code, true, [{ tcpRule 10 1 with enabled := false }], 2⟩]⟩⟩

def oneArrival : List AclEvent := [.packet sampleHandler.packetInfo .inbound sampleEnv]

theorem oneArrival_extracted : Extracted oneArrival := by
  intro info chainType env mem
  cases List.mem_singleton.mp mem
  decide

theorem disabled_drop_idle :
    (freshProcessor (shadowed false 2)).actions oneArrival = some [some .drop] ∧
      (freshProcessor (shadowed false 2)).actions oneArrival =
        (freshProcessor (shadowed false 2).prune).actions oneArrival := by
  refine ⟨by decide +kernel, (disabled_parts_idle_iff (fun _ => none) (shadowed false 2) ∅ ∅ ∅
    oneArrival oneArrival_extracted).mpr fun info chainType env mem _ _ => ?_⟩
  cases List.mem_singleton.mp mem
  unfold AclConfig.DefaultsAgree
  decide

/-- A disabled chain lets a packet through that is dropped once the chain is deleted. -/
theorem disabled_default_decides :
    Extracted oneArrival ∧
      (freshProcessor (shadowed false 1)).actions oneArrival = some [some .allow] ∧
      (freshProcessor (shadowed false 1).prune).actions oneArrival = some [some .drop] :=
  ⟨oneArrival_extracted, by decide +kernel, by decide +kernel⟩

end AclProcessor

end PeerLink.Acl
