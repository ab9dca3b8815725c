import PeerLink.Acl.Cache

/-!
# Answers and counters

What `process_packet` answers and whose counters it raises. The first enabled rule that
matches is named in the answer and counted, or the default action is; a cache entry records
both, and a hit repeats what was recorded. The processors of one configuration are those
that it was built into, after any packets, evictions, refills and clean-ups.
-/

namespace PeerLink.Acl

open Packet

/-- The priority that an answer names. -/
def RuleId.rulePriority : RuleId → Option Nat
  | priority p | stateful p => some p
  | default => none

/-- The first rule of the chain type that is enabled and matches, in the order of
`build_rules`. -/
def AclConfig.firstMatch (parseCidr : CidrParser) (acl : AclConfig) (info : PacketInfo)
    (chainType : ChainType) : Option FastLookupRule :=
  (buildRules parseCidr acl chainType).find? fun rule => rule.enabled && rule.ruleMatches info

namespace AclProcessor

variable (p : AclProcessor) (info : PacketInfo) (chainType : ChainType)

/-- The rule that decides about the packet, with its place in the list of its chain type. -/
def matching : Option (FastLookupRule × Nat) :=
  (p.rules chainType).zipIdx.find? fun item => item.1.enabled && item.1.ruleMatches info

def matchedRule : RuleId :=
  match p.matching info chainType with
  | some (rule, _) =>
    if rule.stateful ∧ rule.action = .allow then .stateful rule.priority
    else .priority rule.priority
  | none => .default

/-- Whose counters stand for the packet. -/
def statsRef : RuleStatsRef :=
  match p.matching info chainType with
  | some (_, index) => .rule chainType index
  | none => .default

def isLimited : Bool :=
  (p.matching info chainType).any fun item => 0 < item.1.rateLimit

/-- The counters as the code collects them: those of a rule with a rate limit come twice. -/
def countedRefs : List RuleStatsRef :=
  if p.isLimited info chainType then
    [p.statsRef info chainType, p.statsRef info chainType]
  else
    [p.statsRef info chainType]

def countOne (stats : RuleStatsRef → StatItem) (ref : RuleStatsRef) : RuleStatsRef → StatItem :=
  Function.update stats ref
    ⟨(stats ref).packetCount + 1, (stats ref).byteCount + .ofNat info.packetSize⟩

theorem incCacheEntryStats_ruleStats (entry : AclCacheEntry) (info : PacketInfo) :
    (p.incCacheEntryStats entry info).ruleStats =
      entry.ruleStatsVec.foldl (countOne info) p.ruleStats := rfl

/-- What an entry keeps for the packets of its key, besides what it does to the buckets and
connections. -/
structure Records (entry : AclCacheEntry) : Prop where
  matched : entry.matchedRule = p.matchedRule info chainType
  counted : entry.ruleStatsVec = p.countedRefs info chainType
  answer : ∀ result, entry.aclResult = some result →
    result.matchedRule = some (p.matchedRule info chainType) ∧
      result.logContext ≠ some .rateLimitDrop

def Recorded : Prop :=
  ∀ key entry, p.ruleCache.lookup key = some entry → ∃ info chainType,
    key = .fromPacketInfo info chainType ∧ PortsPresent info ∧ p.Records info chainType entry

/-- The answer to a packet and what it does to the counters. -/
inductive Answers (result : AclResult) (p' : AclProcessor) : Prop where
  | overLimit (rule : FastLookupRule) (index : Nat)
      (decides : p.matching info chainType = some (rule, index)) (limited : 0 < rule.rateLimit)
      (log : result.logContext = some .rateLimitDrop) (dropped : result.action = .drop)
      (named : result.matchedRule.bind RuleId.rulePriority = some rule.priority)
      (stats : p'.ruleStats = p.ruleStats)
  | answered (log : result.logContext ≠ some .rateLimitDrop)
      (action : result.action = (p.decision info chainType).action)
      (named : result.matchedRule = some (p.matchedRule info chainType))
      (stats : p'.ruleStats = (p.countedRefs info chainType).foldl (countOne info) p.ruleStats)

section

variable {p q : AclProcessor} {info other : PacketInfo} {chainType : ChainType}

variable {rule : FastLookupRule} {index : Nat}

theorem matching_of_matches (p : AclProcessor)
    (same : ∀ rule : FastLookupRule, rule.ruleMatches info = rule.ruleMatches other) :
    p.matching info chainType = p.matching other chainType := by
  simp [matching, same]

theorem matching_congr (rules : p.rules = q.rules) :
    p.matching info chainType = q.matching info chainType := by
  simp [matching, rules]

/-- The records depend on the rule that decides only. -/
theorem Records.congr {entry : AclCacheEntry} (records : p.Records other chainType entry)
    (same : q.matching info chainType = p.matching other chainType) :
    q.Records info chainType entry := by
  have matched : q.matchedRule info chainType = p.matchedRule other chainType := by
    simp [matchedRule, same]
  have ref : q.statsRef info chainType = p.statsRef other chainType := by
    simp [statsRef, same]
  have limited : q.isLimited info chainType = p.isLimited other chainType := by
    simp [isLimited, same]
  have counted : q.countedRefs info chainType = p.countedRefs other chainType := by
    simp [countedRefs, limited, ref]
  exact ⟨matched ▸ records.matched, counted ▸ records.counted, matched ▸ records.answer⟩

theorem decision_of_matching (decides : p.matching info chainType = some (rule, index)) :
    p.decision info chainType = .ofRule chainType rule := by
  unfold decision
  rw [show (p.rules chainType).zipIdx.find? _ = _ from decides]

theorem decision_of_no_matching (undecided : p.matching info chainType = none) :
    p.decision info chainType = ⟨none, false, p.defaultAction chainType⟩ := by
  unfold decision
  rw [show (p.rules chainType).zipIdx.find? _ = _ from undecided]

/-- A decision with a limit is one of a rule with a limit. -/
theorem matching_of_limit {limit : RateLimitKey × Nat × Nat}
    (limited : (p.decision info chainType).limit = some limit) :
    ∃ rule index, p.matching info chainType = some (rule, index) ∧ 0 < rule.rateLimit ∧
      limit = (⟨chainType, rule.priority⟩, rule.rateLimit, rule.burstLimit) := by
  cases matched : p.matching info chainType with
  | none =>
    rw [decision_of_no_matching matched] at limited
    cases limited
  | some item =>
    obtain ⟨rule, index⟩ := item
    rw [decision_of_matching matched] at limited
    unfold Decision.ofRule at limited
    split at limited
    · rename_i positive
      cases limited
      exact ⟨rule, index, rfl, positive, rfl⟩
    · cases limited

theorem matchedRule_priority (decides : p.matching info chainType = some (rule, index)) :
    (p.matchedRule info chainType).rulePriority = some rule.priority := by
  simp only [matchedRule, decides]
  split <;> rfl

theorem matchedRule_default (undecided : p.matching info chainType = none) :
    p.matchedRule info chainType = .default := by
  simp [matchedRule, undecided]

/-! ## Answers from the cache -/

variable {env : AclEnv}

theorem checkRateLimit_buckets {key : RateLimitKey} {rate burst : Nat} {allowCreate passed : Bool}
    (checked : p.checkRateLimit key rate burst allowCreate = some (passed, q)) :
    ∃ limiters, q = { p with rateLimiters := limiters } := by
  unfold checkRateLimit at checked
  repeat' split at checked
  all_goals cases checked
  all_goals exact ⟨_, rfl⟩

/-- Taking tokens changes nothing but the buckets, and is refused only where one is asked for. -/
theorem checkRateLimits_spec {keys : List RateLimitKey} {passed : Bool}
    (checked : p.checkRateLimits keys = some (passed, q)) :
    (∃ limiters, q = { p with rateLimiters := limiters }) ∧ (passed = false → keys ≠ []) := by
  induction keys generalizing p with
  | nil =>
    cases checked
    exact ⟨⟨_, rfl⟩, nofun⟩
  | cons key keys ih =>
    refine ⟨?_, fun _ => List.cons_ne_nil key keys⟩
    obtain ⟨⟨first, mid⟩, one, rest⟩ := Option.bind_eq_some_iff.mp checked
    obtain ⟨limiters, rfl⟩ := checkRateLimit_buckets one
    dsimp only at rest
    split at rest
    · obtain ⟨⟨later, rfl⟩, -⟩ := ih rest
      exact ⟨later, rfl⟩
    · cases rest
      exact ⟨limiters, rfl⟩

/-- A hit answers what the entry records, and leaves the cache alone. -/
theorem replay_answers {entry : AclCacheEntry} {result : AclResult} {p' : AclProcessor}
    (notes : Notes other (p.decision info chainType) entry)
    (conn : connTrackKey other = connTrackKey info) (records : p.Records info chainType entry)
    (replayed : q.processPacketWithCacheEntry env info entry = some (result, p'))
    (stats : q.ruleStats = p.ruleStats) :
    p.Answers info chainType result p' ∧ p'.ruleCache = q.ruleCache := by
  obtain ⟨answer, cached, action⟩ := Option.map_eq_some_iff.mp notes.result
  rw [replay_eq notes conn cached] at replayed
  obtain ⟨⟨passed, mid⟩, checked, outcome⟩ := Option.map_eq_some_iff.mp replayed
  obtain ⟨⟨limiters, rfl⟩, refused⟩ := checkRateLimits_spec checked
  cases passed with
  | false =>
    have limited : (p.decision info chainType).limit ≠ none := by
      intro unlimited
      rw [unlimited] at refused
      exact refused rfl rfl
    obtain ⟨limit, limited⟩ := Option.ne_none_iff_exists'.mp limited
    obtain ⟨rule, index, decides, positive, -⟩ := matching_of_limit limited
    cases outcome
    refine ⟨.overLimit rule index decides positive rfl rfl ?_ stats, rfl⟩
    change entry.matchedRule.rulePriority = _
    rw [records.matched, matchedRule_priority decides]
  | true =>
    obtain ⟨named, log⟩ := records.answer answer cached
    cases outcome
    rw [track_eq]
    refine ⟨.answered log action named ?_, rfl⟩
    rw [incCacheEntryStats_ruleStats, records.counted]
    exact congrArg (List.foldl (countOne info) · (p.countedRefs info chainType)) stats

/-! ## Answers from the rules -/

variable {p' : AclProcessor}

/-- The entry that a packet starts with when the cache has none for it. -/
def blankEntry (env : AclEnv) (chainType : ChainType) : AclCacheEntry where
  matchedRule := .default
  lastAccess := env.now
  connTrackKey := none
  rateLimitKeys := []
  chainType := chainType
  aclResult := none
  ruleStatsVec := []

variable {result : AclResult}

theorem ruleEntry_records (env : AclEnv)
    (decides : p.matching info chainType = some (rule, index)) :
    p.Records info chainType { ruleEntry (blankEntry env chainType) info rule index with
      aclResult := some (ruleResult info rule) } where
  matched := by
    simp only [matchedRule, decides, ruleEntry]
    split <;> rfl
  counted := by
    have ref : p.statsRef info chainType = .rule chainType index := by
      simp [statsRef, decides]
    have limited : p.isLimited info chainType = decide (0 < rule.rateLimit) := by
      simp [isLimited, decides]
    simp only [countedRefs, limited, ref, ruleEntry, blankEntry]
    split <;> split <;> rfl
  answer result cached := by
    cases cached
    simp only [matchedRule, decides, ruleResult]
    split <;> exact ⟨rfl, by simp⟩

theorem defaultEntry_records (env : AclEnv) (undecided : p.matching info chainType = none)
    (action : Action) :
    p.Records info chainType { blankEntry env chainType with
      ruleStatsVec := [.default]
      aclResult := some ⟨action, some .default, false,
        some (if action = .drop then .defaultDrop else .defaultAllow)⟩ } where
  matched := (matchedRule_default undecided).symm
  counted := by
    simp only [countedRefs, isLimited, statsRef, undecided, Option.any_none]
    rfl
  answer result cached := by
    cases cached
    refine ⟨(congrArg some (matchedRule_default undecided)).symm, ?_⟩
    split <;> nofun

/-- What a packet that the cache does not know leaves in it. -/
def StoresRecord (p : AclProcessor) (info : PacketInfo) (chainType : ChainType)
    (p' : AclProcessor) : Prop :=
  ∀ key entry, p'.ruleCache.lookup key = some entry → p.ruleCache.lookup key = some entry ∨
    key = .fromPacketInfo info chainType ∧ p.Records info chainType entry

theorem applyRule_answers (decides : p.matching info chainType = some (rule, index))
    (applied : p.applyRule env (.fromPacketInfo info chainType) (blankEntry env chainType) info
      rule index = some (result, p')) :
    p.Answers info chainType result p' ∧ p.StoresRecord info chainType p' := by
  rw [applyRule_eq] at applied
  obtain ⟨passed, limiters, checked⟩ :=
    checkRateLimit_returns p ⟨chainType, rule.priority⟩ rule.rateLimit rule.burstLimit
  rw [show (blankEntry env chainType).chainType = chainType from rfl, checked] at applied
  have records := ruleEntry_records env decides
  cases passed with
  | false =>
    have positive : 0 < rule.rateLimit := by
      by_contra unlimited
      simp [checkRateLimit, Nat.eq_zero_of_not_pos unlimited] at checked
    cases applied
    exact ⟨.overLimit rule index decides positive rfl rfl rfl rfl,
      fun key entry found => .inl found⟩
  | true =>
    cases applied
    obtain ⟨named, log⟩ := records.answer _ rfl
    constructor
    · refine .answered log ?_ named ?_
      · rw [decision_of_matching decides]
        exact ruleResult_action rule
      · rw [← records.counted, track_eq]
        rfl
    · intro key entry found
      rw [track_eq] at found
      obtain old | ⟨isKey, rfl⟩ := lookup_of_cacheResult found
      · exact .inl old
      · exact .inr ⟨isKey, records⟩

theorem applyDefault_answers (undecided : p.matching info chainType = none) :
    let served := p.applyDefault env (.fromPacketInfo info chainType)
      (blankEntry env chainType) info
    p.Answers info chainType served.1 served.2 ∧ p.StoresRecord info chainType served.2 := by
  intro served
  have records := defaultEntry_records env undecided (p.defaultAction chainType)
  obtain ⟨named, log⟩ := records.answer _ rfl
  constructor
  · refine .answered log ?_ named ?_
    · rw [decision_of_no_matching undecided]
      rfl
    · rw [← records.counted]
      rfl
  · intro key entry found
    obtain old | ⟨isKey, rfl⟩ := lookup_of_cacheResult found
    · exact .inl old
    · exact .inr ⟨isKey, records⟩

/-- One call of `process_packet`, from the cache or from the rules. -/
theorem processPacket_answers (sound : p.CacheSound) (recorded : p.Recorded)
    (ports : PortsPresent info) (supported : chainType ≠ .unspecifiedChain)
    (processed : p.processPacket env info chainType = some (result, p')) :
    p.Answers info chainType result p' ∧ p.StoresRecord info chainType p' := by
  cases hit : p.ruleCache.lookup (.fromPacketInfo info chainType) with
  | none =>
    simp only [processPacket, hit, if_neg supported] at processed
    cases matched : p.matching info chainType with
    | some item =>
      obtain ⟨rule, index⟩ := item
      rw [show (p.rules chainType).zipIdx.find? _ = _ from matched] at processed
      exact applyRule_answers matched processed
    | none =>
      rw [show (p.rules chainType).zipIdx.find? _ = _ from matched] at processed
      cases processed
      exact applyDefault_answers matched
  | some entry =>
    obtain ⟨other, otherType, isKey, -, otherPorts, notes, -⟩ := sound _ _ hit
    obtain ⟨rfl, conn, same⟩ := key_determines ports otherPorts isKey
    rw [← decision_of_matches p same] at notes
    have records : p.Records info chainType entry := by
      obtain ⟨third, thirdType, isKey, thirdPorts, records⟩ := recorded _ _ hit
      obtain ⟨rfl, -, same⟩ := key_determines ports thirdPorts isKey
      exact records.congr (matching_of_matches p same)
    simp only [processPacket, hit] at processed
    -- the stamp on the entry is no part of what it notes and records
    have stampedNotes : Notes other (p.decision info chainType)
        { entry with lastAccess := env.now } := ⟨notes.keys, notes.conn, notes.result⟩
    have stampedRecords : p.Records info chainType { entry with lastAccess := env.now } :=
      ⟨records.matched, records.counted, records.answer⟩
    obtain ⟨answers, cache⟩ :=
      replay_answers stampedNotes conn.symm stampedRecords processed rfl
    refine ⟨answers, ?_⟩
    intro key other found
    rw [cache] at found
    obtain old | ⟨isKey, rfl⟩ := Best.lookup_insert_origin found
    · exact .inl old
    · exact .inr ⟨isKey, stampedRecords⟩

end

/-! ## The processors of a configuration -/

/-- A processor that was built from the configuration, whatever it shares with processors
before it, after some events. -/
inductive BuiltFrom (parseCidr : CidrParser) (acl : AclConfig) : AclProcessor → Prop where
  | start (connTrack : AList fun _ : ConnTrackKey => ConnTrackEntry)
      (rateLimiters : AList fun _ : RateLimitKey => TokenBucket)
      (stats : AList fun _ : AclStatKey => Nat) :
      BuiltFrom parseCidr acl (newWithSharedState parseCidr acl connTrack rateLimiters stats)
  | step {p p' : AclProcessor} {action : Option Action} (event : AclEvent) :
      BuiltFrom parseCidr acl p → Extracted [event] →
      p.step processPacket event = some (action, p') → BuiltFrom parseCidr acl p'

/-- What holds of every processor of a configuration. -/
structure Faithful (parseCidr : CidrParser) (acl : AclConfig) (p : AclProcessor) : Prop where
  rules : p.rules = buildRules parseCidr acl
  defaults : p.defaultAction = buildDefaultAction acl
  cacheSound : p.CacheSound
  recorded : p.Recorded

variable {parseCidr : CidrParser} {acl : AclConfig} {p p' : AclProcessor}

variable {info : PacketInfo} {chainType : ChainType} {result : AclResult}

theorem Recorded.mono (recorded : p.Recorded) (rules : p'.rules = p.rules)
    (cache : ∀ key entry, p'.ruleCache.lookup key = some entry →
      p.ruleCache.lookup key = some entry) : p'.Recorded := by
  intro key entry found
  obtain ⟨info, chainType, isKey, ports, records⟩ := recorded key entry (cache key entry found)
  exact ⟨info, chainType, isKey, ports, records.congr (matching_congr rules)⟩

theorem Faithful.packet (h : Faithful parseCidr acl p) (ports : PortsPresent info) {env : AclEnv}
    (processed : p.processPacket env info chainType = some (result, p')) :
    Faithful parseCidr acl p' := by
  obtain ⟨_, _, processed', processes⟩ := processPacket_processes h.cacheSound ports env chainType
  cases processed'.symm.trans processed
  refine ⟨processes.rules.trans h.rules, processes.defaults.trans h.defaults,
    processes.cacheSound ports h.cacheSound, ?_⟩
  by_cases unsupported : chainType = .unspecifiedChain
  · exact processes.untouched unsupported ▸ h.recorded
  · intro key entry found
    obtain ⟨-, stores⟩ :=
      processPacket_answers h.cacheSound h.recorded ports unsupported processed
    obtain old | ⟨isKey, records⟩ := stores key entry found
    · obtain ⟨other, otherType, isKey, otherPorts, records⟩ := h.recorded key entry old
      exact ⟨other, otherType, isKey, otherPorts,
        records.congr (matching_congr processes.rules)⟩
    · exact ⟨info, chainType, isKey, ports, records.congr (matching_congr processes.rules)⟩

theorem Faithful.step (h : Faithful parseCidr acl p) {event : AclEvent} {action : Option Action}
    (extracted : Extracted [event]) (stepped : p.step processPacket event = some (action, p')) :
    Faithful parseCidr acl p' := by
  have sound := h.cacheSound.step extracted stepped
  cases event with
  | packet info chainType env =>
    obtain ⟨⟨result, q⟩, processed, same⟩ := Option.map_eq_some_iff.mp stepped
    cases same
    exact h.packet (extracted info chainType env List.mem_cons_self) processed
  | evict keys =>
    cases stepped
    exact ⟨h.rules, h.defaults, sound, h.recorded.mono rfl fun _ _ => lookup_of_evict⟩
  | refill key tokens =>
    unfold AclProcessor.step at stepped
    dsimp only at stepped
    split at stepped
    · cases stepped
      exact ⟨h.rules, h.defaults, sound, h.recorded.mono rfl fun _ _ found => found⟩
    · cases stepped
      exact h
  | expire now =>
    cases stepped
    exact ⟨h.rules, h.defaults, sound, h.recorded.mono rfl fun _ _ found => found⟩

theorem BuiltFrom.faithful (built : BuiltFrom parseCidr acl p) : Faithful parseCidr acl p := by
  induction built with
  | start connTrack rateLimiters stats =>
    exact ⟨rfl, rfl, (Twins.refl_of_empty rfl).sound,
      fun key _ found => nomatch (AList.lookup_empty key).symm.trans found⟩
  | step event _ extracted stepped ih => exact ih.step extracted stepped

/-- Every packet is answered. -/
theorem BuiltFrom.answers (built : BuiltFrom parseCidr acl p)
    (ports : PortsPresent info) (supported : chainType ≠ .unspecifiedChain)
    (env : AclEnv) : ∃ result p', p.processPacket env info chainType = some (result, p') ∧
      p.Answers info chainType result p' := by
  have h := built.faithful
  obtain ⟨result, p', processed, -⟩ := processPacket_processes h.cacheSound ports env chainType
  exact ⟨result, p', processed,
    (processPacket_answers h.cacheSound h.recorded ports supported processed).1⟩

theorem Faithful.matching_map (h : Faithful parseCidr acl p) (info : PacketInfo)
    (chainType : ChainType) :
    (p.matching info chainType).map (·.1) = acl.firstMatch parseCidr info chainType := by
  unfold matching AclConfig.firstMatch
  rw [← h.rules]
  conv_rhs => rw [← List.zipIdx_map_fst 0 (p.rules chainType), List.find?_map]
  rfl

/-! ## Every packet is counted once -/

/-- One packet and its bytes are added to the counters that stand for it, and to no others. -/
def CountedOnce (p : AclProcessor) (info : PacketInfo) (chainType : ChainType)
    (p' : AclProcessor) : Prop :=
  p'.ruleStats = countOne info p.ruleStats (p.statsRef info chainType)

theorem Answers.countedOnce_iff (answers : p.Answers info chainType result p')
    (passed : result.logContext ≠ some .rateLimitDrop) :
    p.CountedOnce info chainType p' ↔ p.isLimited info chainType = false := by
  cases answers with
  | overLimit rule index decides limited log => exact absurd log passed
  | answered log action named stats =>
    unfold CountedOnce
    rw [stats, countedRefs]
    cases limited : p.isLimited info chainType with
    | false => exact iff_of_true rfl rfl
    | true =>
      refine iff_of_false (fun once => ?_) nofun
      have twice := congrArg StatItem.packetCount (congrFun once (p.statsRef info chainType))
      simp [countOne] at twice

/-- **Rule statistics count a packet once** exactly when the rule that it falls under, if
there is one, has no rate limit: the counters of a rule with a limit are collected twice, and
raised twice, by the packet that is decided anew and by every packet served from the cache. -/
theorem counted_once_iff (built : BuiltFrom parseCidr acl p) {info : PacketInfo}
    (ports : PortsPresent info) {env : AclEnv} {chainType : ChainType} {result : AclResult}
    (processed : p.processPacket env info chainType = some (result, p'))
    (passed : result.logContext ≠ some .rateLimitDrop) :
    p.CountedOnce info chainType p' ↔ chainType ≠ .unspecifiedChain ∧
      ∀ rule, acl.firstMatch parseCidr info chainType = some rule → rule.rateLimit = 0 := by
  have h := built.faithful
  by_cases supported : chainType = .unspecifiedChain
  · refine iff_of_false (fun once => ?_) fun condition => condition.1 supported
    obtain ⟨_, _, processed', processes⟩ :=
      processPacket_processes h.cacheSound ports env chainType
    cases processed'.symm.trans processed
    rw [CountedOnce, processes.untouched supported] at once
    have same := congrArg StatItem.packetCount (congrFun once (p.statsRef info chainType))
    simp [countOne] at same
  · obtain ⟨answers, -⟩ :=
      processPacket_answers h.cacheSound h.recorded ports supported processed
    rw [answers.countedOnce_iff passed, and_iff_right supported, ← h.matching_map, isLimited]
    cases p.matching info chainType with
    | none | some item => simp

/-- Inbound TCP is let through and tracked. -/
def plainAcl : AclConfig :=
  ⟨some ⟨[⟨ChainType.inbound.code, true,
    [⟨10, true, 1, [], [], [], [], 1, 0, 0, true, [], []⟩], 2⟩]⟩⟩

def freshProcessor (acl : AclConfig) : AclProcessor :=
  newWithSharedState (fun _ => none) acl ∅ ∅ ∅

theorem freshProcessor_built (acl : AclConfig) :
    BuiltFrom (fun _ => none) acl (freshProcessor acl) :=
  .start ∅ ∅ ∅

theorem plain_packet_counted_once :
    ∃ result p', (freshProcessor plainAcl).processPacket sampleEnv sampleHandler.packetInfo
        .inbound = some (result, p') ∧
      (freshProcessor plainAcl).CountedOnce sampleHandler.packetInfo .inbound p' := by
  obtain ⟨⟨result, p'⟩, processed, log⟩ :
    ∃ answer ∈ (freshProcessor plainAcl).processPacket sampleEnv
      sampleHandler.packetInfo .inbound, answer.1.logContext ≠ some .rateLimitDrop := by
    decide +kernel
  have unlimited : ∀ rule ∈ plainAcl.firstMatch (fun _ => none) sampleHandler.packetInfo .inbound,
      rule.rateLimit = 0 := by decide +kernel
  exact ⟨result, p', processed, (counted_once_iff (freshProcessor_built plainAcl) (by decide)
    processed log).mpr ⟨nofun, unlimited⟩⟩

/-- Two packets of 40 bytes under a rule with a limit, the second of them served from the
cache, are four packets of 160 bytes in its counters. -/
theorem limited_packets_counted_twice :
    BuiltFrom (fun _ => none) limitedAcl (freshProcessor limitedAcl) ∧
      PortsPresent sampleHandler.packetInfo ∧
      ((freshProcessor limitedAcl).processPacket sampleEnv sampleHandler.packetInfo
        .inbound).map (fun answer => (answer.1.action, answer.2.ruleStats (.rule .inbound 0))) =
          some (.allow, ⟨2, 80⟩) ∧
      ((freshProcessor limitedAcl).processPacket sampleEnv sampleHandler.packetInfo
        .inbound).bind (fun first => (first.2.processPacket sampleEnv sampleHandler.packetInfo
          .inbound).map fun answer =>
            (answer.1.action, answer.2.ruleStats (.rule .inbound 0))) =
        some (.allow, ⟨4, 160⟩) :=
  ⟨freshProcessor_built limitedAcl, by decide, by decide +kernel, by decide +kernel⟩

end AclProcessor

end PeerLink.Acl
