import PeerLink.Acl.Priority
import PeerLink.Schedule.Along

/-!
# Buckets and reloads

A bucket is found by the chain type and the priority of its rule, and it outlives the
configuration it was made for. The cache of a processor names buckets too, but it is thrown
away by a reload, and buckets never are; so a name in the cache is always that of a bucket.
-/

namespace PeerLink.Acl

open Packet

/-- The burst and the rate that a bucket was made with. -/
def TokenBucket.numbers (bucket : TokenBucket) : Nat × Nat := (bucket.capacity, bucket.fillRate)

namespace TokenBucket

@[simp] theorem new_numbers (burst rate : Nat) : (new burst rate).numbers = (burst, rate) := rfl

variable (bucket : TokenBucket) (tokens : Nat)

@[simp] theorem refill_numbers : (bucket.refill tokens).numbers = bucket.numbers := rfl

@[simp] theorem tryConsume_numbers : (bucket.tryConsume tokens).2.numbers = bucket.numbers := by
  unfold tryConsume
  split <;> rfl

end TokenBucket

namespace AclProcessor

/-- A bucket under the key is made for a rule of the processor. -/
def MadeFor (p : AclProcessor) (key : RateLimitKey) (numbers : Nat × Nat) : Prop :=
  key.chainType ≠ .unspecifiedChain ∧ ∃ rule ∈ p.rules key.chainType, 0 < rule.rateLimit ∧
    key.rulePriority = rule.priority ∧ numbers = (rule.burstLimit, rule.rateLimit)

/-- What can happen to the buckets while the rules stay: their numbers stay, and new ones are
made for the rules. -/
structure KeepsBuckets (p p' : AclProcessor) : Prop where
  rules : p'.rules = p.rules
  kept : ∀ key bucket, p.rateLimiters.lookup key = some bucket →
    ∃ bucket', p'.rateLimiters.lookup key = some bucket' ∧ bucket'.numbers = bucket.numbers
  made : ∀ key bucket, p.rateLimiters.lookup key = none →
    p'.rateLimiters.lookup key = some bucket → p.MadeFor key bucket.numbers

/-- Every bucket that a cache entry names is there, and every entry has its answer. -/
def KeysPresent (p : AclProcessor) : Prop :=
  ∀ key entry, p.ruleCache.lookup key = some entry → entry.aclResult.isSome ∧
    ∀ limitKey ∈ entry.rateLimitKeys, (p.rateLimiters.lookup limitKey).isSome

section

variable {p q r : AclProcessor}

theorem KeepsBuckets.of_eq (rules : q.rules = p.rules)
    (limiters : q.rateLimiters = p.rateLimiters) : KeepsBuckets p q where
  rules := rules
  kept key bucket found := ⟨bucket, limiters ▸ found, rfl⟩
  made key bucket missing found := by
    rw [limiters, missing] at found
    cases found

theorem KeepsBuckets.trans (first : KeepsBuckets p q) (second : KeepsBuckets q r) :
    KeepsBuckets p r where
  rules := second.rules.trans first.rules
  kept key bucket found := by
    obtain ⟨mid, found, numbers⟩ := first.kept key bucket found
    obtain ⟨last, found, numbers'⟩ := second.kept key mid found
    exact ⟨last, found, numbers'.trans numbers⟩
  made key bucket missing found := by
    cases there : q.rateLimiters.lookup key with
    | none =>
      obtain ⟨served, made⟩ := second.made key bucket there found
      exact ⟨served, first.rules ▸ made⟩
    | some mid =>
      obtain ⟨last, found', numbers⟩ := second.kept key mid there
      cases found.symm.trans found'
      rw [numbers]
      exact first.made key mid missing there

theorem KeepsBuckets.present (keeps : KeepsBuckets p q) {key : RateLimitKey}
    (there : (p.rateLimiters.lookup key).isSome) : (q.rateLimiters.lookup key).isSome := by
  obtain ⟨bucket, found⟩ := Option.isSome_iff_exists.mp there
  obtain ⟨bucket', found', -⟩ := keeps.kept key bucket found
  exact Option.isSome_iff_exists.mpr ⟨bucket', found'⟩

/-- One bucket is written: an old one with its numbers, or a new one. -/
theorem KeepsBuckets.insert {key : RateLimitKey} {bucket : TokenBucket}
    (fits : (p.rateLimiters.lookup key).elim (p.MadeFor key bucket.numbers)
      (bucket.numbers = ·.numbers)) :
    KeepsBuckets p { p with rateLimiters := p.rateLimiters.insert key bucket } where
  rules := rfl
  kept other old found := by
    by_cases isKey : other = key
    · subst isKey
      rw [found] at fits
      exact ⟨bucket, AList.lookup_insert _, fits⟩
    · exact ⟨old, (AList.lookup_insert_ne isKey).trans found, rfl⟩
  made other new missing found := by
    obtain old | ⟨rfl, rfl⟩ := Best.lookup_insert_origin found
    · rw [missing] at old
      cases old
    · rwa [missing] at fits

theorem checkRateLimit_keeps {chainType : ChainType} (served : chainType ≠ .unspecifiedChain)
    {rule : FastLookupRule} (mem : rule ∈ p.rules chainType) {passed : Bool}
    (checked : p.checkRateLimit ⟨chainType, rule.priority⟩ rule.rateLimit rule.burstLimit true =
      some (passed, q)) :
    KeepsBuckets p q ∧
      (0 < rule.rateLimit → (q.rateLimiters.lookup ⟨chainType, rule.priority⟩).isSome) := by
  by_cases unlimited : rule.rateLimit = 0
  · rw [checkRateLimit, if_pos unlimited] at checked
    cases checked
    exact ⟨.of_eq rfl rfl, fun limited => absurd unlimited limited.ne'⟩
  · cases found : p.rateLimiters.lookup ⟨chainType, rule.priority⟩ with
    | some bucket =>
      rw [checkRateLimit_of_bucket unlimited found] at checked
      cases checked
      refine ⟨.insert ?_, fun _ => ?_⟩
      · rw [found]
        exact bucket.tryConsume_numbers 1
      · rw [AList.lookup_insert, Option.isSome_some]
    | none =>
      simp only [checkRateLimit, if_neg unlimited, found, if_true, Option.bind_eq_bind,
        Option.bind_some, Option.pure_def] at checked
      cases checked
      refine ⟨.insert ?_, fun _ => ?_⟩
      · rw [found]
        exact ⟨served, rule, mem, Nat.pos_of_ne_zero unlimited, rfl, by simp⟩
      · rw [AList.lookup_insert, Option.isSome_some]

/-- The cached path finds its buckets. -/
theorem checkRateLimits_keeps {keys : List RateLimitKey}
    (present : ∀ key ∈ keys, (p.rateLimiters.lookup key).isSome) :
    ∃ passed limiters, p.checkRateLimits keys = some (passed, { p with rateLimiters := limiters }) ∧
      KeepsBuckets p { p with rateLimiters := limiters } := by
  induction keys generalizing p with
  | nil => exact ⟨true, p.rateLimiters, rfl, .of_eq rfl rfl⟩
  | cons key keys ih =>
    obtain ⟨here, later⟩ := List.forall_mem_cons.mp present
    obtain ⟨bucket, found⟩ := Option.isSome_iff_exists.mp here
    have checked := checkRateLimit_of_bucket Nat.one_ne_zero found 1 false
    have keeps : KeepsBuckets p
        { p with rateLimiters := p.rateLimiters.insert key (bucket.tryConsume 1).2 } := by
      refine .insert ?_
      rw [found]
      exact bucket.tryConsume_numbers 1
    unfold checkRateLimits
    rw [checked, Option.bind_eq_bind, Option.bind_some]
    cases passed : (bucket.tryConsume 1).1 with
    | false => exact ⟨false, _, rfl, keeps⟩
    | true =>
      obtain ⟨passed', limiters, rest, keeps'⟩ :=
        ih fun other mem => keeps.present (later other mem)
      exact ⟨passed', limiters, rest, keeps.trans keeps'⟩

end

/-! ## One event -/

section

variable {p : AclProcessor} (env : AclEnv) (info : PacketInfo) {chainType : ChainType}

/-- A cache that gains one good entry stays good, while no bucket is lost. -/
theorem KeysPresent.mono {p' : AclProcessor} (present : p.KeysPresent) (keeps : KeepsBuckets p p')
    (cache : ∀ key entry, p'.ruleCache.lookup key = some entry →
      (∃ old, p.ruleCache.lookup key = some old ∧ entry.aclResult = old.aclResult ∧
        entry.rateLimitKeys = old.rateLimitKeys) ∨
      entry.aclResult.isSome ∧
        ∀ limitKey ∈ entry.rateLimitKeys, (p'.rateLimiters.lookup limitKey).isSome) :
    p'.KeysPresent := by
  intro key entry found
  obtain ⟨old, there, result, keys⟩ | good := cache key entry found
  · obtain ⟨hasResult, hasKeys⟩ := present key old there
    rw [result, keys]
    exact ⟨hasResult, fun limitKey mem => keeps.present (hasKeys limitKey mem)⟩
  · exact good

theorem replay_keeps {entry : AclCacheEntry} (hasResult : entry.aclResult.isSome)
    (hasKeys : ∀ limitKey ∈ entry.rateLimitKeys, (p.rateLimiters.lookup limitKey).isSome) :
    ∃ result p', p.processPacketWithCacheEntry env info entry = some (result, p') ∧
      KeepsBuckets p p' ∧ p'.ruleCache = p.ruleCache := by
  obtain ⟨answer, cached⟩ := Option.isSome_iff_exists.mp hasResult
  obtain ⟨passed, limiters, checked, keeps⟩ := checkRateLimits_keeps hasKeys
  rw [processPacketWithCacheEntry, checked, Option.bind_eq_bind, Option.bind_some]
  cases passed with
  | false => exact ⟨_, _, rfl, keeps, rfl⟩
  | true =>
    simp only [if_true, cached, Option.bind_eq_bind, Option.bind_some]
    cases entry.connTrackKey with
    | none | some connKey => exact ⟨_, _, rfl, keeps.trans (.of_eq rfl rfl), rfl⟩

variable (present : p.KeysPresent)
include present

theorem processPacket_hit_keeps {entry : AclCacheEntry}
    (hit : p.ruleCache.lookup (.fromPacketInfo info chainType) = some entry) :
    ∃ result p', p.processPacket env info chainType = some (result, p') ∧ KeepsBuckets p p' ∧
      p'.KeysPresent := by
  obtain ⟨hasResult, hasKeys⟩ := present _ _ hit
  simp only [processPacket, hit]
  -- the entry is stamped and counted as a hit before it is replayed
  generalize stamping : AclProcessor.incrementStat _ _ = q
  have limiters : q.rateLimiters = p.rateLimiters := by
    rw [← stamping]
    rfl
  have cache : q.ruleCache = p.ruleCache.insert (.fromPacketInfo info chainType)
      { entry with lastAccess := env.now } := by
    rw [← stamping]
    rfl
  have same : KeepsBuckets p q := .of_eq (by rw [← stamping]; rfl) limiters
  obtain ⟨result, p', replayed, keeps, cache'⟩ :=
    @replay_keeps q env info { entry with lastAccess := env.now } hasResult (limiters ▸ hasKeys)
  refine ⟨result, p', replayed, same.trans keeps, present.mono (same.trans keeps) ?_⟩
  intro key other found
  rw [cache', cache] at found
  obtain old | ⟨rfl, rfl⟩ := Best.lookup_insert_origin found
  · exact .inl ⟨other, old, rfl, rfl⟩
  · exact .inl ⟨entry, hit, rfl, rfl⟩

theorem applyRule_keeps (served : chainType ≠ .unspecifiedChain) {rule : FastLookupRule}
    (mem : rule ∈ p.rules chainType) (index : Nat) :
    ∃ result p', p.applyRule env (.fromPacketInfo info chainType) (blankEntry env chainType) info
      rule index = some (result, p') ∧ KeepsBuckets p p' ∧ p'.KeysPresent := by
  obtain ⟨passed, limiters, checked⟩ :=
    checkRateLimit_returns p ⟨chainType, rule.priority⟩ rule.rateLimit rule.burstLimit
  obtain ⟨keeps, bucket⟩ := checkRateLimit_keeps served mem checked
  rw [applyRule_eq, show (blankEntry env chainType).chainType = chainType from rfl, checked]
  cases passed with
  | false =>
    exact ⟨_, _, rfl, keeps, present.mono keeps fun key entry found =>
      .inl ⟨entry, found, rfl, rfl⟩⟩
  | true =>
    simp only [Option.map_some, if_true]
    rw [track_eq]
    refine ⟨_, _, rfl, keeps.trans (.of_eq rfl rfl), ?_⟩
    refine present.mono (keeps.trans (.of_eq rfl rfl)) fun key entry found => ?_
    obtain old | ⟨-, rfl⟩ := lookup_of_cacheResult found
    · exact .inl ⟨entry, old, rfl, rfl⟩
    · have notes := @ruleEntry_notes info (blankEntry env chainType) rfl rfl rule index
      refine .inr ⟨rfl, fun limitKey mem => ?_⟩
      rw [notes.keys] at mem
      by_cases limited : 0 < rule.rateLimit
      · simp only [Decision.ofRule, if_pos limited, Option.map_some, Option.toList_some,
          List.mem_singleton] at mem
        rw [mem]
        exact bucket limited
      · simp [Decision.ofRule, if_neg limited] at mem

theorem applyDefault_keeps :
    KeepsBuckets p (p.applyDefault env (.fromPacketInfo info chainType)
        (blankEntry env chainType) info).2 ∧
      (p.applyDefault env (.fromPacketInfo info chainType)
        (blankEntry env chainType) info).2.KeysPresent := by
  have keeps : KeepsBuckets p (p.applyDefault env (.fromPacketInfo info chainType)
      (blankEntry env chainType) info).2 := .of_eq rfl rfl
  refine ⟨keeps, present.mono keeps fun key entry found => ?_⟩
  obtain old | ⟨-, rfl⟩ := lookup_of_cacheResult found
  · exact .inl ⟨entry, old, rfl, rfl⟩
  · exact .inr ⟨rfl, nofun⟩

theorem processPacket_keeps (chainType : ChainType) :
    ∃ result p', p.processPacket env info chainType = some (result, p') ∧ KeepsBuckets p p' ∧
      p'.KeysPresent := by
  cases hit : p.ruleCache.lookup (.fromPacketInfo info chainType) with
  | some entry => exact processPacket_hit_keeps env info present hit
  | none =>
    by_cases served : chainType = .unspecifiedChain
    · simp only [processPacket, hit, if_pos served]
      exact ⟨_, p, rfl, .of_eq rfl rfl, present⟩
    · simp only [processPacket, hit, if_neg served]
      cases matched : (p.rules chainType).zipIdx.find? fun item =>
          item.1.enabled && item.1.ruleMatches info with
      | some item =>
        obtain ⟨rule, index⟩ := item
        have mem : rule ∈ p.rules chainType :=
          List.fst_mem_of_mem_zipIdx (List.mem_of_find?_eq_some matched)
        exact applyRule_keeps env info present served mem index
      | none => exact ⟨_, _, rfl, applyDefault_keeps env info present⟩

end

/-- What one event does to the buckets; it never panics. -/
theorem step_keeps {p : AclProcessor} (present : p.KeysPresent) (event : AclEvent) :
    ∃ action p', p.step processPacket event = some (action, p') ∧ KeepsBuckets p p' ∧
      p'.KeysPresent := by
  cases event with
  | packet info chainType env =>
    obtain ⟨result, p', processed, kept⟩ := processPacket_keeps env info present chainType
    exact ⟨some result.action, p', by simp only [step, processed, Option.map_some], kept⟩
  | evict keys =>
    have keeps : KeepsBuckets p { p with ruleCache := evict p.ruleCache keys } := .of_eq rfl rfl
    exact ⟨none, _, rfl, keeps, present.mono keeps fun key entry found =>
      .inl ⟨entry, lookup_of_evict found, rfl, rfl⟩⟩
  | refill key tokens =>
    unfold step
    dsimp only
    cases found : p.rateLimiters.lookup key with
    | none => exact ⟨none, p, rfl, .of_eq rfl rfl, present⟩
    | some bucket =>
      have keeps : KeepsBuckets p
          { p with rateLimiters := p.rateLimiters.insert key (bucket.refill tokens) } := by
        refine .insert ?_
        rw [found]
        exact bucket.refill_numbers tokens
      exact ⟨none, _, rfl, keeps, present.mono keeps fun key entry there =>
        .inl ⟨entry, there, rfl, rfl⟩⟩
  | expire now =>
    have keeps : KeepsBuckets p
        { p with connTrack := cleanupExpiredConnections now 60 p.connTrack } := .of_eq rfl rfl
    exact ⟨none, _, rfl, keeps, present.mono keeps fun key entry there =>
      .inl ⟨entry, there, rfl, rfl⟩⟩

end AclProcessor

/-! ## Runs with reloads -/

/-- What happens to a filter: something happens to its processor, or the rules are loaded
anew. -/
inductive FilterEvent where
  | processor (event : AclEvent)
  | reload (acl : Option AclConfig)

namespace AclFilter

/-- One event; `none` when a panic ends the run. -/
def step (parseCidr : CidrParser) (f : AclFilter) : FilterEvent → Option AclFilter
  | .processor event => (f.aclProcessor.step AclProcessor.processPacket event).map fun (_, p) =>
    { f with aclProcessor := p }
  | .reload acl => some (f.reloadRules parseCidr acl)

variable {parseCidr : CidrParser} {f : AclFilter}

/-- A reload starts with an empty cache. -/
theorem reloadRules_keysPresent (present : f.aclProcessor.KeysPresent) (acl : Option AclConfig) :
    (f.reloadRules parseCidr acl).aclProcessor.KeysPresent := by
  cases acl with
  | none => exact present
  | some acl => exact fun key _ found => nomatch (AList.lookup_empty key).symm.trans found

theorem step_keysPresent (parseCidr : CidrParser) (present : f.aclProcessor.KeysPresent)
    (event : FilterEvent) :
    ∃ f', f.step parseCidr event = some f' ∧ f'.aclProcessor.KeysPresent := by
  cases event with
  | processor event =>
    obtain ⟨action, p, stepped, -, present'⟩ := AclProcessor.step_keeps present event
    exact ⟨{ f with aclProcessor := p }, by simp only [step, stepped, Option.map_some], present'⟩
  | reload acl => exact ⟨_, rfl, reloadRules_keysPresent present acl⟩

/-- **The rate-limit panic is unreachable.** Whatever packets, reloads and evictions a filter
goes through, no call panics, and each bucket that a cache entry names is there. -/
theorem rateLimit_bucket_found (parseCidr : CidrParser) (events : List FilterEvent) :
    ∃ f, Schedule.final (step parseCidr) (AclFilter.new parseCidr) events = some f ∧
      ∀ cacheKey entry, f.aclProcessor.ruleCache.lookup cacheKey = some entry →
        ∀ key ∈ entry.rateLimitKeys, (f.aclProcessor.rateLimiters.lookup key).isSome := by
  obtain ⟨f, ran, present⟩ := Schedule.final_of_invariant (s := new parseCidr)
    (fun f event present => step_keysPresent parseCidr present event)
    (fun key _ found => nomatch (AList.lookup_empty key).symm.trans found) events
  exact ⟨f, ran, fun cacheKey entry found => (present cacheKey entry found).2⟩

end AclFilter

/-! ## A bucket for every rule -/

namespace AclProcessor

/-- The bucket that the rule takes its tokens from: the one under its key, or else a new one. -/
def bucketFor (p : AclProcessor) (chainType : ChainType) (rule : FastLookupRule) : TokenBucket :=
  (p.rateLimiters.lookup ⟨chainType, rule.priority⟩).getD (.new rule.burstLimit rule.rateLimit)

theorem checkRateLimit_bucketFor (p : AclProcessor) (chainType : ChainType)
    {rule : FastLookupRule} (limited : rule.rateLimit ≠ 0) :
    p.checkRateLimit ⟨chainType, rule.priority⟩ rule.rateLimit rule.burstLimit true =
      some (((p.bucketFor chainType rule).tryConsume 1).1, { p with
        rateLimiters := p.rateLimiters.insert ⟨chainType, rule.priority⟩
          ((p.bucketFor chainType rule).tryConsume 1).2 }) := by
  cases found : p.rateLimiters.lookup ⟨chainType, rule.priority⟩ with
  | some bucket | none => simp [checkRateLimit, bucketFor, found, limited]

/-- A packet that falls under a rule with a limit takes the token there, cached or not. -/
theorem processPacket_consumes {p p' : AclProcessor} (sound : p.CacheSound) {info : PacketInfo}
    (ports : PortsPresent info) {env : AclEnv} {chainType : ChainType} {result : AclResult}
    (served : chainType ≠ .unspecifiedChain)
    (processed : p.processPacket env info chainType = some (result, p')) {rule : FastLookupRule}
    {index : Nat} (falls : p.matching info chainType = some (rule, index))
    (limited : 0 < rule.rateLimit) :
    p'.rateLimiters = p.rateLimiters.insert ⟨chainType, rule.priority⟩
      ((p.bucketFor chainType rule).tryConsume 1).2 := by
  obtain ⟨_, _, processed', processes⟩ := processPacket_processes sound ports env chainType
  cases processed'.symm.trans processed
  have evaluated := processes.evaluated
  have decides : p.decision info chainType = .ofRule chainType rule := by
    unfold matching at falls
    rw [decision, falls]
  simp only [evaluate, if_neg served, perform, decides, Decision.ofRule, if_pos limited,
    checkRateLimit_bucketFor p chainType limited.ne', Option.map_some, Option.some.injEq]
    at evaluated
  have limiters := (congrArg (fun after => after.2.rateLimiters) evaluated).symm
  refine limiters.trans ?_
  split
  · exact track_rateLimiters ..
  · rfl

/-- Each rule with a limit has a bucket of its own, with its own numbers. -/
structure LimitsPerRule (p : AclProcessor) : Prop where
  current : ∀ chainType, chainType ≠ .unspecifiedChain → ∀ rule ∈ p.rules chainType,
    0 < rule.rateLimit → (p.bucketFor chainType rule).numbers = (rule.burstLimit, rule.rateLimit)
  separate : ∀ chainType chainType' (i j : Nat) rule rule', chainType ≠ .unspecifiedChain →
    (p.rules chainType)[i]? = some rule → (p.rules chainType')[j]? = some rule' →
    0 < rule.rateLimit → 0 < rule'.rateLimit →
    (⟨chainType, rule.priority⟩ : RateLimitKey) = ⟨chainType', rule'.priority⟩ →
    chainType = chainType' ∧ i = j

theorem bucketFor_numbers_iff (p : AclProcessor) (chainType : ChainType) (rule : FastLookupRule) :
    (p.bucketFor chainType rule).numbers = (rule.burstLimit, rule.rateLimit) ↔
      ∀ bucket, p.rateLimiters.lookup ⟨chainType, rule.priority⟩ = some bucket →
        bucket.numbers = (rule.burstLimit, rule.rateLimit) := by
  unfold bucketFor
  cases p.rateLimiters.lookup ⟨chainType, rule.priority⟩ <;> simp

/-- While the rules stay, the buckets stay apart and keep their numbers. -/
theorem LimitsPerRule.keeps {p p' : AclProcessor} (limits : p.LimitsPerRule)
    (keeps : KeepsBuckets p p') : p'.LimitsPerRule where
  current chainType served rule mem limited := by
    rw [keeps.rules] at mem
    refine (bucketFor_numbers_iff p' chainType rule).mpr fun bucket found => ?_
    cases there : p.rateLimiters.lookup ⟨chainType, rule.priority⟩ with
    | some old =>
      obtain ⟨bucket', found', numbers⟩ := keeps.kept _ old there
      cases found.symm.trans found'
      rw [numbers]
      exact (bucketFor_numbers_iff p chainType rule).mp
        (limits.current chainType served rule mem limited) old there
    | none =>
      -- the bucket was made for a rule of this priority, and there is one only
      obtain ⟨-, other, otherMem, otherLimited, same, numbers⟩ := keeps.made _ bucket there found
      obtain ⟨i, isRule⟩ := List.mem_iff_getElem?.mp mem
      obtain ⟨j, isOther⟩ := List.mem_iff_getElem?.mp otherMem
      obtain ⟨-, rfl⟩ := limits.separate chainType chainType i j rule other served isRule isOther
        limited otherLimited (congrArg (RateLimitKey.mk chainType) same)
      cases isRule.symm.trans isOther
      exact numbers
  separate := by
    rw [keeps.rules]
    exact limits.separate

end AclProcessor

/-- The enabled rules with a limit in the enabled chains of the type. -/
def AclConfig.limitedRules (acl : AclConfig) (chainType : ChainType) : List Rule :=
  (acl.chains.filter (·.serves chainType)).flatMap fun chain =>
    chain.rules.filter fun rule => rule.enabled && decide (0 < rule.rateLimit)

/-- The rules with a limit differ in their priorities, and a bucket that one of them would
take over was made with its numbers. -/
structure ReloadFits (p : AclProcessor) (acl : AclConfig) : Prop where
  distinct : ∀ chainType, chainType ≠ .unspecifiedChain →
    (acl.limitedRules chainType).Pairwise fun rule other => rule.priority ≠ other.priority
  current : ∀ chainType, chainType ≠ .unspecifiedChain → ∀ rule ∈ acl.limitedRules chainType,
    ∀ bucket, p.rateLimiters.lookup ⟨chainType, rule.priority⟩ = some bucket →
      bucket.numbers = (rule.burstLimit, rule.rateLimit)

section

variable {parseCidr : CidrParser} {acl : AclConfig} {chainType : ChainType}

/-- Compiling reorders the rules with a limit and loses none. -/
theorem limited_perm (parseCidr : CidrParser) (acl : AclConfig) (chainType : ChainType) :
    ((buildRules parseCidr acl chainType).filter fun rule => decide (0 < rule.rateLimit)).Perm
      ((acl.limitedRules chainType).map (convertToFastLookupRule parseCidr)) := by
  rw [buildRules_eq, List.filter_flatMap, AclConfig.limitedRules, List.map_flatMap]
  refine List.Perm.flatMap_left _ fun chain _ => ?_
  have sorted : (chainRules parseCidr chain).Perm
      ((chain.rules.filter (·.enabled)).map (convertToFastLookupRule parseCidr)) :=
    List.perm_insertionSort _ _
  refine (sorted.filter _).trans (.of_eq ?_)
  rw [List.filter_map, List.filter_filter]
  have both : (fun rule : Rule => (decide (0 < rule.rateLimit) && rule.enabled)) =
      fun rule => rule.enabled && decide (0 < rule.rateLimit) :=
    funext fun rule => Bool.and_comm _ _
  exact congrArg (fun keeps => (chain.rules.filter keeps).map _) both

theorem mem_limited (parseCidr : CidrParser) {compiled : FastLookupRule} :
    compiled ∈ buildRules parseCidr acl chainType ∧ 0 < compiled.rateLimit ↔
      ∃ rule ∈ acl.limitedRules chainType, convertToFastLookupRule parseCidr rule = compiled := by
  have mem := (limited_perm parseCidr acl chainType).mem_iff (a := compiled)
  rwa [List.mem_filter, decide_eq_true_iff, List.mem_map] at mem

/-- Values that differ at different places, said in two ways. -/
theorem pairwise_iff_places {α : Type} {limited : α → Prop} {value : α → Nat} {l : List α} :
    (l.Pairwise fun a b => limited a → limited b → value a ≠ value b) ↔
      ∀ (i j : Nat) a b, l[i]? = some a → l[j]? = some b → limited a → limited b →
        value a = value b → i = j := by
  rw [List.pairwise_iff_getElem]
  constructor
  · intro apart i j a b atI atJ limitedA limitedB same
    obtain ⟨i_lt, rfl⟩ := List.getElem?_eq_some_iff.mp atI
    obtain ⟨j_lt, rfl⟩ := List.getElem?_eq_some_iff.mp atJ
    obtain before | equal | after := Nat.lt_trichotomy i j
    · exact absurd same (apart i j i_lt j_lt before limitedA limitedB)
    · exact equal
    · exact absurd same.symm (apart j i j_lt i_lt after limitedB limitedA)
  · intro places i j i_lt j_lt before limitedA limitedB same
    have equal := places i j _ _ (List.getElem?_eq_getElem i_lt) (List.getElem?_eq_getElem j_lt)
      limitedA limitedB same
    omega

theorem distinct_iff_places (parseCidr : CidrParser) :
    ((acl.limitedRules chainType).Pairwise fun rule other => rule.priority ≠ other.priority) ↔
      ∀ (i j : Nat) rule other, (buildRules parseCidr acl chainType)[i]? = some rule →
        (buildRules parseCidr acl chainType)[j]? = some other → 0 < rule.rateLimit →
        0 < other.rateLimit → rule.priority = other.priority → i = j := by
  have compiled := (limited_perm parseCidr acl chainType).pairwise_iff
    (R := fun rule other => rule.priority ≠ other.priority) fun {_ _} differ => differ.symm
  rw [List.pairwise_map] at compiled
  refine compiled.symm.trans ?_
  rw [List.pairwise_filter]
  simp only [decide_eq_true_iff]
  exact pairwise_iff_places

/-- Right after a reload the limits are in order just if the configuration fitted. -/
theorem limitsPerRule_reload_iff (f : AclFilter) (acl : AclConfig) :
    (f.reloadRules parseCidr (some acl)).aclProcessor.LimitsPerRule ↔
      ReloadFits f.aclProcessor acl := by
  let p := (f.reloadRules parseCidr (some acl)).aclProcessor
  constructor
  · intro limits
    refine ⟨fun chainType served => ?_, fun chainType served rule mem bucket found => ?_⟩
    · refine (distinct_iff_places parseCidr).mpr fun i j rule other isRule isOther
        limited otherLimited same => ?_
      exact (limits.separate chainType chainType i j rule other served isRule isOther limited
        otherLimited (congrArg (RateLimitKey.mk chainType) same)).2
    · obtain ⟨compiled, limited⟩ := (mem_limited parseCidr).mpr ⟨rule, mem, rfl⟩
      exact (AclProcessor.bucketFor_numbers_iff p chainType _).mp
        (limits.current chainType served _ compiled limited) bucket found
  · intro fits
    refine ⟨fun chainType served rule mem limited => ?_, ?_⟩
    · obtain ⟨source, sourceMem, rfl⟩ := (mem_limited parseCidr).mp ⟨mem, limited⟩
      exact (AclProcessor.bucketFor_numbers_iff p chainType _).mpr
        (fits.current chainType served source sourceMem)
    · intro chainType chainType' i j rule rule' served isRule isOther limited limited' sameKey
      obtain ⟨rfl, same⟩ := RateLimitKey.mk.inj sameKey
      exact ⟨rfl, (distinct_iff_places parseCidr).mp (fits.distinct chainType served) i j
        rule rule' isRule
        isOther limited limited' same⟩

/-- A step keeps the limits in order, unless it is a reload that does not fit. -/
theorem step_limits_iff {f : AclFilter} (present : f.aclProcessor.KeysPresent)
    (limits : f.aclProcessor.LimitsPerRule) (event : FilterEvent) :
    ∃ f', f.step parseCidr event = some f' ∧ f'.aclProcessor.KeysPresent ∧
      (f'.aclProcessor.LimitsPerRule ↔
        ∀ acl, event = .reload (some acl) → ReloadFits f.aclProcessor acl) := by
  cases event with
  | processor event =>
    obtain ⟨action, p, stepped, keeps, present'⟩ := AclProcessor.step_keeps present event
    exact ⟨{ f with aclProcessor := p }, by simp only [AclFilter.step, stepped, Option.map_some],
      present', iff_of_true (limits.keeps keeps) nofun⟩
  | reload acl =>
    refine ⟨_, rfl, AclFilter.reloadRules_keysPresent present acl, ?_⟩
    cases acl with
    | none => exact iff_of_true limits nofun
    | some acl =>
      rw [limitsPerRule_reload_iff]
      constructor
      · rintro fits _ ⟨⟩
        exact fits
      · exact fun fits => fits acl rfl

/-- **Rate limits are per rule and current** in every state of a run exactly when each
configuration that is loaded in it fits the state it is loaded into: no two of its rules with
a limit have one chain type and priority, and no rule of it meets a bucket that was made with
other numbers. -/
theorem limits_per_rule_iff (parseCidr : CidrParser) (events : List FilterEvent) :
    (∀ f ∈ Schedule.visited (AclFilter.step parseCidr) (.new parseCidr) events,
        f.aclProcessor.LimitsPerRule) ↔
      ∀ move ∈ Schedule.moves (AclFilter.step parseCidr) (.new parseCidr) events,
        ∀ acl, move.2 = .reload (some acl) → ReloadFits move.1.aclProcessor acl := by
  have limits : (AclFilter.new parseCidr).aclProcessor.LimitsPerRule := by
    have noRules : (AclFilter.new parseCidr).aclProcessor.rules = fun _ => [] := rfl
    constructor
    · rw [noRules]
      exact fun _ _ => nofun
    · rw [noRules]
      exact fun _ _ _ _ _ _ _ => nofun
  exact Schedule.visited_iff_moves
    (fun f event _ present limits => step_limits_iff present limits event)
    (fun _ _ => trivial)
    (fun key _ found => nomatch (AList.lookup_empty key).symm.trans found) limits

end

/-- Inbound TCP under a limit. -/
def limitAcl (rate burst : Nat) : AclConfig :=
  ⟨some ⟨[⟨ChainType.inbound.code, true,
    [⟨10, true, 1, [], [], [], [], 1, rate, burst, false, [], []⟩], 2⟩]⟩⟩

/-- Rules are loaded, a packet comes, and rules with a higher limit are loaded. -/
def raisedLimit : List FilterEvent :=
  [.reload (some (limitAcl 1 2)),
    .processor (.packet sampleHandler.packetInfo .inbound sampleEnv),
    .reload (some (limitAcl 100 200))]

/-- The limit was raised to 100 packets a second, and the rule still takes its tokens from
the bucket that gets one a second and holds two. -/
theorem raised_limit_ignored :
    ∃ f rule, f ∈ Schedule.visited (AclFilter.step fun _ => none) (.new fun _ => none)
        raisedLimit ∧
      rule ∈ f.aclProcessor.rules .inbound ∧ 0 < rule.rateLimit ∧
      (rule.burstLimit, rule.rateLimit) = (200, 100) ∧
      (f.aclProcessor.bucketFor .inbound rule).numbers = (2, 1) := by
  simp only [exists_and_left]
  decide +kernel

end PeerLink.Acl
