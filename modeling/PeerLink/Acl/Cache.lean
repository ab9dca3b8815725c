import PeerLink.Acl.Filter

/-!
# The rule cache is transparent

What the rules decide about a packet is one `Decision`: a bucket to take a token from, a
connection to track, an action. The cache remembers decisions. `evaluate` says what a
decision does to the buckets and connections, and `process_packet` does just that, whether
it finds the decision in the cache or makes it anew.
-/

namespace PeerLink.Acl

open Packet

/-- The state that outlives a processor and that packets can be told apart by. -/
structure AclShared where
  connTrack : AList fun _ : ConnTrackKey => ConnTrackEntry
  rateLimiters : AList fun _ : RateLimitKey => TokenBucket

/-- What the rules say about a packet; a limit comes with its rate and burst. -/
structure Decision where
  limit : Option (RateLimitKey × Nat × Nat)
  tracks : Bool
  action : Action

def Decision.ofRule (chainType : ChainType) (rule : FastLookupRule) : Decision where
  limit :=
    if 0 < rule.rateLimit then
      some (⟨chainType, rule.priority⟩, rule.rateLimit, rule.burstLimit)
    else
      none
  tracks := rule.stateful && rule.action = .allow
  action := rule.action

/-- `extract_packet_info` reads ports of TCP and UDP packets, and of no others. -/
def PortsPresent (info : PacketInfo) : Prop :=
  (info.srcPort.isSome ↔ info.protocol = .tcp ∨ info.protocol = .udp) ∧
    (info.dstPort.isSome ↔ info.protocol = .tcp ∨ info.protocol = .udp)

instance (info : PacketInfo) : Decidable (PortsPresent info) := inferInstanceAs (Decidable (_ ∧ _))

theorem portsPresent_of_ports {protocol : Nat} {data : Bytes}
    {found : Option UInt16 × Option UInt16}
    (read : ports protocol data = some found) (info : PacketInfo) (src : info.srcPort = found.1)
    (dst : info.dstPort = found.2) (named : info.protocol = AclFilter.protocolOf protocol) :
    PortsPresent info := by
  unfold PortsPresent
  rw [src, dst, named]
  unfold ports transportMinimum at read
  unfold AclFilter.protocolOf
  by_cases tcp : protocol = PROTOCOL_TCP
  · simp only [if_pos tcp] at read ⊢
    split at read <;> cases read
    simp
  · by_cases udp : protocol = PROTOCOL_UDP
    · simp only [if_neg tcp, if_pos udp] at read ⊢
      split at read <;> cases read
      simp
    · simp only [if_neg tcp, if_neg udp] at read ⊢
      cases read
      repeat' split
      all_goals simp

/-- What the packet extractor guarantees. -/
theorem extractPacketInfo_portsPresent {packet : ZCPacket} {groups : Route.PeerId → List String}
    {info : PacketInfo} (extracted : AclFilter.extractPacketInfo packet groups = some info) :
    PortsPresent info := by
  unfold AclFilter.extractPacketInfo at extracted
  dsimp only at extracted
  split at extracted
  · cases extracted
  · split at extracted
    · obtain ⟨found, read, rfl⟩ := Option.map_eq_some_iff.mp extracted
      exact portsPresent_of_ports read _ rfl rfl rfl
    · split at extracted
      · split at extracted
        · cases extracted
        · obtain ⟨found, read, rfl⟩ := Option.map_eq_some_iff.mp extracted
          exact portsPresent_of_ports read _ rfl rfl rfl
      · cases extracted

namespace AclProcessor

variable (p : AclProcessor) (env : AclEnv) (info : PacketInfo) (chainType : ChainType)

def shared : AclShared := ⟨p.connTrack, p.rateLimiters⟩

/-- The first enabled rule that matches decides, or the default action. -/
def decision : Decision :=
  match (p.rules chainType).zipIdx.find? fun item =>
      item.1.enabled && item.1.ruleMatches info with
  | some (rule, _) => .ofRule chainType rule
  | none => ⟨none, false, p.defaultAction chainType⟩

def track (tracks : Bool) : AclProcessor :=
  if tracks then p.checkConnectionState env (connTrackKey info) info else p

/-- Takes the token, then tracks the connection. -/
def perform (d : Decision) : Option (Action × AclShared) :=
  match d.limit with
  | some (key, rate, burst) =>
    (p.checkRateLimit key rate burst true).map fun (passed, p) =>
      if passed then (d.action, (p.track env info d.tracks).shared) else (.drop, p.shared)
  | none => some (d.action, (p.track env info d.tracks).shared)

/-- What a packet is to do, with no cache in sight. -/
def evaluate : Option (Action × AclShared) :=
  if chainType = .unspecifiedChain then
    some (.drop, p.shared)
  else
    p.perform env info (p.decision info chainType)

/-- `process_packet` for a processor whose cache is empty. -/
def processPacketUncached : Option (AclResult × AclProcessor) :=
  { p with ruleCache := ∅ }.processPacket env info chainType

/-! ## Evaluation reads the shared state and the rules only -/

section

variable {p q : AclProcessor} (env : AclEnv) (info : PacketInfo)

theorem track_congr (same : p.shared = q.shared) (tracks : Bool) :
    (p.track env info tracks).shared = (q.track env info tracks).shared := by
  obtain ⟨conns, buckets⟩ := AclShared.mk.inj same
  cases tracks with
  | false => exact same
  | true => simp [track, checkConnectionState, shared, conns, buckets]

theorem perform_congr (same : p.shared = q.shared) (d : Decision) :
    p.perform env info d = q.perform env info d := by
  obtain ⟨conns, buckets⟩ := AclShared.mk.inj same
  have updated : ∀ limiters, AclProcessor.shared { p with rateLimiters := limiters } =
      AclProcessor.shared { q with rateLimiters := limiters } :=
    fun limiters => congrArg (AclShared.mk · limiters) conns
  unfold perform
  split
  · unfold checkRateLimit
    split
    · simp [track_congr env info same]
    · rw [buckets]
      split <;>
        simp [track_congr env info (updated _), updated]
  · rw [track_congr env info same]

theorem decision_congr (rules : p.rules = q.rules) (defaults : p.defaultAction = q.defaultAction)
    (chainType : ChainType) : p.decision info chainType = q.decision info chainType := by
  simp [decision, rules, defaults]

theorem evaluate_congr (same : p.shared = q.shared) (rules : p.rules = q.rules)
    (defaults : p.defaultAction = q.defaultAction) (chainType : ChainType) :
    p.evaluate env info chainType = q.evaluate env info chainType := by
  unfold evaluate
  rw [same, decision_congr info rules defaults, perform_congr env info same]

end

/-! ## What a cache entry has to say -/

/-- The entry replays the decision for the packets of its key. -/
structure Notes (info : PacketInfo) (d : Decision) (entry : AclCacheEntry) : Prop where
  keys : entry.rateLimitKeys = (d.limit.map (·.1)).toList
  conn : entry.connTrackKey = if d.tracks then some (connTrackKey info) else none
  result : entry.aclResult.map (·.action) = some d.action

/-- The bucket that the replay relies on has been created. -/
def HasBucket (p : AclProcessor) (d : Decision) : Prop :=
  ∀ limit, d.limit = some limit → (p.rateLimiters.lookup limit.1).isSome

/-- The entry replays the decision on a packet that it was made for. -/
def SoundEntry (p : AclProcessor) (key : AclCacheKey) (entry : AclCacheEntry) : Prop :=
  ∃ info chainType, key = .fromPacketInfo info chainType ∧ chainType ≠ .unspecifiedChain ∧
    PortsPresent info ∧ Notes info (p.decision info chainType) entry ∧
      p.HasBucket (p.decision info chainType)

def CacheSound (p : AclProcessor) : Prop :=
  ∀ key entry, p.ruleCache.lookup key = some entry → p.SoundEntry key entry

variable {p : AclProcessor} {info : PacketInfo} {key : AclCacheKey} {entry : AclCacheEntry}
  {env : AclEnv}

theorem decision_rate {chainType : ChainType}
    {limit : RateLimitKey × Nat × Nat} (h : (p.decision info chainType).limit = some limit) :
    limit.2.1 ≠ 0 := by
  unfold decision at h
  split at h
  · unfold Decision.ofRule at h
    split at h
    · cases h
      exact Nat.pos_iff_ne_zero.mp ‹_›
    · cases h
  · cases h

/-! ## The key determines the decision -/

section

variable {other : PacketInfo} {chainType otherType : ChainType}

private theorem port_eq {port other : Option UInt16} (present : port.isSome ↔ other.isSome)
    (same : port.getD 0 = other.getD 0) : port = other := by
  cases port <;> cases other <;> simp_all

theorem key_determines (ports : PortsPresent info) (otherPorts : PortsPresent other)
    (same : AclCacheKey.fromPacketInfo info chainType = .fromPacketInfo other otherType) :
    chainType = otherType ∧ connTrackKey info = connTrackKey other ∧
      ∀ rule : FastLookupRule, rule.ruleMatches info = rule.ruleMatches other := by
  obtain ⟨chain, protocol, src, dst, srcPort, dstPort, srcGroups, dstGroups⟩ :=
    AclCacheKey.mk.inj same
  have srcPorts : info.srcPort = other.srcPort :=
    port_eq (ports.1.trans (protocol ▸ otherPorts.1.symm)) srcPort
  have dstPorts : info.dstPort = other.dstPort :=
    port_eq (ports.2.trans (protocol ▸ otherPorts.2.symm)) dstPort
  refine ⟨chain, ?_, fun rule => ?_⟩
  · simp [connTrackKey, src, dst, srcPorts, dstPorts]
  · simp [FastLookupRule.ruleMatches, protocol, src, dst, srcPorts, dstPorts, srcGroups, dstGroups]

theorem decision_of_matches (p : AclProcessor)
    (same : ∀ rule : FastLookupRule, rule.ruleMatches info = rule.ruleMatches other) :
    p.decision info chainType = p.decision other chainType := by
  simp [decision, same]

end

/-! ## Buckets -/

theorem checkRateLimit_of_bucket {key : RateLimitKey} {bucket : TokenBucket} {rate : Nat}
    (limited : rate ≠ 0) (found : p.rateLimiters.lookup key = some bucket) (burst : Nat)
    (allowCreate : Bool) :
    p.checkRateLimit key rate burst allowCreate = some ((bucket.tryConsume 1).1,
      { p with rateLimiters := p.rateLimiters.insert key (bucket.tryConsume 1).2 }) := by
  simp [checkRateLimit, limited, found]

theorem checkRateLimit_creates {rate : Nat} (limited : rate ≠ 0) (key : RateLimitKey)
    (burst : Nat) : ∃ passed bucket, p.checkRateLimit key rate burst true =
      some (passed, { p with rateLimiters := p.rateLimiters.insert key bucket }) := by
  cases found : p.rateLimiters.lookup key with
  | some bucket => exact ⟨_, _, checkRateLimit_of_bucket limited found burst true⟩
  | none => exact ⟨_, _, by simp [checkRateLimit, limited, found]; exact ⟨rfl, rfl⟩⟩

@[simp] theorem track_rateLimiters (env : AclEnv) (info : PacketInfo) (tracks : Bool) :
    (p.track env info tracks).shared.rateLimiters = p.rateLimiters := by
  cases tracks <;> rfl

/-- Serving a packet makes the bucket it is limited by, and keeps the others. -/
theorem perform_buckets {d : Decision} {action : Action}
    {after : AclShared} (limited : ∀ limit, d.limit = some limit → limit.2.1 ≠ 0)
    (served : p.perform env info d = some (action, after)) (key : RateLimitKey)
    (wanted : (p.rateLimiters.lookup key).isSome ∨ ∃ limit, d.limit = some limit ∧ limit.1 = key) :
    (after.rateLimiters.lookup key).isSome := by
  unfold perform at served
  split at served
  next rateKey rate burst limit =>
    obtain ⟨passed, bucket, checked⟩ :=
      checkRateLimit_creates (limited _ limit) rateKey burst
    have buckets : after.rateLimiters = p.rateLimiters.insert rateKey bucket := by
      rw [checked, Option.map_some, Option.some.injEq] at served
      cases passed with
      | false => exact congrArg (·.2.rateLimiters) served.symm
      | true =>
        exact (congrArg (·.2.rateLimiters) served.symm).trans (track_rateLimiters env info d.tracks)
    rw [buckets, AList.lookup_isSome, AList.mem_insert]
    obtain had | ⟨other, isLimit, rfl⟩ := wanted
    · exact .inr (AList.lookup_isSome.mp had)
    · cases limit.symm.trans isLimit
      exact .inl rfl
  next unlimited =>
    cases served
    rw [track_rateLimiters]
    obtain had | ⟨limit, isLimit, -⟩ := wanted
    · exact had
    · cases unlimited.symm.trans isLimit

/-! ## Serving one packet -/

/-- `p` serves a packet as the decision says and becomes `p'`. -/
structure Serves (p : AclProcessor) (env : AclEnv) (info : PacketInfo) (d : Decision)
    (result : AclResult) (p' : AclProcessor) : Prop where
  performed : p.perform env info d = some (result.action, p'.shared)
  rules : p'.rules = p.rules
  defaults : p'.defaultAction = p.defaultAction

section

variable {other : PacketInfo} {d : Decision}

theorem track_eq (p : AclProcessor) (env : AclEnv) (info : PacketInfo) (tracks : Bool) :
    p.track env info tracks = { p with connTrack := (p.track env info tracks).connTrack } := by
  cases tracks <;> rfl

theorem replay_eq {result : AclResult} (notes : Notes other d entry)
    (conn : connTrackKey other = connTrackKey info) (cached : entry.aclResult = some result) :
    p.processPacketWithCacheEntry env info entry =
      (p.checkRateLimits (d.limit.map (·.1)).toList).map fun (passed, q) =>
        if passed then (result, (q.track env info d.tracks).incCacheEntryStats entry info)
        else (rateLimitDrop entry.matchedRule, q) := by
  have key := notes.conn
  rw [conn] at key
  unfold processPacketWithCacheEntry
  rw [notes.keys]
  cases p.checkRateLimits (d.limit.map (·.1)).toList with
  | none => rfl
  | some checked =>
    obtain ⟨passed, q⟩ := checked
    cases passed with
    | false => rfl
    | true => cases tracks : d.tracks <;> simp [key, tracks, cached, track]

/-- The cached path serves a packet as the decision that the entry notes. -/
theorem replay_serves (notes : Notes other d entry) (conn : connTrackKey other = connTrackKey info)
    (limited : ∀ limit, d.limit = some limit → limit.2.1 ≠ 0) (bucket : p.HasBucket d) :
    ∃ result p', p.processPacketWithCacheEntry env info entry = some (result, p') ∧
      p.Serves env info d result p' ∧ p'.ruleCache = p.ruleCache := by
  obtain ⟨result, cached, action⟩ := Option.map_eq_some_iff.mp notes.result
  rw [replay_eq notes conn cached]
  cases limit : d.limit with
  | none =>
    refine ⟨result, _, rfl, ⟨?_, ?_, ?_⟩, ?_⟩
    · simp only [perform, limit, action]
      rfl
    all_goals rw [track_eq]; rfl
  | some limitOf =>
    obtain ⟨key, rate, burst⟩ := limitOf
    obtain ⟨tokens, found⟩ := Option.isSome_iff_exists.mp (bucket _ limit)
    have direct := checkRateLimit_of_bucket (limited _ limit) found burst true
    have replayed := checkRateLimit_of_bucket Nat.one_ne_zero found 1 false
    simp only [Option.map_some, Option.toList_some, checkRateLimits, replayed,
      Option.bind_eq_bind, Option.bind_some]
    cases passed : (tokens.tryConsume 1).1 with
    | false =>
      refine ⟨_, _, rfl, ⟨?_, rfl, rfl⟩, rfl⟩
      simp only [perform, limit, direct, passed, Option.map_some]
      rfl
    | true =>
      refine ⟨result, _, rfl, ⟨?_, ?_, ?_⟩, ?_⟩
      · simp only [perform, limit, direct, passed, Option.map_some, if_true, action]
        rfl
      all_goals rw [track_eq]; rfl

end

/-! ## What a packet leaves in the cache -/

def evict (cache : RuleCache) (keys : List AclCacheKey) : RuleCache :=
  keys.foldl (fun cache key => cache.erase key) cache

theorem lookup_of_evict {cache : RuleCache} {keys : List AclCacheKey}
    (found : (evict cache keys).lookup key = some entry) : cache.lookup key = some entry :=
  (Best.lookup_foldl_erase_iff.mp found).1

/-- The source's own cleanup is one eviction among others. -/
theorem cleanupCache_evicts (env : AclEnv) (cache : RuleCache) (maxSize : Nat) :
    ∃ keys, cleanupCache env cache maxSize = evict cache keys := by
  unfold cleanupCache
  dsimp only
  split
  · exact ⟨[], rfl⟩
  · exact ⟨List.map Sigma.fst _, by rw [evict, List.foldl_map]⟩

theorem lookup_of_cacheResult {k : AclCacheKey}
    {e : AclCacheEntry} (found : (p.cacheResult env key entry).ruleCache.lookup k = some e) :
    p.ruleCache.lookup k = some e ∨ k = key ∧ e = entry := by
  have inserted : (p.ruleCache.insert key entry).lookup k = some e := by
    unfold cacheResult at found
    dsimp only at found
    split at found
    · obtain ⟨keys, evicted⟩ := cleanupCache_evicts env (p.ruleCache.insert key entry)
        CACHE_MAX_SIZE
      exact lookup_of_evict (evicted ▸ found)
    · exact found
  exact Best.lookup_insert_origin inserted

/-- Under the packet's key there may be a new entry, which notes the decision. -/
def Caches (p : AclProcessor) (key : AclCacheKey) (info : PacketInfo) (d : Decision)
    (p' : AclProcessor) : Prop :=
  ∀ k e, p'.ruleCache.lookup k = some e → p.ruleCache.lookup k = some e ∨ k = key ∧ Notes info d e

theorem finishPacket_caches {result : AclResult} {d : Decision}
    (notes : Notes info d { entry with aclResult := some result }) :
    p.Caches key info d (p.finishPacket env key entry info result).2 := by
  intro k e found
  rcases lookup_of_cacheResult found with old | ⟨sameKey, rfl⟩
  · exact .inl old
  · exact .inr ⟨sameKey, notes⟩

/-! ## The uncached path -/

variable (chainType : ChainType) (rule : FastLookupRule)

theorem perform_ofRule : let d := Decision.ofRule chainType rule
    p.perform env info d =
      (p.checkRateLimit ⟨chainType, rule.priority⟩ rule.rateLimit rule.burstLimit true).map
        fun (passed, q) =>
          if passed then (d.action, (q.track env info d.tracks).shared) else (.drop, q.shared) := by
  intro d
  by_cases limited : 0 < rule.rateLimit
  · have limit : d.limit = some (⟨chainType, rule.priority⟩, rule.rateLimit, rule.burstLimit) :=
      if_pos limited
    simp [perform, limit]
  · have limit : d.limit = none := if_neg limited
    have unlimited : rule.rateLimit = 0 := Nat.eq_zero_of_not_pos limited
    simp [perform, limit, checkRateLimit, unlimited]

/-- The entry that a matching rule leaves behind. -/
def ruleEntry (entry : AclCacheEntry) (info : PacketInfo) (rule : FastLookupRule) (index : Nat) :
    AclCacheEntry :=
  let ref := RuleStatsRef.rule entry.chainType index
  let entry := if decide (0 < rule.rateLimit) then
      { entry with
        rateLimitKeys := entry.rateLimitKeys ++ [⟨entry.chainType, rule.priority⟩]
        ruleStatsVec := entry.ruleStatsVec ++ [ref] }
    else
      entry
  let entry := { entry with ruleStatsVec := entry.ruleStatsVec ++ [ref] }
  if rule.stateful ∧ rule.action = .allow then
    { entry with
      matchedRule := .stateful rule.priority
      connTrackKey := some (connTrackKey info) }
  else
    { entry with matchedRule := .priority rule.priority }

def ruleResult (info : PacketInfo) (rule : FastLookupRule) : AclResult :=
  if rule.stateful ∧ rule.action = .allow then
    ⟨.allow, some (.stateful rule.priority), false, some (.statefulMatch info.srcIp info.dstIp)⟩
  else
    ⟨rule.action, some (.priority rule.priority), false,
      some (.ruleMatch info.srcIp info.dstIp rule.action)⟩

theorem ruleResult_action : (ruleResult info rule).action = rule.action := by
  unfold ruleResult
  split
  next tracks => exact tracks.2.symm
  next => rfl

theorem ofRule_tracks :
    (Decision.ofRule chainType rule).tracks =
      decide (rule.stateful = true ∧ rule.action = .allow) := by
  simp [Decision.ofRule]

theorem ruleEntry_notes (noKeys : entry.rateLimitKeys = [])
    (noConn : entry.connTrackKey = none) (rule : FastLookupRule) (index : Nat) :
    Notes info (.ofRule entry.chainType rule)
      { ruleEntry entry info rule index with aclResult := some (ruleResult info rule) } where
  keys := by
    by_cases tracks : rule.stateful = true ∧ rule.action = .allow <;>
      by_cases limited : 0 < rule.rateLimit <;>
      simp [ruleEntry, Decision.ofRule, tracks, limited, noKeys]
  conn := by
    rw [ofRule_tracks]
    by_cases tracks : rule.stateful = true ∧ rule.action = .allow <;>
      by_cases limited : 0 < rule.rateLimit <;>
      simp [ruleEntry, tracks, limited, noConn]
  result := congrArg some (ruleResult_action rule)

theorem applyRule_eq (entry : AclCacheEntry) (rule : FastLookupRule) (index : Nat) :
    p.applyRule env key entry info rule index =
      (p.checkRateLimit ⟨entry.chainType, rule.priority⟩ rule.rateLimit rule.burstLimit true).map
        fun (passed, q) =>
          if passed then
            ((q.track env info (Decision.ofRule entry.chainType rule).tracks).incrementStat
              .ruleMatches).finishPacket env key (ruleEntry entry info rule index) info
                (ruleResult info rule)
          else (rateLimitDrop (.priority rule.priority), q) := by
  unfold applyRule
  dsimp only
  rw [ofRule_tracks]
  cases p.checkRateLimit ⟨entry.chainType, rule.priority⟩ rule.rateLimit rule.burstLimit true with
  | none => rfl
  | some checked =>
    obtain ⟨passed, q⟩ := checked
    cases passed with
    | false => rfl
    | true =>
      by_cases tracks : rule.stateful = true ∧ rule.action = .allow
      · simp [ruleEntry, ruleResult, track, tracks]
      · simp [ruleEntry, ruleResult, track, tracks]

theorem checkRateLimit_returns (p : AclProcessor) (key : RateLimitKey) (rate burst : Nat) :
    ∃ passed limiters, p.checkRateLimit key rate burst true =
      some (passed, { p with rateLimiters := limiters }) := by
  by_cases unlimited : rate = 0
  · exact ⟨true, p.rateLimiters, if_pos unlimited⟩
  · obtain ⟨passed, bucket, checked⟩ := checkRateLimit_creates unlimited key burst
    exact ⟨passed, _, checked⟩

/-- The rule that matches serves the packet, and leaves its decision in the cache if the
packet was not over the limit. -/
theorem applyRule_serves {entry : AclCacheEntry} (noKeys : entry.rateLimitKeys = [])
    (noConn : entry.connTrackKey = none) (rule : FastLookupRule) (index : Nat) :
    let d := Decision.ofRule entry.chainType rule
    ∃ result p', p.applyRule env key entry info rule index = some (result, p') ∧
      p.Serves env info d result p' ∧ p.Caches key info d p' := by
  intro d
  obtain ⟨passed, limiters, checked⟩ := checkRateLimit_returns p
    ⟨entry.chainType, rule.priority⟩ rule.rateLimit rule.burstLimit
  have performed : p.perform env info d = _ := perform_ofRule entry.chainType rule
  rw [applyRule_eq, checked]
  rw [checked] at performed
  cases passed with
  | false => exact ⟨_, _, rfl, ⟨performed, rfl, rfl⟩, fun k e found => .inl found⟩
  | true =>
    refine ⟨_, _, rfl, ⟨?_, ?_, ?_⟩, ?_⟩
    · rw [performed]
      exact congrArg (fun action => some (action, _)) (ruleResult_action rule).symm
    all_goals rw [track_eq]
    · rfl
    · rfl
    · exact finishPacket_caches (ruleEntry_notes noKeys noConn rule index)

theorem applyDefault_serves (entry : AclCacheEntry) (noKeys : entry.rateLimitKeys = [])
    (noConn : entry.connTrackKey = none) :
    let d : Decision := ⟨none, false, p.defaultAction entry.chainType⟩
    let served := p.applyDefault env key entry info
    p.Serves env info d served.1 served.2 ∧ p.Caches key info d served.2 := by
  intro d served
  refine ⟨⟨rfl, rfl, rfl⟩, ?_⟩
  exact finishPacket_caches (p := p.incrementStat _) ⟨noKeys, noConn, rfl⟩

/-! ## One packet, with or without the cache -/

section

variable {p' : AclProcessor} {chainType : ChainType}

/-- What one call of `process_packet` does, seen from outside the cache and inside it. -/
structure Processes (p : AclProcessor) (env : AclEnv) (info : PacketInfo) (chainType : ChainType)
    (result : AclResult) (p' : AclProcessor) : Prop where
  evaluated : p.evaluate env info chainType = some (result.action, p'.shared)
  rules : p'.rules = p.rules
  defaults : p'.defaultAction = p.defaultAction
  cached : chainType ≠ .unspecifiedChain →
    p.Caches (.fromPacketInfo info chainType) info (p.decision info chainType) p'
  untouched : chainType = .unspecifiedChain → p' = p

variable {result : AclResult}

theorem Processes.of_serves (supported : chainType ≠ .unspecifiedChain)
    (serves : p.Serves env info (p.decision info chainType) result p')
    (cached : p.Caches (.fromPacketInfo info chainType) info (p.decision info chainType) p') :
    p.Processes env info chainType result p' where
  evaluated := (if_neg supported).trans serves.performed
  rules := serves.rules
  defaults := serves.defaults
  cached _ := cached
  untouched unsupported := absurd unsupported supported

theorem processPacket_hit (sound : p.CacheSound) (ports : PortsPresent info)
    (hit : p.ruleCache.lookup (.fromPacketInfo info chainType) = some entry) :
    ∃ result p', p.processPacket env info chainType = some (result, p') ∧
      p.Processes env info chainType result p' := by
  obtain ⟨other, otherType, sameKey, supported, otherPorts, notes, bucket⟩ := sound _ _ hit
  obtain ⟨rfl, conn, same⟩ := key_determines ports otherPorts sameKey
  rw [← decision_of_matches p same] at notes bucket
  -- the entry is stamped and counted as a hit before it is replayed
  let stamped : AclCacheEntry := { entry with lastAccess := env.now }
  let q : AclProcessor := { p with
    ruleCache := p.ruleCache.insert (.fromPacketInfo info chainType) stamped }.incrementStat
      .cacheHits
  have stampedNotes : Notes other (p.decision info chainType) stamped :=
    ⟨notes.keys, notes.conn, notes.result⟩
  have qBucket : q.HasBucket (p.decision info chainType) := bucket
  obtain ⟨result, p', replayed, serves, cache⟩ :=
    @replay_serves q info _ env _ _ stampedNotes conn.symm (fun _ => decision_rate) qBucket
  have performed : p.perform env info (p.decision info chainType) =
    some (result.action, p'.shared) :=
    (perform_congr env info (p := p) (q := q) rfl _).trans serves.performed
  refine ⟨result, p', ?_, .of_serves supported ⟨performed, serves.rules, serves.defaults⟩ ?_⟩
  · simp only [processPacket, hit]
    exact replayed
  · intro k e found
    rw [cache] at found
    obtain old | ⟨sameKey, rfl⟩ := Best.lookup_insert_origin found
    · exact .inl old
    · exact .inr ⟨sameKey, notes.keys, conn ▸ notes.conn, notes.result⟩

theorem processPacket_miss (miss : p.ruleCache.lookup (.fromPacketInfo info chainType) = none) :
    ∃ result p', p.processPacket env info chainType = some (result, p') ∧
      p.Processes env info chainType result p' := by
  by_cases unsupported : chainType = .unspecifiedChain
  · refine ⟨⟨.drop, some .default, false, some .unsupportedChainType⟩, p, ?_, ?_⟩
    · simp [processPacket, miss, if_pos unsupported]
    · exact ⟨if_pos unsupported, rfl, rfl, fun supported => absurd unsupported supported,
        fun _ => rfl⟩
  · cases matched : (p.rules chainType).zipIdx.find? fun item =>
        item.1.enabled && item.1.ruleMatches info with
    | some item =>
      obtain ⟨rule, index⟩ := item
      have decided : p.decision info chainType = .ofRule chainType rule := by
        simp [decision, matched]
      simp only [processPacket, miss, if_neg unsupported, matched]
      obtain ⟨result, p', applied, serves, cached⟩ := @applyRule_serves p info
        (.fromPacketInfo info chainType) env ⟨.default, env.now, none, [], chainType, none, []⟩ rfl
        rfl rule index
      exact ⟨result, p', applied, .of_serves unsupported (decided ▸ serves) (decided ▸ cached)⟩
    | none =>
      have decided : p.decision info chainType = ⟨none, false, p.defaultAction chainType⟩ := by
        simp [decision, matched]
      simp only [processPacket, miss, if_neg unsupported, matched]
      obtain ⟨serves, cached⟩ := @applyDefault_serves p info
        (.fromPacketInfo info chainType) env ⟨.default, env.now, none, [], chainType, none, []⟩ rfl
        rfl
      exact ⟨_, _, rfl, .of_serves unsupported (decided ▸ serves) (decided ▸ cached)⟩

theorem processPacket_processes (sound : p.CacheSound) (ports : PortsPresent info)
    (env : AclEnv) (chainType : ChainType) :
    ∃ result p', p.processPacket env info chainType = some (result, p') ∧
      p.Processes env info chainType result p' := by
  cases found : p.ruleCache.lookup (.fromPacketInfo info chainType) with
  | some entry => exact processPacket_hit sound ports found
  | none => exact processPacket_miss found

/-- Without the cache the same happens, since an empty cache is no obstacle. -/
theorem processPacketUncached_processes (p : AclProcessor) (env : AclEnv) (info : PacketInfo)
    (chainType : ChainType) :
    ∃ result p', p.processPacketUncached env info chainType = some (result, p') ∧
      p.evaluate env info chainType = some (result.action, p'.shared) ∧ p'.rules = p.rules ∧
        p'.defaultAction = p.defaultAction := by
  obtain ⟨result, p', processed, h⟩ := processPacket_miss (p := { p with ruleCache := ∅ })
    (AList.lookup_empty (AclCacheKey.fromPacketInfo info chainType))
  have same : p.evaluate env info chainType =
      AclProcessor.evaluate { p with ruleCache := ∅ } env info chainType :=
    evaluate_congr env info (p := p) (q := { p with ruleCache := ∅ }) rfl rfl rfl chainType
  exact ⟨result, p', processed, same.trans h.evaluated, h.rules, h.defaults⟩

/-- An entry stays sound while the rules stay and no bucket is lost. -/
theorem SoundEntry.mono
    (sound : p.SoundEntry key entry) (rules : p'.rules = p.rules)
    (defaults : p'.defaultAction = p.defaultAction)
    (buckets : ∀ key, (p.rateLimiters.lookup key).isSome → (p'.rateLimiters.lookup key).isSome) :
    p'.SoundEntry key entry := by
  obtain ⟨info, chainType, isKey, supported, ports, notes, bucket⟩ := sound
  refine ⟨info, chainType, isKey, supported, ports, ?_, ?_⟩ <;>
    rw [decision_congr info rules defaults]
  · exact notes
  · exact fun limit isLimit => buckets _ (bucket limit isLimit)

theorem Processes.cacheSound (h : p.Processes env info chainType result p')
    (ports : PortsPresent info) (sound : p.CacheSound) : p'.CacheSound := by
  by_cases unsupported : chainType = .unspecifiedChain
  · exact h.untouched unsupported ▸ sound
  · have performed : p.perform env info (p.decision info chainType) =
        some (result.action, p'.shared) := (if_neg unsupported).symm.trans h.evaluated
    have buckets := perform_buckets (fun _ => decision_rate) performed
    intro key entry found
    rcases h.cached unsupported key entry found with old | ⟨isKey, notes⟩
    · exact (sound key entry old).mono h.rules h.defaults fun key had => buckets key (.inl had)
    · refine ⟨info, chainType, isKey, unsupported, ports, ?_, ?_⟩ <;>
        rw [decision_congr info h.rules h.defaults]
      · exact notes
      · exact fun limit isLimit => buckets _ (.inr ⟨limit, isLimit, rfl⟩)

end

/-! ## Whole runs -/

/-- `cleanup_expired_connections`; the age is a difference of `u64`. -/
def cleanupExpiredConnections (now timeoutSecs : Nat)
    (connTrack : AList fun _ : ConnTrackKey => ConnTrackEntry) :
    AList fun _ : ConnTrackKey => ConnTrackEntry :=
  let expired := connTrack.entries.filter fun item =>
    timeoutSecs < (now + 2 ^ 64 - item.2.lastSeen) % 2 ^ 64
  expired.foldl (fun kept item => kept.erase item.1) connTrack

end AclProcessor

/-- What happens to a processor: a packet, an eviction, a refilled bucket, a round of the
connection cleanup. -/
inductive AclEvent where
  | packet (info : PacketInfo) (chainType : ChainType) (env : AclEnv)
  | evict (keys : List AclCacheKey)
  | refill (key : RateLimitKey) (tokens : Nat)
  | expire (now : Nat)

namespace AclProcessor

/-- A way to process packets, with the cache or without. -/
abbrev PacketProcess :=
  AclProcessor → AclEnv → PacketInfo → ChainType → Option (AclResult × AclProcessor)

/-- One event; `none` when a panic ends the run. -/
def step (process : PacketProcess) (p : AclProcessor) :
    AclEvent → Option (Option Action × AclProcessor)
  | .packet info chainType env =>
    (process p env info chainType).map fun (result, p) => (some result.action, p)
  | .evict keys => some (none, { p with ruleCache := evict p.ruleCache keys })
  | .refill key tokens =>
    match p.rateLimiters.lookup key with
    | some bucket =>
      some (none, { p with rateLimiters := p.rateLimiters.insert key (bucket.refill tokens) })
    | none => some (none, p)
  | .expire now => some (none, { p with connTrack := cleanupExpiredConnections now 60 p.connTrack })

/-- The action returned by each event, with the connections and buckets after it. -/
def trace (process : PacketProcess) (p : AclProcessor) :
    List AclEvent → Option (List (Option Action × AclShared))
  | [] => some []
  | event :: events => do
    let (action, p) ← p.step process event
    let rest ← trace process p events
    return (action, p.shared) :: rest

/-- The packets of a run have ports just if they are TCP or UDP. -/
def Extracted (events : List AclEvent) : Prop :=
  ∀ info chainType env, AclEvent.packet info chainType env ∈ events → PortsPresent info

/-- Two processors of one configuration and one outside state; the cache of the first may
be relied on. -/
structure Twins (p q : AclProcessor) : Prop where
  shared : p.shared = q.shared
  rules : p.rules = q.rules
  defaults : p.defaultAction = q.defaultAction
  sound : p.CacheSound

theorem Twins.refl_of_empty {p : AclProcessor} (empty : p.ruleCache = ∅) : Twins p p where
  shared := rfl
  rules := rfl
  defaults := rfl
  sound key entry found := by
    rw [empty, AList.lookup_empty] at found
    cases found

section

variable {p q : AclProcessor}

theorem Twins.packet (twins : Twins p q) {info : PacketInfo} (ports : PortsPresent info)
    (env : AclEnv) (chainType : ChainType) :
    ∃ action p' q', p.step processPacket (.packet info chainType env) = some (some action, p') ∧
      q.step processPacketUncached (.packet info chainType env) = some (some action, q') ∧
      Twins p' q' := by
  obtain ⟨result, p', processed, h⟩ := processPacket_processes twins.sound ports env chainType
  obtain ⟨other, q', uncached, evaluated, rules, defaults⟩ :=
    processPacketUncached_processes q env info chainType
  have same : (result.action, p'.shared) = (other.action, q'.shared) := by
    rw [← Option.some.injEq, ← h.evaluated, ← evaluated]
    exact evaluate_congr env info twins.shared twins.rules twins.defaults chainType
  obtain ⟨action, shared⟩ := Prod.mk.inj same
  refine ⟨result.action, p', q', ?_, ?_, ?_⟩
  · simp [step, processed]
  · simp [step, uncached, action]
  · exact ⟨shared, h.rules.trans (twins.rules.trans rules.symm),
      h.defaults.trans (twins.defaults.trans defaults.symm), h.cacheSound ports twins.sound⟩

/-- One event leaves twins twins, and shows the same action in both. -/
theorem Twins.step (twins : Twins p q) (event : AclEvent)
    (ports : ∀ info chainType env, event = .packet info chainType env → PortsPresent info) :
    ∃ action p' q', p.step processPacket event = some (action, p') ∧
      q.step processPacketUncached event = some (action, q') ∧ Twins p' q' := by
  obtain ⟨conns, buckets⟩ := AclShared.mk.inj twins.shared
  cases event with
  | packet info chainType env =>
    obtain ⟨action, p', q', stepped⟩ := twins.packet (ports _ _ _ rfl) env chainType
    exact ⟨some action, p', q', stepped⟩
  | evict keys =>
    exact ⟨none, _, _, rfl, rfl, twins.shared, twins.rules, twins.defaults,
      fun key entry found =>
        (twins.sound key entry (lookup_of_evict found)).mono rfl rfl fun _ had => had⟩
  | refill key tokens =>
    cases found : p.rateLimiters.lookup key with
    | none =>
      refine ⟨none, p, q, ?_, ?_, twins⟩
      · simp [AclProcessor.step, found]
      · simp [AclProcessor.step, ← buckets, found]
    | some bucket =>
      refine ⟨none, { p with rateLimiters := p.rateLimiters.insert key (bucket.refill tokens) },
        { q with rateLimiters := q.rateLimiters.insert key (bucket.refill tokens) }, ?_, ?_, ?_⟩
      · simp [AclProcessor.step, found]
      · simp [AclProcessor.step, ← buckets, found]
      · refine ⟨?_, twins.rules, twins.defaults, fun k entry cached =>
          (twins.sound k entry cached).mono rfl rfl fun other had => ?_⟩
        · simp [AclProcessor.shared, conns, buckets]
        · exact AList.lookup_isSome.mpr ((AList.mem_insert _).mpr
            (.inr (AList.lookup_isSome.mp had)))
  | expire now =>
    refine ⟨none, _, _, rfl, rfl, ?_, twins.rules, twins.defaults, fun key entry cached =>
      (twins.sound key entry cached).mono rfl rfl fun _ had => had⟩
    simp [AclProcessor.shared, conns, buckets]

theorem Twins.trace (twins : Twins p q) {events : List AclEvent} (extracted : Extracted events) :
    ∃ seen, p.trace processPacket events = some seen ∧
      q.trace processPacketUncached events = some seen := by
  induction events generalizing p q with
  | nil => exact ⟨[], rfl, rfl⟩
  | cons event events ih =>
    obtain ⟨action, p', q', cached, uncached, twins'⟩ := twins.step event
      fun info chainType env isEvent => extracted info chainType env (isEvent ▸ List.mem_cons_self)
    obtain ⟨rest, cachedRest, uncachedRest⟩ := ih twins'
      fun info chainType env later => extracted info chainType env (List.mem_cons_of_mem _ later)
    refine ⟨(action, p'.shared) :: rest, ?_, ?_⟩
    · simp [AclProcessor.trace, cached, cachedRest]
    · simp [AclProcessor.trace, uncached, uncachedRest, twins'.shared]

/-- **The rule cache is transparent.** Whatever is evicted and whenever, no call panics, and
each event shows the action, the buckets and the connections that it shows when every
packet is evaluated without the cache. -/
theorem ruleCache_transparent (parseCidr : CidrParser) (acl : AclConfig)
    (connTrack : AList fun _ : ConnTrackKey => ConnTrackEntry)
    (rateLimiters : AList fun _ : RateLimitKey => TokenBucket)
    (stats : AList fun _ : AclStatKey => Nat) (events : List AclEvent)
    (extracted : Extracted events) :
    let p := newWithSharedState parseCidr acl connTrack rateLimiters stats
    ∃ seen, p.trace processPacket events = some seen ∧
      p.trace processPacketUncached events = some seen :=
  (Twins.refl_of_empty rfl).trace extracted

end

/-- Events that happen to a processor with a sound cache leave it sound. -/
theorem CacheSound.step {p p' : AclProcessor} {event : AclEvent} {action : Option Action}
    (sound : p.CacheSound) (extracted : Extracted [event])
    (stepped : p.step processPacket event = some (action, p')) : p'.CacheSound := by
  have twins : Twins p p := ⟨rfl, rfl, rfl, sound⟩
  obtain ⟨_, _, _, cached, -, twins'⟩ := twins.step event fun info chainType env isEvent =>
    extracted info chainType env (isEvent ▸ List.mem_cons_self)
  cases stepped.symm.trans cached
  exact twins'.sound

/-- The bookkeeping changes nothing but the statistics. -/
theorem handleAclResult_eq (result : AclResult) (chainType : ChainType) (p : AclProcessor) :
    AclFilter.handleAclResult result chainType p =
      { p with stats := (AclFilter.handleAclResult result chainType p).stats } := by
  cases result.action <;> rfl

theorem CacheSound.handleAclResult {p : AclProcessor} (sound : p.CacheSound) (result : AclResult)
    (chainType : ChainType) : (AclFilter.handleAclResult result chainType p).CacheSound := by
  rw [handleAclResult_eq]
  exact fun key entry found => (sound key entry found).mono rfl rfl fun _ had => had

end AclProcessor

/-- The ACL answers for every packet. One that cannot be parsed passes. -/
theorem AclFilter.processPacketWithAcl_returns {f : AclFilter}
    (sound : f.aclProcessor.CacheSound) (env : AclEnv) (packet : ZCPacket) (isIn : Bool)
    (mine : AclFilter.MyAddrs) (groups : Route.PeerId → List String) :
    ∃ verdict f', f.processPacketWithAcl env packet isIn mine groups = some (verdict, f') ∧
      f'.aclProcessor.CacheSound ∧
      (extractPacketInfo packet groups = none → verdict = true) := by
  unfold processPacketWithAcl
  split
  · exact ⟨true, f, rfl, sound, fun _ => rfl⟩
  · split
    · exact ⟨true, f, rfl, sound, fun _ => rfl⟩
    · cases extracted : extractPacketInfo packet groups with
      | none => exact ⟨true, f, rfl, sound, fun _ => rfl⟩
      | some info =>
        dsimp only
        split
        · exact ⟨true, f, rfl, sound, nofun⟩
        · have ports := extractPacketInfo_portsPresent extracted
          obtain ⟨result, p, processed, h⟩ := AclProcessor.processPacket_processes sound ports env
            (chainTypeOf info isIn mine)
          simp only [runProcessor, processed, Option.map_some]
          exact ⟨_, _, rfl, (h.cacheSound ports sound).handleAclResult result _, nofun⟩

namespace AclProcessor

/-- Inbound TCP is let through and tracked, two packets at once and then one a second. -/
def limitedAcl : AclConfig :=
  ⟨some ⟨[⟨ChainType.inbound.code, true,
    [⟨10, true, 1, [], [], [], [], 1, 1, 2, true, [], []⟩], 2⟩]⟩⟩

def limitedRun : List AclEvent :=
  let arrival := AclEvent.packet sampleHandler.packetInfo .inbound sampleEnv
  [arrival, arrival, arrival, .refill ⟨.inbound, 10⟩ 1,
    .evict [.fromPacketInfo sampleHandler.packetInfo .inbound], arrival]

theorem limitedRun_extracted : Extracted limitedRun := by
  intro info chainType env mem
  have isSample : info = sampleHandler.packetInfo := by
    simp only [limitedRun, List.mem_cons, AclEvent.packet.injEq, reduceCtorEq, List.not_mem_nil,
      or_false, false_or] at mem
    rcases mem with h | h | h | h <;> exact h.1
  subst isSample
  decide

/-- The second packet is served from the cache, the third finds the bucket empty, the last
is decided anew. -/
theorem limitedRun_transparent :
    let p := newWithSharedState (fun _ => none) limitedAcl ∅ ∅ ∅
    (p.trace processPacket limitedRun).map (·.map (·.1)) =
        some [some .allow, some .allow, some .drop, none, none, some .allow] ∧
      ∃ seen, p.trace processPacket limitedRun = some seen ∧
        p.trace processPacketUncached limitedRun = some seen :=
  ⟨by decide +kernel, ruleCache_transparent (fun _ => none) limitedAcl ∅ ∅ ∅ limitedRun
    limitedRun_extracted⟩

end AclProcessor

end PeerLink.Acl
