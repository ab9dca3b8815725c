import PeerLink.Acl.Rules
import PeerLink.Route.Table

/-!
# The ACL processor

Rules, connection tracking, rate limits, the rule cache and the statistics of
`AclProcessor`, with `process_packet` as a function of its state. The result is
`none` where the code panics.
-/

namespace PeerLink.Acl

open Packet

/-! ## State -/

structure RateLimitKey where
  chainType : ChainType
  rulePriority : Nat
  deriving DecidableEq

structure TokenBucket where
  availableTokens : Nat
  capacity : Nat
  fillRate : Nat

namespace TokenBucket

def new (capacity bps : Nat) : TokenBucket := ⟨capacity, capacity, bps⟩

/-- The effect of a refill that adds `tokens`. -/
def refill (bucket : TokenBucket) (tokens : Nat) : TokenBucket :=
  { bucket with availableTokens := min (bucket.availableTokens + tokens) bucket.capacity }

def tryConsume (bucket : TokenBucket) (tokens : Nat) : Bool × TokenBucket :=
  if bucket.capacity < tokens ∨ bucket.availableTokens < tokens then
    (false, bucket)
  else
    (true, { bucket with availableTokens := bucket.availableTokens - tokens })

end TokenBucket

inductive RuleId where
  | priority (p : Nat)
  | stateful (p : Nat)
  | default
  deriving DecidableEq

inductive AclLogContext where
  | statefulMatch (srcIp dstIp : IpAddr)
  | ruleMatch (srcIp dstIp : IpAddr) (action : Action)
  | defaultDrop
  | defaultAllow
  | unsupportedChainType
  | rateLimitDrop
  deriving DecidableEq

structure AclResult where
  action : Action
  matchedRule : Option RuleId
  shouldLog : Bool
  logContext : Option AclLogContext

inductive ConnState where
  | new
  | established
  | related
  | invalid

/-- The text of the key names these four and nothing else. -/
structure ConnTrackKey where
  srcIp : IpAddr
  srcPort : UInt16
  dstIp : IpAddr
  dstPort : UInt16
  deriving DecidableEq

structure ConnTrackEntry where
  srcAddr : IpAddr × UInt16
  dstAddr : IpAddr × UInt16
  protocol : Protocol
  state : ConnState
  createdAt : Nat
  lastSeen : Nat
  packetCount : UInt64
  byteCount : UInt64

structure StatItem where
  packetCount : UInt64
  byteCount : UInt64
  deriving DecidableEq

/-- Whose counters are meant: a rule's, by its place in the list of its chain type,
or those of the default action. -/
inductive RuleStatsRef where
  | rule (chainType : ChainType) (index : Nat)
  | default
  deriving DecidableEq

inductive AclStatType where
  | total
  | allowed
  | dropped
  | noop
  deriving DecidableEq

/-- `packets` with a chain type is `from_chain_and_action`, where the unspecified
chain counts as unknown. -/
inductive AclStatKey where
  | cacheHits
  | ruleMatches
  | defaultAllows
  | defaultDrops
  | packetsTotal
  | packetsAllowed
  | packetsDropped
  | packetsNoop
  | packets (chainType : ChainType) (statType : AclStatType)
  deriving DecidableEq

structure AclCacheKey where
  chainType : ChainType
  protocol : Protocol
  srcIp : IpAddr
  dstIp : IpAddr
  srcPort : UInt16
  dstPort : UInt16
  srcGroups : List String
  dstGroups : List String
  deriving DecidableEq

def AclCacheKey.fromPacketInfo (info : PacketInfo) (chainType : ChainType) : AclCacheKey where
  chainType := chainType
  protocol := info.protocol
  srcIp := info.srcIp
  dstIp := info.dstIp
  srcPort := info.srcPort.getD 0
  dstPort := info.dstPort.getD 0
  srcGroups := info.srcGroups
  dstGroups := info.dstGroups

structure AclCacheEntry where
  matchedRule : RuleId
  lastAccess : Nat
  connTrackKey : Option ConnTrackKey
  rateLimitKeys : List RateLimitKey
  chainType : ChainType
  aclResult : Option AclResult
  ruleStatsVec : List RuleStatsRef

abbrev RuleCache := AList fun _ : AclCacheKey => AclCacheEntry

structure AclProcessor where
  rules : ChainType → List FastLookupRule
  defaultAction : ChainType → Action
  connTrack : AList fun _ : ConnTrackKey => ConnTrackEntry
  rateLimiters : AList fun _ : RateLimitKey => TokenBucket
  ruleCache : RuleCache
  stats : AList fun _ : AclStatKey => Nat
  ruleStats : RuleStatsRef → StatItem

/-- The time in seconds, and the order in which the cache hands out its entries. -/
structure AclEnv where
  now : Nat
  cacheOrder : Route.IterOrder (Σ _ : AclCacheKey, AclCacheEntry)

namespace AclProcessor

def CACHE_MAX_SIZE : Nat := 10000

/-- `new_with_shared_state`; the rule cache always starts empty. -/
def newWithSharedState (parseCidr : CidrParser) (acl : AclConfig)
    (connTrack : AList fun _ : ConnTrackKey => ConnTrackEntry)
    (rateLimiters : AList fun _ : RateLimitKey => TokenBucket)
    (stats : AList fun _ : AclStatKey => Nat) : AclProcessor where
  rules := buildRules parseCidr acl
  defaultAction := buildDefaultAction acl
  connTrack := connTrack
  rateLimiters := rateLimiters
  ruleCache := ∅
  stats := stats
  ruleStats _ := ⟨0, 0⟩

def new (parseCidr : CidrParser) (acl : AclConfig) : AclProcessor :=
  newWithSharedState parseCidr acl ∅ ∅ ∅

/-! ## Steps -/

variable (p : AclProcessor) (env : AclEnv) (key : AclCacheKey) (entry : AclCacheEntry)
  (info : PacketInfo)

def incrementStat (key : AclStatKey) : AclProcessor :=
  { p with stats := p.stats.insert key ((p.stats.lookup key).getD 0 + 1) }

def connTrackKey : ConnTrackKey :=
  ⟨info.srcIp, info.srcPort.getD 0, info.dstIp, info.dstPort.getD 0⟩

def checkConnectionState (key : ConnTrackKey) (info : PacketInfo) : AclProcessor :=
  let entry : ConnTrackEntry := match p.connTrack.lookup key with
    | some entry =>
      { entry with
        lastSeen := env.now
        packetCount := entry.packetCount + 1
        byteCount := entry.byteCount + .ofNat info.packetSize
        state := .established }
    | none =>
      { srcAddr := (info.srcIp, info.srcPort.getD 0)
        dstAddr := (info.dstIp, info.dstPort.getD 0)
        protocol := info.protocol
        state := .new
        createdAt := env.now
        lastSeen := env.now
        packetCount := 1
        byteCount := .ofNat info.packetSize }
  { p with connTrack := p.connTrack.insert key entry }

/-- It panics when the bucket is missing and may not be created. -/
def checkRateLimit (key : RateLimitKey) (rate burst : Nat) (allowCreate : Bool) :
    Option (Bool × AclProcessor) :=
  if rate = 0 then
    some (true, p)
  else do
    let bucket ← match p.rateLimiters.lookup key with
      | some bucket => some bucket
      | none => if allowCreate then some (TokenBucket.new burst rate) else none
    let (consumed, bucket) := bucket.tryConsume 1
    return (consumed, { p with rateLimiters := p.rateLimiters.insert key bucket })

def incCacheEntryStats : AclProcessor :=
  { p with
    ruleStats := entry.ruleStatsVec.foldl (fun stats ref => Function.update stats ref
      ⟨(stats ref).packetCount + 1, (stats ref).byteCount + .ofNat info.packetSize⟩) p.ruleStats }

/-- Removes the entries that were not used for longest, and a fifth more. -/
def cleanupCache (cache : RuleCache) (maxSize : Nat) : RuleCache :=
  let currentSize := cache.entries.length
  if currentSize ≤ maxSize then
    cache
  else
    let oldest := (env.cacheOrder.order cache.entries).insertionSort
      fun a b => a.2.lastAccess ≤ b.2.lastAccess
    let toRemove := currentSize - maxSize + maxSize / 5
    (oldest.take toRemove).foldl (fun cache item => cache.erase item.1) cache

def cacheResult : AclProcessor :=
  let cache := p.ruleCache.insert key entry
  { p with
    ruleCache :=
      if CACHE_MAX_SIZE * 2 < cache.entries.length then
        cleanupCache env cache CACHE_MAX_SIZE
      else
        cache }

/-- Takes a token of every bucket in turn, and stops at the first empty one. -/
def checkRateLimits (p : AclProcessor) : List RateLimitKey → Option (Bool × AclProcessor)
  | [] => some (true, p)
  | key :: keys => do
    let (passed, p) ← p.checkRateLimit key 1 1 false
    if passed then checkRateLimits p keys else some (false, p)

def rateLimitDrop (rule : RuleId) : AclResult := ⟨.drop, some rule, false, some .rateLimitDrop⟩

def processPacketWithCacheEntry (entry : AclCacheEntry) : Option (AclResult × AclProcessor) := do
  let (passed, p) ← p.checkRateLimits entry.rateLimitKeys
  if passed then
    let p := match entry.connTrackKey with
      | some key => p.checkConnectionState env key info
      | none => p
    let result ← entry.aclResult
    return (result, p.incCacheEntryStats entry info)
  else
    return (rateLimitDrop entry.matchedRule, p)

/-- Counts, caches and returns a result. -/
def finishPacket (result : AclResult) : AclResult × AclProcessor :=
  let entry := { entry with aclResult := some result }
  (result, (p.incCacheEntryStats entry info).cacheResult env key entry)

/-- The body of the rule loop for the rule that matches, which ends the loop. -/
def applyRule (rule : FastLookupRule) (index : Nat) : Option (AclResult × AclProcessor) := do
  let ref := RuleStatsRef.rule entry.chainType index
  let rateKey : RateLimitKey := ⟨entry.chainType, rule.priority⟩
  let limited := decide (0 < rule.rateLimit)
  let entry := if limited then
      { entry with
        rateLimitKeys := entry.rateLimitKeys ++ [rateKey]
        ruleStatsVec := entry.ruleStatsVec ++ [ref] }
    else
      entry
  let (passed, p) ← p.checkRateLimit rateKey rule.rateLimit rule.burstLimit true
  if !passed then
    return (rateLimitDrop (.priority rule.priority), p)
  let entry := { entry with ruleStatsVec := entry.ruleStatsVec ++ [ref] }
  if rule.stateful ∧ rule.action = .allow then
    let connKey := connTrackKey info
    let p := (p.checkConnectionState env connKey info).incrementStat .ruleMatches
    let entry := { entry with
      matchedRule := .stateful rule.priority
      connTrackKey := some connKey }
    return p.finishPacket env key entry info
      ⟨.allow, some (.stateful rule.priority), false,
        some (.statefulMatch info.srcIp info.dstIp)⟩
  else
    let entry := { entry with matchedRule := .priority rule.priority }
    return (p.incrementStat .ruleMatches).finishPacket env key entry info
      ⟨rule.action, some (.priority rule.priority), false,
        some (.ruleMatch info.srcIp info.dstIp rule.action)⟩

def applyDefault : AclResult × AclProcessor :=
  let action := p.defaultAction entry.chainType
  let p := p.incrementStat (if action = .drop then .defaultDrops else .defaultAllows)
  let entry := { entry with
    ruleStatsVec := entry.ruleStatsVec ++ [.default]
    matchedRule := .default }
  p.finishPacket env key entry info
    ⟨action, some .default, false,
      some (if action = .drop then .defaultDrop else .defaultAllow)⟩

def processPacket (chainType : ChainType) : Option (AclResult × AclProcessor) :=
  let key := AclCacheKey.fromPacketInfo info chainType
  match p.ruleCache.lookup key with
  | some cached =>
    let cached := { cached with lastAccess := env.now }
    let p := { p with ruleCache := p.ruleCache.insert key cached }.incrementStat .cacheHits
    p.processPacketWithCacheEntry env info cached
  | none =>
    if chainType = .unspecifiedChain then
      some (⟨.drop, some .default, false, some .unsupportedChainType⟩, p)
    else
      let entry : AclCacheEntry :=
        { matchedRule := .default
          lastAccess := env.now
          connTrackKey := none
          rateLimitKeys := []
          chainType := chainType
          aclResult := none
          ruleStatsVec := [] }
      match (p.rules chainType).zipIdx.find? fun item =>
          item.1.enabled && item.1.ruleMatches info with
      | some (rule, index) => p.applyRule env key entry info rule index
      | none => some (p.applyDefault env key entry info)

end AclProcessor

end PeerLink.Acl
