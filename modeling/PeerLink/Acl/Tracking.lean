import PeerLink.Acl.Limits
import PeerLink.Acl.Whitelist
import Mathlib.Algebra.GroupWithZero.Nat

/-!
# Connections and flows

A connection is kept under the addresses and ports of its packets, and its entry records
their protocol besides. The history of a run is kept next to the filter, to hold the counters
of an entry against the packets of its flow since it was created.
-/

namespace PeerLink.Acl

open Packet

/-! ## The text of a key -/

/-- The text under which `conn_track_key` keeps a connection; addresses are printed by their
own library. -/
def connTrackText (showIp : IpAddr → List Char) (key : ConnTrackKey) : List Char :=
  (showIp key.srcIp ++ ':' :: (toString key.srcPort).toList) ++
    '-' :: '>' :: (showIp key.dstIp ++ ':' :: (toString key.dstPort).toList)

theorem portText_plain (port : UInt16) {c : Char} (mem : c ∈ (toString port).toList) :
    c ≠ '-' ∧ c ≠ ':' := by
  have char := parseU16_chars (parseU16_toString port) c mem
  refine ⟨not_dash char, ?_⟩
  rintro rfl
  revert char
  decide

/-- The port is what stands behind the last colon. -/
theorem endpoint_inj {ip ip' : List Char} {port port' : UInt16}
    (same : ip ++ ':' :: (toString port).toList = ip' ++ ':' :: (toString port').toList) :
    ip = ip' ∧ port = port' := by
  have absent (port : UInt16) : ':' ∉ (toString port).toList.reverse := fun mem =>
    (portText_plain port (List.mem_reverse.mp mem)).2 rfl
  have turned := congrArg (fun text => splitOnce ':' text.reverse) same
  simp only [List.reverse_append, List.reverse_cons, List.append_assoc, List.singleton_append,
    splitOnce_append (absent _), Option.some.injEq, Prod.mk.injEq, List.reverse_inj] at turned
  have ports := congrArg parseU16 turned.1
  rw [parseU16_toString, parseU16_toString, Option.some.injEq] at ports
  exact ⟨turned.2, ports⟩

/-- The text says no less than the key, where addresses can be told apart by their texts. -/
theorem connTrackText_injective {showIp : IpAddr → List Char}
    (injective : Function.Injective showIp) (plain : ∀ ip, '-' ∉ showIp ip) :
    Function.Injective (connTrackText showIp) := by
  rintro ⟨srcIp, srcPort, dstIp, dstPort⟩ ⟨srcIp', srcPort', dstIp', dstPort'⟩ same
  have absent (ip : IpAddr) (port : UInt16) : '-' ∉ showIp ip ++ ':' :: (toString port).toList := by
    simp only [List.mem_append, List.mem_cons, not_or]
    exact ⟨plain ip, by decide, fun mem => (portText_plain port mem).1 rfl⟩
  have halves := congrArg (splitOnce '-') same
  simp only [connTrackText, splitOnce_append (absent _ _), Option.some.injEq, Prod.mk.injEq,
    List.cons.injEq, true_and] at halves
  obtain ⟨src, srcPorts⟩ := endpoint_inj halves.1
  obtain ⟨dst, dstPorts⟩ := endpoint_inj halves.2
  rw [injective src, srcPorts, injective dst, dstPorts]

/-! ## One entry and one packet -/

namespace ConnTrackEntry

variable (entry : ConnTrackEntry) (env : AclEnv) (info : PacketInfo)

/-- The packet has the addresses and the protocol that the entry records. -/
def sameFlow : Bool :=
  entry.srcAddr == (info.srcIp, info.srcPort.getD 0) &&
    entry.dstAddr == (info.dstIp, info.dstPort.getD 0) && entry.protocol == info.protocol

/-- The counters of the entry are those of its flow among the packets. -/
def Counts (packets : List PacketInfo) : Prop :=
  entry.packetCount = .ofNat (packets.filter entry.sameFlow).length ∧
    entry.byteCount = .ofNat ((packets.filter entry.sameFlow).map PacketInfo.packetSize).sum

/-- The entry stands under its own addresses. -/
def Under (key : ConnTrackKey) : Prop :=
  entry.srcAddr = (key.srcIp, key.srcPort) ∧ entry.dstAddr = (key.dstIp, key.dstPort)

def touch : ConnTrackEntry :=
  { entry with
    lastSeen := env.now
    packetCount := entry.packetCount + 1
    byteCount := entry.byteCount + .ofNat info.packetSize
    state := .established }

def create : ConnTrackEntry where
  srcAddr := (info.srcIp, info.srcPort.getD 0)
  dstAddr := (info.dstIp, info.dstPort.getD 0)
  protocol := info.protocol
  state := .new
  createdAt := env.now
  lastSeen := env.now
  packetCount := 1
  byteCount := .ofNat info.packetSize

variable {entry : ConnTrackEntry} {key : ConnTrackKey} {info : PacketInfo}

/-- Under the packet's key the protocol alone is left to compare. -/
theorem Under.sameFlow (under : entry.Under (AclProcessor.connTrackKey info)) :
    entry.sameFlow info = true ↔ entry.protocol = info.protocol := by
  obtain ⟨src, dst⟩ := under
  simp [ConnTrackEntry.sameFlow, src, dst, AclProcessor.connTrackKey]

theorem Under.other (under : entry.Under key) (other : key ≠ AclProcessor.connTrackKey info) :
    entry.sameFlow info = false := by
  obtain ⟨src, dst⟩ := under
  by_contra same
  simp only [ConnTrackEntry.sameFlow, src, dst, Bool.not_eq_false, Bool.and_eq_true,
    beq_iff_eq, Prod.mk.injEq] at same
  apply other
  obtain ⟨⟨⟨srcIp, srcPort⟩, dstIp, dstPort⟩, -⟩ := same
  simp [AclProcessor.connTrackKey, ← srcIp, ← srcPort, ← dstIp, ← dstPort]

theorem counts_append_other {packets : List PacketInfo} (other : entry.sameFlow info = false) :
    entry.Counts (packets ++ [info]) ↔ entry.Counts packets := by
  simp [Counts, other]

theorem create_counts (info : PacketInfo) : (create env info).Counts [info] := by
  have same : (create env info).sameFlow info = true := by simp [create, ConnTrackEntry.sameFlow]
  rw [Counts, List.filter_cons_of_pos same]
  exact ⟨rfl, rfl⟩

theorem touch_counts {packets : List PacketInfo} {env : AclEnv} :
    (entry.touch env info).Counts packets ↔
      entry.packetCount + 1 = .ofNat (packets.filter entry.sameFlow).length ∧
        entry.byteCount + .ofNat info.packetSize =
          .ofNat ((packets.filter entry.sameFlow).map PacketInfo.packetSize).sum := .rfl

/-- A packet of the entry's addresses keeps its counters right just if it is counted when it
is of the entry's protocol, and not otherwise. -/
theorem Counts.next_iff {packets : List PacketInfo} (counts : entry.Counts packets)
    (under : entry.Under (AclProcessor.connTrackKey info)) (env : AclEnv) (tracked : Bool) :
    (if tracked then entry.touch env info else entry).Counts (packets ++ [info]) ↔
      (tracked = true ↔ entry.protocol = info.protocol) := by
  obtain ⟨count, bytes⟩ := counts
  rw [← under.sameFlow]
  cases tracked with
  | true =>
    cases same : entry.sameFlow info with
    | true =>
      refine iff_of_true ?_ (iff_of_true rfl rfl)
      simp [touch_counts, same, count, bytes]
    | false =>
      refine iff_of_false (fun counts' => ?_) (fun iff => nomatch iff.mp rfl)
      have count' := (touch_counts.mp counts').1
      simp [same, count] at count'
  | false =>
    cases same : entry.sameFlow info with
    | true =>
      refine iff_of_false (fun counts' => ?_) (fun iff => nomatch iff.mpr rfl)
      have count' := counts'.1
      simp [same, count] at count'
    | false =>
      refine iff_of_true ?_ (iff_of_false nofun nofun)
      exact (counts_append_other same).mpr ⟨count, bytes⟩

end ConnTrackEntry

/-! ## What a packet does to the connections -/

namespace AclProcessor

variable (p : AclProcessor)

/-- The rule has no limit, or its bucket has a token. -/
def hasToken (chainType : ChainType) (rule : FastLookupRule) : Bool :=
  rule.rateLimit == 0 || ((p.bucketFor chainType rule).tryConsume 1).1

/-- The rule that the packet falls under is stateful and lets it through. -/
def tracks (info : PacketInfo) (chainType : ChainType) : Bool :=
  chainType != .unspecifiedChain && (p.matching info chainType).any fun item =>
    item.1.stateful && item.1.action == .allow && p.hasToken chainType item.1

theorem checkConnectionState_eq (env : AclEnv) (key : ConnTrackKey) (info : PacketInfo) :
    (p.checkConnectionState env key info).connTrack = p.connTrack.insert key
      (((p.connTrack.lookup key).map (·.touch env info)).getD (.create env info)) := by
  unfold checkConnectionState
  cases p.connTrack.lookup key <;> rfl

variable {p p' : AclProcessor} {env : AclEnv} {info : PacketInfo} {chainType : ChainType}

/-- Taking the token, said in one line. -/
theorem checkRateLimit_eq (p : AclProcessor) (chainType : ChainType) (rule : FastLookupRule) :
    ∃ limiters, p.checkRateLimit ⟨chainType, rule.priority⟩ rule.rateLimit rule.burstLimit true =
      some (p.hasToken chainType rule, { p with rateLimiters := limiters }) := by
  by_cases unlimited : rule.rateLimit = 0
  · exact ⟨p.rateLimiters, by simp [checkRateLimit, hasToken, unlimited]⟩
  · simp [checkRateLimit_bucketFor p chainType unlimited, hasToken, unlimited]

theorem evaluate_connTrack {action : Action} {after : AclShared}
    (evaluated : p.evaluate env info chainType = some (action, after)) :
    after.connTrack = if p.tracks info chainType then
      (p.checkConnectionState env (connTrackKey info) info).connTrack else p.connTrack := by
  unfold evaluate at evaluated
  by_cases served : chainType = .unspecifiedChain
  · rw [if_pos served] at evaluated
    cases evaluated
    simp [tracks, served, shared]
  · rw [if_neg served] at evaluated
    cases matched : p.matching info chainType with
    | none =>
      rw [decision_of_no_matching matched] at evaluated
      cases evaluated
      simp [tracks, matched, track, shared]
    | some item =>
      obtain ⟨rule, index⟩ := item
      obtain ⟨limiters, checked⟩ := checkRateLimit_eq p chainType rule
      rw [decision_of_matching matched, perform_ofRule, checked, Option.map_some,
        Option.some.injEq] at evaluated
      have connTrack := congrArg (·.2.connTrack) evaluated
      rw [← connTrack]
      cases token : p.hasToken chainType rule with
      | false => simp [tracks, matched, token, shared]
      | true =>
        by_cases stateful : rule.stateful = true ∧ rule.action = .allow
        · simp [tracks, matched, token, served, stateful, ofRule_tracks, track, shared,
            checkConnectionState]
        · have untracked : p.tracks info chainType = false := by
            by_contra tracked
            simp [tracks, matched, token, served] at tracked
            exact stateful tracked
          simp [untracked, ofRule_tracks, stateful, track, shared]

theorem processPacket_connTrack (sound : p.CacheSound) (ports : PortsPresent info)
    {result : AclResult} (processed : p.processPacket env info chainType = some (result, p')) :
    p'.connTrack = if p.tracks info chainType then p.connTrack.insert (connTrackKey info)
      (((p.connTrack.lookup (connTrackKey info)).map (·.touch env info)).getD (.create env info))
        else p.connTrack := by
  obtain ⟨_, _, processed', processes⟩ := processPacket_processes sound ports env chainType
  cases processed'.symm.trans processed
  rw [← checkConnectionState_eq]
  exact evaluate_connTrack processes.evaluated

theorem lookup_of_cleanup {now timeoutSecs : Nat}
    {connTrack : AList fun _ : ConnTrackKey => ConnTrackEntry} {key : ConnTrackKey}
    {entry : ConnTrackEntry}
    (found : (cleanupExpiredConnections now timeoutSecs connTrack).lookup key = some entry) :
    connTrack.lookup key = some entry :=
  (Best.lookup_foldl_erase_iff.mp found).1

end AclProcessor

/-! ## A run and its history -/

/-- A filter with the packets it was given, oldest first, and how many came before the entry
under each key was created. -/
structure Watched where
  filter : AclFilter
  history : List PacketInfo
  born : ConnTrackKey → Nat

namespace Watched

def start (parseCidr : CidrParser) : Watched := ⟨.new parseCidr, [], fun _ => 0⟩

/-- The connections that are kept. -/
def connTrack (w : Watched) : AList fun _ : ConnTrackKey => ConnTrackEntry :=
  w.filter.aclProcessor.connTrack

variable (w : Watched) (event : FilterEvent)

/-- A packet is noted; if nothing stands under its key, an entry can be born now. -/
def note (f : AclFilter) : FilterEvent → Watched
  | .processor (.packet info _ _) =>
    let key := AclProcessor.connTrackKey info
    { filter := f
      history := w.history ++ [info]
      born := if (w.connTrack.lookup key).isNone then Function.update w.born key w.history.length
        else w.born }
  | _ => { w with filter := f }

def step (parseCidr : CidrParser) (w : Watched) (event : FilterEvent) : Option Watched :=
  (w.filter.step parseCidr event).map fun f => w.note f event

/-- The packets since the entry under the key was created. -/
def since (key : ConnTrackKey) : List PacketInfo := w.history.drop (w.born key)

/-- Each entry counts the packets of its flow since it was created. -/
def Separates : Prop :=
  ∀ key entry, w.connTrack.lookup key = some entry → entry.Counts (w.since key)

/-- An entry that the packet meets is counted up just if it is of the packet's protocol. -/
def FlowFits : Prop :=
  ∀ info chainType env, event = .processor (.packet info chainType env) →
    ∀ entry, w.connTrack.lookup (AclProcessor.connTrackKey info) = some entry →
      (w.filter.aclProcessor.tracks info chainType = true ↔ entry.protocol = info.protocol)

/-- The packet of the event falls under a stateful rule. -/
def underStateful : FilterEvent → Bool
  | .processor (.packet info chainType _) =>
    (w.filter.aclProcessor.matching info chainType).any (·.1.stateful)
  | _ => true

/-- `FlowFits`, to be computed. -/
def flowFits : FilterEvent → Bool
  | .processor (.packet info chainType _) =>
    (w.connTrack.lookup (AclProcessor.connTrackKey info)).all fun entry =>
      w.filter.aclProcessor.tracks info chainType == (entry.protocol == info.protocol)
  | _ => true

theorem flowFits_iff : w.flowFits event = true ↔ w.FlowFits event := by
  constructor
  · rintro fits info chainType env rfl entry found
    simp only [flowFits, found, Option.all_some, beq_iff_eq] at fits
    rw [fits, beq_iff_eq]
  · intro fits
    unfold flowFits
    split
    · rename_i info chainType env
      cases found : w.connTrack.lookup (AclProcessor.connTrackKey info) with
      | none => rfl
      | some entry =>
        rw [Option.all_some, beq_iff_eq, Bool.eq_iff_iff, beq_iff_eq]
        exact fits info chainType env rfl entry found
    · rfl

instance : Decidable (w.FlowFits event) :=
  decidable_of_iff _ (w.flowFits_iff event)

/-- What holds all along, whatever the protocols. -/
structure Inv : Prop where
  sound : w.filter.aclProcessor.CacheSound
  under : ∀ key entry, w.connTrack.lookup key = some entry → entry.Under key
  past : ∀ key, w.born key ≤ w.history.length

section

variable {w : Watched} {info : PacketInfo} {chainType : ChainType} {env : AclEnv}

/-- The packets since an entry that the packet cannot give birth to. -/
theorem note_since_kept (past : ∀ key, w.born key ≤ w.history.length) (f : AclFilter)
    {key : ConnTrackKey}
    (kept : key ≠ AclProcessor.connTrackKey info ∨ (w.connTrack.lookup key).isSome) :
    (w.note f (.processor (.packet info chainType env))).since key = w.since key ++ [info] := by
  have same : (w.note f (.processor (.packet info chainType env))).born key = w.born key := by
    unfold note
    dsimp only
    split_ifs with missing
    · obtain other | there := kept
      · exact Function.update_of_ne other _ _
      · refine Function.update_of_ne ?_ _ _
        rintro rfl
        rw [Option.isNone_iff_eq_none.mp missing] at there
        cases there
    · rfl
  exact (congrArg (fun n => (w.history ++ [info]).drop n) same).trans
    (List.drop_append_of_le_length (past key))

theorem note_since_born (f : AclFilter)
    (missing : w.connTrack.lookup (AclProcessor.connTrackKey info) = none) :
    (w.note f (.processor (.packet info chainType env))).since (AclProcessor.connTrackKey info) =
      [info] := by
  simp [since, note, missing]

/-- The watched filter after a packet. -/
def afterPacket (w : Watched) (info : PacketInfo) (chainType : ChainType) (env : AclEnv)
    (p' : AclProcessor) : Watched :=
  w.note { w.filter with aclProcessor := p' } (.processor (.packet info chainType env))

section

variable {result : AclResult} {p' : AclProcessor} (inv : w.Inv) (ports : PortsPresent info)
  (processed : w.filter.aclProcessor.processPacket env info chainType = some (result, p'))

include inv ports processed

/-- Other entries stay as they are. -/
theorem afterPacket_other {key : ConnTrackKey} (other : key ≠ AclProcessor.connTrackKey info) :
    (w.afterPacket info chainType env p').connTrack.lookup key = w.connTrack.lookup key := by
  refine (congrArg (AList.lookup key)
    (AclProcessor.processPacket_connTrack inv.sound ports processed)).trans ?_
  split
  · exact AList.lookup_insert_ne other
  · rfl

/-- The entry under the packet's key is counted up or created, if the packet is tracked. -/
theorem afterPacket_here :
    (w.afterPacket info chainType env p').connTrack.lookup (AclProcessor.connTrackKey info) =
      if w.filter.aclProcessor.tracks info chainType then
        some (((w.connTrack.lookup (AclProcessor.connTrackKey info)).map (·.touch env info)).getD
          (.create env info))
      else w.connTrack.lookup (AclProcessor.connTrackKey info) := by
  refine (congrArg (AList.lookup _)
    (AclProcessor.processPacket_connTrack inv.sound ports processed)).trans ?_
  split
  · exact AList.lookup_insert _
  · rfl

theorem afterPacket_inv : (w.afterPacket info chainType env p').Inv where
  sound := by
    obtain ⟨_, _, processed', processes⟩ :=
      AclProcessor.processPacket_processes inv.sound ports env chainType
    cases processed'.symm.trans processed
    exact processes.cacheSound ports inv.sound
  under key entry found := by
    by_cases here : key = AclProcessor.connTrackKey info
    · subst here
      rw [afterPacket_here inv ports processed] at found
      split at found
      · cases there : w.connTrack.lookup (AclProcessor.connTrackKey info) with
        | none =>
          rw [there] at found
          cases found
          exact ⟨rfl, rfl⟩
        | some old =>
          rw [there] at found
          cases found
          exact inv.under _ old there
      · exact inv.under _ entry found
    · rw [afterPacket_other inv ports processed here] at found
      exact inv.under key entry found
  past key := by
    have longer : (w.afterPacket info chainType env p').history.length = w.history.length + 1 :=
      List.length_append
    have before := inv.past key
    change (if _ then _ else _ : ConnTrackKey → Nat) key ≤ _
    split
    · by_cases here : key = AclProcessor.connTrackKey info
      · rw [here, Function.update_self]
        omega
      · rw [Function.update_of_ne here]
        omega
    · omega

/-- Only the entry under the packet's key can come to count wrongly. -/
theorem afterPacket_separates (separates : w.Separates) :
    (w.afterPacket info chainType env p').Separates ↔
      ∀ entry, (w.afterPacket info chainType env p').connTrack.lookup
        (AclProcessor.connTrackKey info) = some entry →
          entry.Counts ((w.afterPacket info chainType env p').since
            (AclProcessor.connTrackKey info)) := by
  refine ⟨fun separates' => separates' _, fun here key entry found => ?_⟩
  by_cases isKey : key = AclProcessor.connTrackKey info
  · exact isKey ▸ here entry (isKey ▸ found)
  · rw [afterPacket_other inv ports processed isKey] at found
    rw [afterPacket, note_since_kept inv.past _ (.inl isKey)]
    exact (ConnTrackEntry.counts_append_other ((inv.under key entry found).other isKey)).mpr
      (separates key entry found)

/-- One packet keeps the flows apart just if it fits. -/
theorem packet_separates_iff (separates : w.Separates) :
    (w.afterPacket info chainType env p').Separates ↔
      w.FlowFits (.processor (.packet info chainType env)) := by
  have fitsHere : w.FlowFits (.processor (.packet info chainType env)) ↔
      ∀ entry, w.connTrack.lookup (AclProcessor.connTrackKey info) = some entry →
        (w.filter.aclProcessor.tracks info chainType = true ↔ entry.protocol = info.protocol) := by
    constructor
    · exact fun fits => fits info chainType env rfl
    · rintro fits _ _ _ ⟨⟩
      exact fits
  rw [afterPacket_separates inv ports processed separates, fitsHere,
    afterPacket_here inv ports processed]
  cases there : w.connTrack.lookup (AclProcessor.connTrackKey info) with
  | none =>
    refine iff_of_true (fun entry found => ?_) nofun
    rw [afterPacket, note_since_born _ there]
    split at found
    · cases found
      exact ConnTrackEntry.create_counts env info
    · cases found
  | some old =>
    have next := (separates _ old there).next_iff (inv.under _ old there) env
      (w.filter.aclProcessor.tracks info chainType)
    rw [afterPacket, note_since_kept inv.past _ (.inr (by rw [there, Option.isSome_some]))]
    simp only [Option.some.injEq, forall_eq', Option.map_some, Option.getD_some]
    rw [← next]
    split <;> simp

end

end

/-- The events that are no packets may lose entries, and do nothing else. -/
theorem silent_separates {parseCidr : CidrParser} {w : Watched} (inv : w.Inv)
    (separates : w.Separates) {event : FilterEvent}
    (silent : ∀ info chainType env, event ≠ .processor (.packet info chainType env)) :
    ∃ w', w.step parseCidr event = some w' ∧ w'.Inv ∧ w'.Separates := by
  suffices ∃ f, w.filter.step parseCidr event = some f ∧ w.note f event = { w with filter := f } ∧
      f.aclProcessor.CacheSound ∧ ∀ key entry, f.aclProcessor.connTrack.lookup key = some entry →
        w.connTrack.lookup key = some entry by
    obtain ⟨f, stepped, noted, sound, fewer⟩ := this
    refine ⟨{ w with filter := f }, by rw [step, stepped, Option.map_some, noted], ?_, ?_⟩
    · exact ⟨sound, fun key entry found => inv.under key entry (fewer key entry found), inv.past⟩
    · exact fun key entry found => separates key entry (fewer key entry found)
  cases event with
  | reload acl =>
    cases acl with
    | none => exact ⟨_, rfl, rfl, inv.sound, fun _ _ found => found⟩
    | some acl =>
      exact ⟨_, rfl, rfl, (AclProcessor.Twins.refl_of_empty rfl).sound, fun _ _ found => found⟩
  | processor event =>
    have extracted : AclProcessor.Extracted [event] := fun info chainType env mem =>
      absurd (congrArg FilterEvent.processor (List.mem_singleton.mp mem).symm)
        (silent info chainType env)
    suffices ∃ p', w.filter.aclProcessor.step AclProcessor.processPacket event = some (none, p') ∧
        ∀ key entry, p'.connTrack.lookup key = some entry →
          w.connTrack.lookup key = some entry by
      obtain ⟨p', stepped, fewer⟩ := this
      refine ⟨{ w.filter with aclProcessor := p' }, ?_, ?_, inv.sound.step extracted stepped, fewer⟩
      · simp [AclFilter.step, stepped]
      · cases event with
        | packet info chainType env => exact absurd rfl (silent info chainType env)
        | _ => rfl
    cases event with
    | packet info chainType env => exact absurd rfl (silent info chainType env)
    | evict keys => exact ⟨_, rfl, fun _ _ found => found⟩
    | refill key tokens =>
      unfold AclProcessor.step
      dsimp only
      split <;> exact ⟨_, rfl, fun _ _ found => found⟩
    | expire now => exact ⟨_, rfl, fun _ _ found => AclProcessor.lookup_of_cleanup found⟩

/-- The packets of the event have ports just if they are TCP or UDP. -/
def ExtractedEvent (event : FilterEvent) : Prop :=
  ∀ info chainType env, event = .processor (.packet info chainType env) → PortsPresent info

variable (parseCidr : CidrParser)

theorem step_separates_iff (w : Watched) (event : FilterEvent) (extracted : ExtractedEvent event)
    (inv : w.Inv) (separates : w.Separates) :
    ∃ w', w.step parseCidr event = some w' ∧ w'.Inv ∧ (w'.Separates ↔ w.FlowFits event) := by
  by_cases isPacket : ∃ info chainType env, event = .processor (.packet info chainType env)
  · obtain ⟨info, chainType, env, rfl⟩ := isPacket
    have ports := extracted info chainType env rfl
    obtain ⟨result, p', processed, -⟩ :=
      AclProcessor.processPacket_processes inv.sound ports env chainType
    refine ⟨w.afterPacket info chainType env p', ?_, afterPacket_inv inv ports processed,
      packet_separates_iff inv ports processed separates⟩
    simp [step, AclFilter.step, AclProcessor.step, processed, afterPacket]
  · have silent : ∀ info chainType env, event ≠ .processor (.packet info chainType env) :=
      fun info chainType env isEvent => isPacket ⟨info, chainType, env, isEvent⟩
    obtain ⟨w', stepped, inv', separates'⟩ := silent_separates inv separates silent
    exact ⟨w', stepped, inv', iff_of_true separates' fun info chainType env isEvent =>
      absurd isEvent (silent info chainType env)⟩

theorem start_inv : (start parseCidr).Inv ∧ (start parseCidr).Separates :=
  ⟨⟨(AclProcessor.Twins.refl_of_empty rfl).sound, nofun, fun _ => Nat.le_refl 0⟩, nofun⟩

/-- **Connection tracking separates flows** in every state of a run exactly when, whenever a
packet meets an entry under its addresses and ports, the packet is tracked if it is of the
entry's protocol and is not if it is of another: the key does not name the protocol, so a
tracked packet of another protocol is counted as one of the flow. -/
theorem tracking_separates_iff (events : List FilterEvent)
    (extracted : ∀ event ∈ events, ExtractedEvent event) :
    (∀ w ∈ Schedule.visited (step parseCidr) (start parseCidr) events, w.Separates) ↔
      ∀ move ∈ Schedule.moves (step parseCidr) (start parseCidr) events,
        move.1.FlowFits move.2 :=
  Schedule.visited_iff_moves (step_separates_iff parseCidr) extracted (start_inv parseCidr).1
    (start_inv parseCidr).2

end Watched

/-- Everything inbound is let through and tracked. -/
def trackingAcl : AclConfig :=
  ⟨some ⟨[⟨ChainType.inbound.code, true,
    [⟨10, true, 5, [], [], [], [], 1, 0, 0, true, [], []⟩], 2⟩]⟩⟩

/-- The rules are loaded, and packets of the protocols come, all with the same addresses and
ports. -/
def sameEndpoints (protocols : List Protocol) : List FilterEvent :=
  .reload (some trackingAcl) :: protocols.map fun protocol => .processor
    (.packet { sampleHandler.packetInfo with protocol := protocol } .inbound sampleEnv)

theorem sameEndpoints_extracted {protocols : List Protocol}
    (transport : ∀ protocol ∈ protocols, protocol = .tcp ∨ protocol = .udp) :
    ∀ event ∈ sameEndpoints protocols, Watched.ExtractedEvent event := by
  rintro event mem info chainType env rfl
  obtain same | mem := List.mem_cons.mp mem
  · cases same
  · obtain ⟨protocol, listed, same⟩ := List.mem_map.mp mem
    cases same
    obtain rfl | rfl := transport protocol listed
    · decide
    · decide

theorem one_protocol_separates :
    (∀ event ∈ sameEndpoints [.tcp, .tcp], Watched.ExtractedEvent event) ∧
      ∀ w ∈ Schedule.visited (Watched.step fun _ => none) (.start fun _ => none)
        (sameEndpoints [.tcp, .tcp]), w.Separates :=
  ⟨sameEndpoints_extracted (by decide),
    (Watched.tracking_separates_iff (fun _ => none) (sameEndpoints [.tcp, .tcp])
      (sameEndpoints_extracted (by decide))).mpr (by decide +kernel)⟩

/-- A TCP packet and a UDP packet with the same addresses and ports: the entry records TCP
and counts two packets, of which one is of its flow. -/
theorem other_protocol_counted :
    (∀ event ∈ sameEndpoints [.tcp, .udp], Watched.ExtractedEvent event) ∧
      (∀ move ∈ Schedule.moves (Watched.step fun _ => none) (.start fun _ => none)
        (sameEndpoints [.tcp, .udp]), move.1.underStateful move.2 = true) ∧
      (Schedule.visited (Watched.step fun _ => none) (.start fun _ => none)
        (sameEndpoints [.tcp, .udp]))[3]?.bind (fun w =>
          let key := AclProcessor.connTrackKey sampleHandler.packetInfo
          (w.connTrack.lookup key).map fun entry => (entry.protocol, entry.packetCount,
            ((w.since key).filter entry.sameFlow).length)) = some (.tcp, 2, 1) :=
  ⟨sameEndpoints_extracted (by decide), by decide +kernel, by decide +kernel⟩

end PeerLink.Acl
