import PeerLink.Schedule.Along
import PeerLink.Sync.Owners

/-!
# The digest of the peer center

Peers report their direct peers with the latencies to the center, which keeps them by pairs. Who
asks for the whole map sends the digest of the last answer, and if the digest of the center is the
same the answer is that nothing has changed. The center calculates the digest when it gets a
report, from the pairs; it does not calculate it when it removes pairs that are out of date, and
the latencies are not part of it.
-/

namespace PeerLink.PeerCenter

open Route (PeerId retain lookup_retain)

structure SrcDstPeerPair where
  src : PeerId
  dst : PeerId
  deriving DecidableEq

/-- The derived order. -/
def SrcDstPeerPair.le (a b : SrcDstPeerPair) : Bool :=
  a.src < b.src || a.src == b.src && a.dst ≤ b.dst

/-- Times are in milliseconds. -/
structure PeerCenterInfoEntry where
  latencyMs : Int
  updateTime : Nat

abbrev Digest := UInt64

/-- `digested` are the pairs that the digest was calculated from. No code reads it. -/
structure PeerCenterServer where
  globalPeerMap : AList fun _ : SrcDstPeerPair => PeerCenterInfoEntry
  peerReportTime : AList fun _ : PeerId => Nat
  digest : Digest
  digested : Option (List SrcDstPeerPair)

structure ReportPeersRequest where
  myPeerId : PeerId
  /-- the direct peers with their latencies -/
  peerInfos : Option (List (PeerId × Int))

structure GetGlobalPeerMapResponse where
  globalPeerMap : PeerId → PeerId → Option Int
  digest : Option Digest

/-- The default response, which says that nothing has changed. -/
def GetGlobalPeerMapResponse.default : GetGlobalPeerMapResponse := ⟨fun _ _ => none, none⟩

inductive CenterEvent where
  | reportPeers (request : ReportPeersRequest) (now : Nat)
  | cleanOutdatedPeer (now : Nat)
  | getGlobalPeerMap (digest : Digest)

/-- How long a report counts, in milliseconds. -/
def OUTDATED : Nat := 180000

namespace PeerCenterServer

def new : PeerCenterServer := ⟨∅, ∅, 0, none⟩

variable (hash : List SrcDstPeerPair → Digest) (center : PeerCenterServer)

def sortedPairs : List SrcDstPeerPair :=
  center.globalPeerMap.keys.insertionSort fun a b => a.le b

def cleanOutdatedPeer (now : Nat) : PeerCenterServer :=
  { center with
    peerReportTime := retain center.peerReportTime fun _ time => now - time < OUTDATED
    globalPeerMap := retain center.globalPeerMap fun _ entry => now - entry.updateTime < OUTDATED }

def addPeer (myPeerId : PeerId) (now : Nat)
    (map : AList fun _ : SrcDstPeerPair => PeerCenterInfoEntry) (peer : PeerId × Int) :
    AList fun _ : SrcDstPeerPair => PeerCenterInfoEntry :=
  map.insert ⟨myPeerId, peer.1⟩ ⟨peer.2, now⟩

/-- The latency that the map has for a pair. -/
def latency (pair : SrcDstPeerPair) : Option Int :=
  (center.globalPeerMap.lookup pair).map (·.latencyMs)

def getGlobalPeerMap (digest : Digest) : GetGlobalPeerMapResponse :=
  if digest = center.digest ∧ digest ≠ 0 then .default
  else ⟨fun src dst => center.latency ⟨src, dst⟩, some center.digest⟩

def calcGlobalDigest : Digest := hash center.sortedPairs

def reportPeers (request : ReportPeersRequest) (now : Nat) : PeerCenterServer :=
  let peers := request.peerInfos.getD []
  let center :=
    { center with
      peerReportTime := center.peerReportTime.insert request.myPeerId now
      globalPeerMap := peers.foldl (addPeer request.myPeerId now) center.globalPeerMap }
  { center with digest := center.calcGlobalDigest hash, digested := some center.sortedPairs }

def step : CenterEvent → PeerCenterServer
  | .reportPeers request now => center.reportPeers hash request now
  | .cleanOutdatedPeer now => center.cleanOutdatedPeer now
  | .getGlobalPeerMap _ => center

def run (events : List CenterEvent) : PeerCenterServer :=
  events.foldl (step hash) center

/-! ### The pairs behind the digest -/

/-- The digest is that of some pairs, and of these the map has some. -/
structure Ok : Prop where
  initial : center.digested = none → center.digest = 0
  digest : ∀ pairs, center.digested = some pairs → center.digest = hash pairs
  pairs : ∀ pairs, center.digested = some pairs →
    ∀ pair ∈ center.globalPeerMap, pair ∈ pairs

variable {hash} {center : PeerCenterServer}

theorem mem_sortedPairs {pair : SrcDstPeerPair} :
    pair ∈ center.sortedPairs ↔ pair ∈ center.globalPeerMap := by
  unfold sortedPairs
  rw [List.mem_insertionSort]
  exact AList.mem_keys.symm

theorem mem_iff_latency {pair : SrcDstPeerPair} :
    pair ∈ center.globalPeerMap ↔ ∃ ms, center.latency pair = some ms := by
  unfold latency
  rw [Best.mem_iff_lookup]
  constructor
  · rintro ⟨entry, found⟩
    exact ⟨entry.latencyMs, by rw [found]; rfl⟩
  · rintro ⟨ms, found⟩
    obtain ⟨entry, found, -⟩ := Option.map_eq_some_iff.mp found
    exact ⟨entry, found⟩

theorem Ok.new : Ok hash new := ⟨fun _ => rfl, nofun, nofun⟩

theorem Ok.step (ok : Ok hash center) (event : CenterEvent) : Ok hash (center.step hash event) := by
  cases event with
  | getGlobalPeerMap digest => exact ok
  | cleanOutdatedPeer now =>
    refine ⟨ok.initial, ok.digest, fun pairs known pair mem => ok.pairs pairs known pair ?_⟩
    obtain ⟨entry, found⟩ := Best.mem_iff_lookup.mp mem
    exact Best.mem_iff_lookup.mpr ⟨entry, (lookup_retain.mp found).1⟩
  | reportPeers request now =>
    refine ⟨nofun, fun pairs known => ?_, fun pairs known pair mem => ?_⟩
    · cases known
      rfl
    · cases known
      exact mem_sortedPairs.mpr mem

theorem Ok.run (ok : Ok hash center) (events : List CenterEvent) :
    Ok hash (center.run hash events) := by
  induction events generalizing center with
  | nil => exact ok
  | cons event events ih => exact ih (ok.step event)

/-- A digest that is not zero was calculated from some pairs. -/
theorem Ok.digested (ok : Ok hash center) (nonzero : center.digest ≠ 0) :
    ∃ pairs, center.digested = some pairs ∧ center.digest = hash pairs := by
  cases known : center.digested with
  | none => exact absurd (ok.initial known) nonzero
  | some pairs => exact ⟨pairs, rfl, ok.digest pairs known⟩

theorem getGlobalPeerMap_some {asked d : Digest}
    (answered : (center.getGlobalPeerMap asked).digest = some d) :
    d = center.digest ∧
      (center.getGlobalPeerMap asked).globalPeerMap = fun src dst => center.latency ⟨src, dst⟩ := by
  unfold getGlobalPeerMap at answered ⊢
  split_ifs at answered with changed
  · cases answered
  · rw [if_neg changed]
    exact ⟨(Option.some.inj answered).symm, rfl⟩

theorem getGlobalPeerMap_none {d : Digest} (same : (center.getGlobalPeerMap d).digest = none) :
    d = center.digest ∧ d ≠ 0 := by
  unfold getGlobalPeerMap at same
  split at same
  · assumption
  · cases same

/-! ### Operations that keep what has been answered -/

/-- A cleanup removes no pair, and a report has no other latency for a pair of the map. -/
def Keeps (center : PeerCenterServer) : CenterEvent → Prop
  | .reportPeers request _ => ∀ peer ∈ request.peerInfos.getD [],
      ∀ ms ∈ center.latency ⟨request.myPeerId, peer.1⟩, peer.2 = ms
  | .cleanOutdatedPeer now => ∀ pair, ∀ entry ∈ center.globalPeerMap.lookup pair,
      now - entry.updateTime < OUTDATED
  | .getGlobalPeerMap _ => True

def KeepsAll (hash : List SrcDstPeerPair → Digest) (center : PeerCenterServer)
    (events : List CenterEvent) : Prop :=
  Schedule.Throughout (step hash) Keeps center events

/-- The pairs that the digest was calculated from are all in the map. -/
def Fresh (center : PeerCenterServer) : Prop :=
  ∀ pairs ∈ center.digested, ∀ pair ∈ pairs, pair ∈ center.globalPeerMap

theorem latency_addPeers {myPeerId : PeerId} {now : Nat} {peers : List (PeerId × Int)}
    {map : AList fun _ : SrcDstPeerPair => PeerCenterInfoEntry} {pair : SrcDstPeerPair} {ms : Int}
    (same : ∀ peer ∈ peers, pair = ⟨myPeerId, peer.1⟩ → peer.2 = ms)
    (found : (map.lookup pair).map (·.latencyMs) = some ms) :
    ((peers.foldl (addPeer myPeerId now) map).lookup pair).map (·.latencyMs) = some ms := by
  induction peers generalizing map with
  | nil => exact found
  | cons peer peers ih =>
    refine ih (fun peer mem => same peer (.tail _ mem)) ?_
    by_cases here : pair = ⟨myPeerId, peer.1⟩
    · rw [here, addPeer, AList.lookup_insert, Option.map_some, same peer List.mem_cons_self here]
    · rw [addPeer, AList.lookup_insert_ne here, found]

theorem Keeps.latency {event : CenterEvent} (keeps : center.Keeps event) {pair : SrcDstPeerPair}
    {ms : Int} (found : center.latency pair = some ms) :
    (center.step hash event).latency pair = some ms := by
  cases event with
  | getGlobalPeerMap digest => exact found
  | cleanOutdatedPeer now =>
    obtain ⟨entry, there, rfl⟩ := Option.map_eq_some_iff.mp found
    refine Option.map_eq_some_iff.mpr ⟨entry, lookup_retain.mpr ⟨there, ?_⟩, rfl⟩
    exact decide_eq_true (keeps pair entry there)
  | reportPeers request now =>
    exact latency_addPeers (fun peer mem here => keeps peer mem ms (here ▸ found)) found

theorem Keeps.fresh {event : CenterEvent} (keeps : center.Keeps event) (fresh : center.Fresh) :
    (center.step hash event).Fresh := by
  intro pairs known pair mem
  cases event with
  | reportPeers request now =>
    cases known
    exact mem_sortedPairs.mp mem
  | getGlobalPeerMap _ | cleanOutdatedPeer _ =>
    obtain ⟨ms, found⟩ := mem_iff_latency.mp (fresh pairs known pair mem)
    exact mem_iff_latency.mpr ⟨ms, keeps.latency found⟩

theorem KeepsAll.latency {events : List CenterEvent} (keeps : KeepsAll hash center events)
    {pair : SrcDstPeerPair} {ms : Int} (found : center.latency pair = some ms) :
    (center.run hash events).latency pair = some ms :=
  @Schedule.Throughout.foldl _ _ (fun center => center.latency pair = some ms) _ _ _ _
    (fun _ _ found keeps => keeps.latency found) found keeps

theorem KeepsAll.fresh {events : List CenterEvent} (keeps : KeepsAll hash center events)
    (fresh : center.Fresh) : (center.run hash events).Fresh :=
  Schedule.Throughout.foldl (fun _ _ fresh keeps => keeps.fresh fresh) fresh keeps

/-- With one digest for both and nothing lost on the way, the later map is the earlier one. -/
theorem Ok.latency_eq {center' : PeerCenterServer} {pairs : List SrcDstPeerPair}
    (ok' : Ok hash center') (fresh : center.Fresh) (known : center.digested = some pairs)
    (known' : center'.digested = some pairs)
    (kept : ∀ pair ms, center.latency pair = some ms → center'.latency pair = some ms) :
    center.latency = center'.latency := by
  funext pair
  cases here : center.latency pair with
  | some ms => exact (kept pair ms here).symm
  | none =>
    cases there : center'.latency pair with
    | none => rfl
    | some ms' =>
      have mem := ok'.pairs pairs known' pair (mem_iff_latency.mpr ⟨ms', there⟩)
      obtain ⟨ms, found⟩ := mem_iff_latency.mp (fresh pairs known pair mem)
      cases here.symm.trans found

end PeerCenterServer

open PeerCenterServer

/-- **An answer that nothing has changed is right if the operations kept the map.** After a report a
call is answered with a map and a digest; later a call with that digest is answered that nothing has
changed. If the hash has no collision between what the two digests were calculated from, no cleanup
since the report removed a pair of the map and no report between the two calls changed the latency
of one, then the map of the center is that of the first answer. -/
theorem unchanged_sound (hash : List SrcDstPeerPair → Digest)
    (before since later : List CenterEvent)
    (request : ReportPeersRequest) (now : Nat) {asked d : Digest} :
    let reported := (new.run hash before).reportPeers hash request now
    let first := reported.run hash since
    let second := first.run hash later
    (first.getGlobalPeerMap asked).digest = some d → (second.getGlobalPeerMap d).digest = none →
      (∀ pairs ∈ first.digested, ∀ pairs' ∈ second.digested, hash pairs = hash pairs' →
        pairs = pairs') →
      KeepsAll hash reported since → KeepsAll hash first later →
      (first.getGlobalPeerMap asked).globalPeerMap = fun src dst => second.latency ⟨src, dst⟩ := by
  intro reported first second answered unchanged free kept_since kept_later
  have ok_reported : Ok hash reported := ((@Ok.new hash).run before).step (.reportPeers request now)
  have ok : Ok hash first := ok_reported.run since
  have ok' : Ok hash second := ok.run later
  have fresh : first.Fresh := kept_since.fresh fun pairs known pair mem => by
    cases known
    exact mem_sortedPairs.mp mem
  obtain ⟨here, map⟩ := getGlobalPeerMap_some answered
  obtain ⟨there, nonzero⟩ := getGlobalPeerMap_none unchanged
  obtain ⟨pairs, known, digest⟩ := ok.digested (here ▸ nonzero)
  obtain ⟨pairs', known', digest'⟩ := ok'.digested (there ▸ nonzero)
  have same : pairs = pairs' := free pairs known pairs' known'
    (digest.symm.trans (here.symm.trans (there.trans digest')))
  subst same
  rw [map, ok'.latency_eq fresh known known' fun pair ms => kept_later.latency]

def sampleHash (pairs : List SrcDstPeerPair) : Digest :=
  pairs.foldl (fun h pair => h * 31 + .ofNat pair.src * 7 + .ofNat pair.dst) 1

/-- Peer 2 reports its direct peer 3 with the latency. -/
def reportOf (latencyMs : Int) (now : Nat) : CenterEvent :=
  .reportPeers ⟨2, some [(3, latencyMs)]⟩ now

/-- A cleanup that finds nothing and a report that repeats the latency. -/
theorem repeated_report_unchanged :
    let first := (new.run sampleHash []).reportPeers sampleHash ⟨2, some [(3, 10)]⟩ 0
    let second := first.run sampleHash [.cleanOutdatedPeer 100000, reportOf 10 120000]
    (first.getGlobalPeerMap 0).digest = some 48 ∧ (second.getGlobalPeerMap 48).digest = none ∧
      (first.getGlobalPeerMap 0).globalPeerMap = fun src dst => second.latency ⟨src, dst⟩ := by
  intro first second
  have answered : (first.getGlobalPeerMap 0).digest = some 48 := by decide +kernel
  have unchanged : (second.getGlobalPeerMap 48).digest = none := by decide +kernel
  have known : first.digested = some [⟨2, 3⟩] := by decide +kernel
  have known' : second.digested = some [⟨2, 3⟩] := by decide +kernel
  refine ⟨answered, unchanged,
    unchanged_sound sampleHash [] [] _ _ _ answered unchanged ?_ trivial ⟨?_, ?_, trivial⟩⟩
  · intro pairs here pairs' there _
    exact Option.some.inj (here.symm.trans (known.trans (known'.symm.trans there)))
  · intro pair entry found
    obtain found | ⟨rfl, rfl⟩ := Best.lookup_insert_origin found
    · cases found
    · decide
  · intro peer mem ms found
    cases List.mem_singleton.mp mem
    have there : (first.cleanOutdatedPeer 100000).latency ⟨2, 3⟩ = some 10 := by decide +kernel
    exact Option.some.inj (there.symm.trans found)

/-- After the first answer the latency is reported anew, or the pair is removed; both times the
answer is that nothing has changed. -/
theorem unchanged_after_change :
    ((new.run sampleHash [reportOf 10 0]).getGlobalPeerMap 0).digest = some 48 ∧
      ((new.run sampleHash [reportOf 10 0]).getGlobalPeerMap 0).globalPeerMap 2 3 = some 10 ∧
      (((new.run sampleHash [reportOf 10 0, reportOf 90 60000]).getGlobalPeerMap 48).digest = none ∧
        (new.run sampleHash [reportOf 10 0, reportOf 90 60000]).latency ⟨2, 3⟩ = some 90) ∧
      ((new.run sampleHash [reportOf 10 0, .cleanOutdatedPeer 200000]).getGlobalPeerMap 48).digest =
          none ∧
        (new.run sampleHash [reportOf 10 0, .cleanOutdatedPeer 200000]).latency ⟨2, 3⟩ = none := by
  refine ⟨?_, ?_, ⟨?_, ?_⟩, ?_, ?_⟩ <;> decide +kernel

end PeerLink.PeerCenter
