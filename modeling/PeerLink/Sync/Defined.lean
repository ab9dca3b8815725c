import PeerLink.Route.Addresses
import PeerLink.Route.Concurrent
import PeerLink.Sync.Clock
import PeerLink.Sync.Convergence

/-!
# Builds need the own info

`build_from_synced_info` searches from the node of the own info. Without one it has no
start, and it panics as soon as another peer is in the graph. The own info is kept by
every update, but not by `clear_expired_peer`.
-/

namespace PeerLink.Sync

open Route Best

/-! ## When a build has a start -/

/-- The start lies in the graph, or the graph is empty and is not searched. -/
def StartsInside (platform : Platform) (me : PeerId) (info : SyncedRouteInfo)
    (calculateCost : PeerId → PeerId → Int) : Prop :=
  ∃ g start, buildPeerGraphFromSyncedInfo platform me info calculateCost = some (g, start) ∧
    (g.nodes.length = 0 ∨ start < g.nodes.length)

/-- Both policies can build their next hops, whatever the table holds. -/
structure BuildDefined (me : PeerId) (info : SyncedRouteInfo) : Prop where
  starts : ∀ platform calculateCost, StartsInside platform me info calculateCost
  returns : ∀ platform t policy calculateCost,
    ∃ t', buildNextHopMap platform t me info policy calculateCost = some t'

section

variable {me : PeerId} {info : SyncedRouteInfo}

/-- That the next hops can be computed does not depend on the table. -/
theorem buildNextHopMap_returns (platform : Platform) (policy : NextHopPolicy)
    (calculateCost : PeerId → PeerId → Int) (known : info.Known me) (t : NextHopTable) :
    ∃ t', buildNextHopMap platform t me info policy calculateCost = some t' := by
  obtain ⟨g, start, built, -, rep⟩ := buildPeerGraph_spec platform calculateCost known
  obtain ⟨-, -, hops, -, -, run, -⟩ := buildNextHopMap_builtFor platform policy calculateCost
    known (RouteTable.new_older info.version).hops
  rw [buildNextHopMap_actions built rep.wf] at run ⊢
  obtain ⟨actions, computed, -⟩ := Option.map_eq_some_iff.mp run
  exact ⟨_, by rw [computed]; rfl⟩

theorem BuildDefined.of_known (known : info.Known me) : BuildDefined me info where
  starts platform calculateCost := by
    obtain ⟨g, start, built, node, -⟩ := buildPeerGraph_spec platform calculateCost known
    exact ⟨g, start, built, .inr (List.getElem?_eq_some_iff.mp node).1⟩
  returns platform t policy calculateCost :=
    buildNextHopMap_returns platform policy calculateCost known t

theorem BuildDefined.of_none_known (none : ∀ p, ¬ info.Known p) : BuildDefined me info := by
  have empty : ∀ platform calculateCost, ∃ g,
      buildPeerGraphFromSyncedInfo platform me info calculateCost = some (g, nodeIndexEnd) ∧
        g.nodes.length = 0 := by
    intro platform calculateCost
    obtain ⟨g, built, -, -, nodes⟩ := buildPeerGraph_unknown platform calculateCost (none me)
    refine ⟨g, built, List.length_eq_zero_iff.mpr (List.eq_nil_iff_forall_not_mem.mpr ?_)⟩
    exact fun p mem => none p ((nodes p).mp mem)
  constructor
  · intro platform calculateCost
    obtain ⟨g, built, length⟩ := empty platform calculateCost
    exact ⟨g, _, built, .inl length⟩
  · intro platform t policy calculateCost
    obtain ⟨g, built, length⟩ := empty platform calculateCost
    refine ⟨t, ?_⟩
    simp only [buildNextHopMap, built, Option.bind_eq_bind, Option.bind_some, if_pos length]
    rfl

end

/-! ## Calls with their clock readings -/

namespace ClockedInfo

/-- After an update: an entry that was not there before has the fields `written` for it. -/
def stamped (s : ClockedInfo) (synced : SyncedRouteInfo)
    (written : PeerId → OtherPeerInfo × Int) : ClockedInfo where
  synced := synced
  rest := ⟨synced.peerInfos.entries.map fun item =>
      ⟨item.1, if s.synced.peerInfos.lookup item.1 = some item.2 then
        (s.rest.lookup item.1).getD (written item.1) else written item.1⟩, by
    simpa [List.NodupKeys, List.keys, Function.comp_def] using synced.peerInfos.nodupKeys⟩

end ClockedInfo

/-- A call that changes the synced infos. What it writes into the fields that they leave
out, the time among them, comes with it. -/
inductive SyncCall where
  | updatePeerInfos (dstPeerId : PeerId) (infos : List RoutePeerInfo) (raws : List RawPeerInfo)
      (written : PeerId → OtherPeerInfo × Int)
  | updateConnMap (connBitmap : RouteConnBitmap) (written : PeerId → OtherPeerInfo × Int)
  | updateForeignNetwork (foreignNetwork : List ForeignNetworkInfo)
  | updateMyConnInfo (connected : Finset PeerId) (written : PeerId → OtherPeerInfo × Int)
  | own (call : OwnCall)

def SyncCall.apply (me : PeerId) (routeId : Nat) (s : ClockedInfo) : SyncCall → ClockedInfo
  | updatePeerInfos dst infos raws written =>
    s.stamped (s.synced.updatePeerInfos me routeId dst infos raws).1 written
  | updateConnMap connBitmap written => s.stamped (s.synced.updateConnMap connBitmap).1 written
  | updateForeignNetwork networks => { s with synced := s.synced.updateForeignNetwork networks }
  | updateMyConnInfo connected written =>
    s.stamped (s.synced.updateMyConnInfo me connected).1 written
  | own call => call.apply me routeId s

inductive SyncRun (me : PeerId) (routeId : Nat) (Allowed : ClockedInfo → SyncCall → Prop) :
    ClockedInfo → Prop where
  | start : SyncRun me routeId Allowed .new
  | step {s : ClockedInfo} (call : SyncCall) : SyncRun me routeId Allowed s → Allowed s call →
      SyncRun me routeId Allowed (call.apply me routeId s)

/-- Infos are received only with an own info, and that one is kept. -/
def KeepsStart (me : PeerId) (s : ClockedInfo) : SyncCall → Prop
  | .updatePeerInfos .. => s.synced.Known me
  | .own call => KeepsOwn me s call
  | _ => True

/-! ## The invariant -/

/-- The own info is there, or there are only placeholders yet. -/
def Started (me : PeerId) (info : SyncedRouteInfo) : Prop :=
  info.Known me ∨ ∀ p peerInfo, info.peerInfos.lookup p = some peerInfo → peerInfo = .new

section

variable {me : PeerId} {info info' : SyncedRouteInfo}

theorem Started.buildDefined (h : Started me info) : BuildDefined me info := by
  obtain known | placeholders := h
  · exact .of_known known
  · apply BuildDefined.of_none_known
    rintro p ⟨peerInfo, found, nonzero⟩
    exact nonzero (by rw [placeholders p peerInfo found]; rfl)

theorem known_iff_hasPeer {p : PeerId} : info.Known p ↔ info.HasPeer p 1 := by
  constructor
  · rintro ⟨peerInfo, found, nonzero⟩
    exact ⟨peerInfo, found, Nat.one_le_iff_ne_zero.mpr nonzero⟩
  · rintro ⟨peerInfo, found, positive⟩
    exact ⟨peerInfo, found, Nat.one_le_iff_ne_zero.mp positive⟩

theorem known_mono (le : info.Le info') {p : PeerId} (known : info.Known p) : info'.Known p :=
  known_iff_hasPeer.mpr (le.peers p 1 (known_iff_hasPeer.mp known))

theorem Started.congr (h : Started me info) (same : info'.peerInfos = info.peerInfos)
    (_ : info'.rawPeerInfos = info.rawPeerInfos) : Started me info' := by
  unfold Started SyncedRouteInfo.Known
  rw [same]
  exact h

theorem Started.placeholder {q : PeerId} (h : Started me info)
    (absent : info.peerInfos.lookup q = none) :
    Started me { info with peerInfos := info.peerInfos.insert q .new } := by
  obtain ⟨own, found, nonzero⟩ | placeholders := h
  · have other : me ≠ q := by
      rintro rfl
      cases absent.symm.trans found
    exact .inl ⟨own, (AList.lookup_insert_ne other).trans found, nonzero⟩
  · refine .inr fun p peerInfo found => ?_
    obtain old | ⟨-, rfl⟩ := lookup_insert_origin found
    · exact placeholders p peerInfo old
    · rfl

theorem lookup_clearExpiredPeer_infos {p : PeerId} {peerInfo : RoutePeerInfo}
    {expired : List PeerId} {networks : List ForeignNetworkRouteInfoKey} :
    (info.clearExpiredPeer expired networks).peerInfos.lookup p = some peerInfo ↔
      info.peerInfos.lookup p = some peerInfo ∧ p ∉ expired := by
  rw [ClockedInfo.clearExpiredPeer_peerInfos, Best.lookup_foldl_erase_iff, List.map_id']

end

variable {me : PeerId} {s : ClockedInfo}

/-- The update gives a placeholder a version. -/
theorem updateSelfAt_nonzero {old : TimedInfo} (me : PeerId) (routeId : Nat) (config : OwnConfig)
    (elapsedAt now : Int) (fits : old.info.version + 1 < 2 ^ 32)
    (placeholder : old.info.version = 0 → old.info = .new) :
    (updateSelfAt old me routeId config elapsedAt now).info.version ≠ 0 := by
  unfold updateSelfAt
  dsimp only
  split_ifs with same
  · have raised : ((ownInfo old me routeId config).info.version + 1) % 2 ^ 32 =
        old.info.version + 1 := Nat.mod_eq_of_lt fits
    rw [raised]
    exact Nat.succ_ne_zero _
  · intro zero
    have unchanged := not_not.mp (not_or.mp same).1
    have flag : some config.featureFlag = old.info.featureFlag :=
      congrArg (fun e => e.info.featureFlag) unchanged
    rw [placeholder zero] at flag
    cases flag

theorem Started.own (routeId : Nat) (h : Started me s.synced)
    (call : OwnCall) (allowed : KeepsOwn me s call) :
    Started me (call.apply me routeId s).synced := by
  cases call with
  | updateMyPeerInfo config elapsedAt now =>
    left
    have placeholder : ((s.entry me).getD .default).info.version = 0 →
        ((s.entry me).getD .default).info = .new := by
      cases held : s.entry me with
      | none => exact fun _ => rfl
      | some e =>
        intro zero
        obtain ⟨info, found, stamped⟩ := Option.bind_eq_some_iff.mp held
        obtain ⟨rest, -, rfl⟩ := Option.map_eq_some_iff.mp stamped
        obtain ⟨known, own, nonzero⟩ | placeholders := h
        · cases found.symm.trans own
          exact absurd zero nonzero
        · exact placeholders me info found
    have fits : ((s.entry me).getD .default).info.version + 1 < 2 ^ 32 := by
      cases held : s.entry me with
      | none => decide
      | some e => exact allowed e held
    refine ⟨_, ?_, updateSelfAt_nonzero me routeId config elapsedAt now fits placeholder⟩
    simp [OwnCall.apply, ClockedInfo.updateMyPeerInfo, SyncedRouteInfo.incVersionIf_peerInfos]
  | clearExpiredPeer now networks =>
    obtain ⟨info, found, nonzero⟩ | placeholders := h
    · have kept : me ∉ s.expiredPeers now := ClockedInfo.not_mem_expiredPeers allowed
      exact .inl ⟨info, lookup_clearExpiredPeer_infos.mpr ⟨found, kept⟩, nonzero⟩
    · exact .inr fun p info found => placeholders p info (lookup_clearExpiredPeer_infos.mp found).1

theorem Started.step (routeId : Nat) (h : Started me s.synced)
    (call : SyncCall) (allowed : KeepsStart me s call) :
    Started me (call.apply me routeId s).synced := by
  cases call with
  | updatePeerInfos dst infos raws written =>
    exact .inl (known_mono (SyncedRouteInfo.updatePeerInfos_le s.synced me routeId dst infos raws).1
      allowed)
  | updateConnMap connBitmap written =>
    exact SyncedRouteInfo.updateConnMap_preserves Started.congr Started.placeholder connBitmap h
  | updateForeignNetwork networks => exact h
  | updateMyConnInfo connected written =>
    exact SyncedRouteInfo.updateMyConnInfo_preserves Started.congr Started.placeholder
      me connected h
  | own call => exact h.own routeId call allowed

theorem SyncRun.started {routeId : Nat}
    (run : SyncRun me routeId (KeepsStart me) s) : Started me s.synced := by
  induction run with
  | start => exact .inr nofun
  | step call _ allowed ih => exact ih.step routeId call allowed

/-- **Builds stay defined.** While the own info is there when infos are received, does
not expire and its version does not wrap, every build has a start node. -/
theorem reachable_buildDefined {me : PeerId} {routeId : Nat} {s : ClockedInfo}
    (run : SyncRun me routeId (KeepsStart me) s) : BuildDefined me s.synced :=
  run.started.buildDefined

/-- The info of a peer with nothing to announce. -/
def bareInfo (peerId : PeerId) (version : Version) : RoutePeerInfo :=
  { RoutePeerInfo.new with peerId, version }

/-- A node with an info of its own receives one from peer 2. -/
def receivedAt (first now : Int) : ClockedInfo :=
  SyncCall.apply 1 7 (namedAt first)
    (.updatePeerInfos 2 [bareInfo 2 1] [⟨bareInfo 2 1, []⟩] fun _ => (TimedInfo.default.other, now))

theorem received_buildDefined :
    (receivedAt (10 ^ 18) (10 ^ 18 + 3700 * 10 ^ 9)).synced.Known 2 ∧
      BuildDefined 1 (receivedAt (10 ^ 18) (10 ^ 18 + 3700 * 10 ^ 9)).synced := by
  refine ⟨⟨bareInfo 2 1, by decide +kernel, by decide⟩, ?_⟩
  have named : SyncRun 1 7 (KeepsStart 1) (namedAt (10 ^ 18)) := by
    refine .step (.own (.updateMyPeerInfo (bareConfig "a") (10 ^ 18) (10 ^ 18))) .start ?_
    intro e held
    cases held
  have known : (namedAt (10 ^ 18)).synced.Known 1 :=
    ⟨((namedAt (10 ^ 18)).synced.peerInfos.lookup 1).get (by decide +kernel), by simp,
      by decide +kernel⟩
  exact reachable_buildDefined (.step (.updatePeerInfos 2 _ _ _) named known)

/-- The own info has expired, the one of peer 2 has not. -/
def ownExpired : ClockedInfo :=
  SyncCall.apply 1 7 (receivedAt (10 ^ 18) (10 ^ 18 + 3700 * 10 ^ 9))
    (.own (.clearExpiredPeer (10 ^ 18 + 3701 * 10 ^ 9) []))

theorem ownExpired_not_buildDefined :
    SyncRun 1 7 (fun _ _ => True) ownExpired ∧ ¬ BuildDefined 1 ownExpired.synced := by
  constructor
  · exact .step _ (.step _ (.step (.own (.updateMyPeerInfo (bareConfig "a") _ _)) .start trivial)
      trivial) trivial
  · intro built
    obtain ⟨t, run⟩ := built.returns .reference .new .leastHop fun _ _ => 1
    have none : (buildNextHopMap .reference .new 1 ownExpired.synced .leastHop
        fun _ _ => 1).isNone = true := by
      decide +kernel
    rw [run] at none
    cases none

end PeerLink.Sync
