import PeerLink.Sync.Store
import Mathlib.Algebra.Group.Int.Defs

/-!
# Peer infos and the clock

The entries of `peer_infos` with the fields that the other modules leave out, among them
the time of their last update. `update_self` renews the own info with it, and
`clear_expired_peer` removes infos by their age, the own one included. A clock reading is
an argument, in nanoseconds since the Unix epoch: the clock may jump.
-/

namespace PeerLink.Sync

open Route

def UPDATE_PEER_INFO_PERIOD : Int := 3600 * 10 ^ 9

def REMOVE_DEAD_PEER_INFO_AFTER : Int := 3660 * 10 ^ 9

/-- `now.duration_since(earlier)`, an error if that is no duration. -/
def durationSince (now earlier : Int) : Option Int :=
  if earlier ≤ now then some (now - earlier) else none

structure OtherFeatureFlag where
  isPublicServer : Bool
  kcpInput : Bool
  noRelayKcp : Bool
  deriving DecidableEq

/-- The fields of a peer info that neither routing nor syncing reads. -/
structure OtherPeerInfo where
  featureFlag : Option OtherFeatureFlag
  instId : Option (BitVec 128)
  cost : Nat
  hostname : Option String
  udpStunInfo : Int
  peerlinkVersion : String
  networkLength : Nat
  quicPort : Option Nat
  deriving DecidableEq

/-- What `update_self` reads of the node's context. -/
structure OwnConfig extends OwnPeerInfo where
  otherFeatureFlag : OtherFeatureFlag
  instId : BitVec 128
  hostname : String
  udpNatType : Int
  peerlinkVersion : String
  ipv4NetworkLength : Nat
  quicProxyPort : Option Nat

/-- A whole `RoutePeerInfo`. A timestamp that is not set is only read as the epoch. -/
structure TimedInfo where
  info : RoutePeerInfo
  other : OtherPeerInfo
  lastUpdate : Int
  deriving DecidableEq

/-- `RoutePeerInfo::default` -/
def TimedInfo.default : TimedInfo where
  info := .new
  other := ⟨none, none, 0, none, 0, "", 0, none⟩
  lastUpdate := 0

/-- What the info tells other nodes. -/
def TimedInfo.content (e : TimedInfo) : RoutePeerInfo × OtherPeerInfo :=
  ({ e.info with version := 0 }, e.other)

def needUpdatePeriodically (lastUpdate elapsedAt : Int) : Bool :=
  match durationSince elapsedAt lastUpdate with
  | some d => UPDATE_PEER_INFO_PERIOD < d
  | none => true

/-- What the node is to announce, still with the version and the time of `old`. -/
def ownInfo (old : TimedInfo) (myPeerId : PeerId) (peerRouteId : Nat) (config : OwnConfig) :
    TimedInfo where
  info :=
    { peerId := myPeerId
      version := old.info.version
      featureFlag := some config.featureFlag
      peerRouteId := peerRouteId
      ipv4Addr := config.ipv4Addr
      ipv6Addr := config.ipv6Addr
      proxyCidrs := config.proxyCidrs
      groups := config.groups }
  other :=
    { featureFlag := some config.otherFeatureFlag
      instId := some config.instId
      cost := 0
      hostname := some config.hostname
      udpStunInfo := config.udpNatType
      peerlinkVersion := config.peerlinkVersion
      networkLength := if config.ipv4Addr.isSome then config.ipv4NetworkLength else 24
      quicPort := config.quicProxyPort }
  lastUpdate := old.lastUpdate

/-- `update_self`, which reads the clock for the age and once more for the new time. -/
def updateSelfAt (old : TimedInfo) (myPeerId : PeerId) (peerRouteId : Nat) (config : OwnConfig)
    (elapsedAt now : Int) : TimedInfo :=
  let new := ownInfo old myPeerId peerRouteId config
  if new ≠ old ∨ needUpdatePeriodically new.lastUpdate elapsedAt then
    { new with
      info := { new.info with version := (new.info.version + 1) % 2 ^ 32 }
      lastUpdate := now }
  else
    new

/-- The synced infos with the fields of each peer info that they leave out. -/
structure ClockedInfo where
  synced : SyncedRouteInfo
  rest : PeerMap (OtherPeerInfo × Int)

namespace ClockedInfo

def new : ClockedInfo := ⟨.new, ∅⟩

variable (s : ClockedInfo) (now : Int)

def entry (p : PeerId) : Option TimedInfo :=
  (s.synced.peerInfos.lookup p).bind fun info =>
    (s.rest.lookup p).map fun rest => ⟨info, rest.1, rest.2⟩

def updateMyPeerInfo (myPeerId : PeerId) (myPeerRouteId : Nat) (config : OwnConfig)
    (elapsedAt now : Int) : ClockedInfo :=
  let old := (s.entry myPeerId).getD .default
  let new := updateSelfAt old myPeerId myPeerRouteId config elapsedAt now
  let synced := { s.synced with peerInfos := s.synced.peerInfos.insert myPeerId new.info }
  { synced := synced.incVersionIf (new.info.version ≠ old.info.version)
    rest := s.rest.insert myPeerId (new.other, new.lastUpdate) }

/-- A time in the future is no age. -/
def Expired (lastUpdate : Int) : Prop :=
  ∃ d, durationSince now lastUpdate = some d ∧ REMOVE_DEAD_PEER_INFO_AFTER < d

theorem expired_iff {now lastUpdate : Int} :
    Expired now lastUpdate ↔ lastUpdate + REMOVE_DEAD_PEER_INFO_AFTER < now := by
  have positive : 0 < REMOVE_DEAD_PEER_INFO_AFTER := by decide
  unfold Expired durationSince
  constructor
  · rintro ⟨d, age, old⟩
    split at age
    · cases age
      omega
    · cases age
  · intro old
    exact ⟨now - lastUpdate, if_pos (by omega), by omega⟩

instance (lastUpdate : Int) : Decidable (Expired now lastUpdate) :=
  decidable_of_iff _ expired_iff.symm

def expiredPeers : List PeerId :=
  s.synced.peerInfos.keys.filter fun p =>
    match s.rest.lookup p with
    | some rest => Expired now rest.2
    | none => false

/-- `clear_expired_peer`; which foreign networks have expired is left open here. -/
def clearExpiredPeer (s : ClockedInfo) (now : Int)
    (expiredNetworks : List ForeignNetworkRouteInfoKey) : ClockedInfo where
  synced := s.synced.clearExpiredPeer (s.expiredPeers now) expiredNetworks
  rest := (s.expiredPeers now).foldl (fun rest p => rest.erase p) s.rest

end ClockedInfo

/-! ## The own entry -/

section

variable (old : TimedInfo) (me : PeerId) (routeId : Nat) (config : OwnConfig)
  (elapsedAt now : Int)

/-- The info stays as it is, or it gets the next version. -/
theorem updateSelfAt_cases :
    updateSelfAt old me routeId config elapsedAt now = old ∨
      (updateSelfAt old me routeId config elapsedAt now).info.version =
        (old.info.version + 1) % 2 ^ 32 := by
  simp only [updateSelfAt]
  split_ifs with same
  · exact .inr rfl
  · exact .inl (not_not.mp (not_or.mp same).1)

end

namespace ClockedInfo

variable {s : ClockedInfo} {me : PeerId} {now : Int}

variable {p : PeerId} {expired : List PeerId}

@[simp]
theorem entry_updateMyPeerInfo (s : ClockedInfo) (me : PeerId) (routeId : Nat)
    (config : OwnConfig) (elapsedAt now : Int) :
    (s.updateMyPeerInfo me routeId config elapsedAt now).entry me =
      some (updateSelfAt ((s.entry me).getD .default) me routeId config elapsedAt now) := by
  simp only [updateMyPeerInfo]
  generalize updateSelfAt ((s.entry me).getD .default) me routeId config elapsedAt now = new
  simp [entry]

theorem mem_expiredPeers : p ∈ s.expiredPeers now ↔
    ∃ e, s.entry p = some e ∧ Expired now e.lastUpdate := by
  simp only [expiredPeers, List.mem_filter, entry]
  constructor
  · rintro ⟨known, old⟩
    obtain ⟨info, found⟩ := Best.mem_iff_lookup.mp known
    split at old
    · rename_i rest stamped
      exact ⟨⟨info, rest.1, rest.2⟩, by simp [found, stamped], of_decide_eq_true old⟩
    · cases old
  · rintro ⟨e, found, old⟩
    obtain ⟨info, known, found⟩ := Option.bind_eq_some_iff.mp found
    obtain ⟨rest, stamped, rfl⟩ := Option.map_eq_some_iff.mp found
    refine ⟨Best.mem_iff_lookup.mpr ⟨_, known⟩, ?_⟩
    rw [stamped]
    exact decide_eq_true old

theorem not_mem_expiredPeers
    (fresh : ∀ e, s.entry p = some e → ¬ Expired now e.lastUpdate) : p ∉ s.expiredPeers now := by
  intro expired
  obtain ⟨e, held, old⟩ := mem_expiredPeers.mp expired
  exact fresh e held old

theorem lookup_foldl_erase {α : Type} (kept : p ∉ expired) (rest : PeerMap α) :
    (expired.foldl (fun rest q => rest.erase q) rest).lookup p = rest.lookup p := by
  ext
  simp [Best.lookup_foldl_erase_iff, kept]

theorem clearExpiredPeer_peerInfos (s : SyncedRouteInfo)
    (networks : List ForeignNetworkRouteInfoKey) :
    (s.clearExpiredPeer expired networks).peerInfos =
      expired.foldl (fun rest q => rest.erase q) s.peerInfos :=
  (List.foldl_hom SyncedRouteInfo.peerInfos fun _ _ => rfl).symm

theorem entry_clearExpiredPeer (networks : List ForeignNetworkRouteInfoKey)
    (kept : p ∉ s.expiredPeers now) :
    (s.clearExpiredPeer now networks).entry p = s.entry p := by
  simp only [entry, clearExpiredPeer]
  rw [lookup_foldl_erase kept, clearExpiredPeer_peerInfos, lookup_foldl_erase kept]

end ClockedInfo

/-! ## The own version over time -/

/-- A call that touches the own info, with its clock readings. -/
inductive OwnCall where
  | updateMyPeerInfo (config : OwnConfig) (elapsedAt now : Int)
  | clearExpiredPeer (now : Int) (expiredNetworks : List ForeignNetworkRouteInfoKey)

def OwnCall.apply (me : PeerId) (routeId : Nat) (s : ClockedInfo) : OwnCall → ClockedInfo
  | .updateMyPeerInfo config elapsedAt now =>
    s.updateMyPeerInfo me routeId config elapsedAt now
  | .clearExpiredPeer now networks => s.clearExpiredPeer now networks

/-- Calls, each of them allowed where it is made, lead from one state to a later one. -/
inductive OwnRun (me : PeerId) (routeId : Nat) (Allowed : ClockedInfo → OwnCall → Prop)
    (start : ClockedInfo) : ClockedInfo → Prop where
  | start : OwnRun me routeId Allowed start start
  | step {s : ClockedInfo} (call : OwnCall) : OwnRun me routeId Allowed start s →
      Allowed s call → OwnRun me routeId Allowed start (call.apply me routeId s)

/-- The own info is not dropped for its age, and its version has not come to its end. -/
def KeepsOwn (me : PeerId) (s : ClockedInfo) : OwnCall → Prop
  | .updateMyPeerInfo .. => ∀ e, s.entry me = some e → e.info.version + 1 < 2 ^ 32
  | .clearExpiredPeer now _ => ∀ e, s.entry me = some e → ¬ ClockedInfo.Expired now e.lastUpdate

/-- One call leaves the own info alone or raises its version. -/
theorem OwnCall.apply_own {me : PeerId} (routeId : Nat) {s : ClockedInfo} (call : OwnCall)
    (allowed : KeepsOwn me s call) {e : TimedInfo} (held : s.entry me = some e) :
    ∃ e', (call.apply me routeId s).entry me = some e' ∧
      (e' = e ∨ e.info.version < e'.info.version) := by
  cases call with
  | updateMyPeerInfo config elapsedAt now =>
    refine ⟨_, ClockedInfo.entry_updateMyPeerInfo s me routeId config elapsedAt now, ?_⟩
    rw [held]
    refine (updateSelfAt_cases e me routeId config elapsedAt now).imp_right fun raised => ?_
    have fits : e.info.version + 1 < 2 ^ 32 := allowed e held
    rw [Option.getD_some, raised, Nat.mod_eq_of_lt fits]
    exact Nat.lt_succ_self _
  | clearExpiredPeer now networks =>
    have kept : me ∉ s.expiredPeers now := ClockedInfo.not_mem_expiredPeers allowed
    exact ⟨e, (ClockedInfo.entry_clearExpiredPeer networks kept).trans held, .inl rfl⟩

theorem OwnRun.own {me : PeerId} {routeId : Nat} {start s : ClockedInfo}
    (run : OwnRun me routeId (KeepsOwn me) start s) {e : TimedInfo}
    (held : start.entry me = some e) :
    ∃ e', s.entry me = some e' ∧ (e' = e ∨ e.info.version < e'.info.version) := by
  induction run with
  | start => exact ⟨e, held, .inl rfl⟩
  | step call _ allowed ih =>
    obtain ⟨e₁, held₁, since⟩ := ih
    obtain ⟨e₂, held₂, raised⟩ := call.apply_own routeId allowed held₁
    refine ⟨e₂, held₂, ?_⟩
    obtain rfl | raised := raised
    · exact since
    · obtain rfl | since := since
      · exact .inr raised
      · exact .inr (since.trans raised)

/-- **The own version only moves forward.** While the own info does not expire and its
version does not wrap, every later state of a run has the same or a larger version of it, and
a larger one if it announces something else. -/
theorem own_version_monotone {me : PeerId} {routeId : Nat} {s later : ClockedInfo}
    (since : OwnRun me routeId (KeepsOwn me) s later) {e e' : TimedInfo}
    (held : s.entry me = some e) (held' : later.entry me = some e') :
    e.info.version ≤ e'.info.version ∧
      (e'.content ≠ e.content → e.info.version < e'.info.version) := by
  obtain ⟨e'', found, moved⟩ := since.own held
  obtain rfl := Option.some.inj (found.symm.trans held')
  obtain rfl | raised := moved
  · exact ⟨le_rfl, fun changed => absurd rfl changed⟩
  · exact ⟨raised.le, fun _ => raised⟩

/-- A node without addresses. -/
def bareConfig (hostname : String) : OwnConfig where
  featureFlag := ⟨false⟩
  ipv4Addr := none
  ipv6Addr := none
  proxyCidrs := []
  groups := []
  otherFeatureFlag := ⟨false, false, false⟩
  instId := 0
  hostname := hostname
  udpNatType := 0
  peerlinkVersion := ""
  ipv4NetworkLength := 24
  quicProxyPort := none

/-- The first info of a node. -/
def namedAt (first : Int) : ClockedInfo :=
  ClockedInfo.new.updateMyPeerInfo 1 7 (bareConfig "a") first first

/-- Another host name, one second later. -/
def renamedAt (first : Int) : ClockedInfo :=
  (namedAt first).updateMyPeerInfo 1 7 (bareConfig "b") (first + 10 ^ 9) (first + 10 ^ 9)

theorem own_version_monotone_renamed :
    ∃ e e', (namedAt (10 ^ 18)).entry 1 = some e ∧ (renamedAt (10 ^ 18)).entry 1 = some e' ∧
      e'.content ≠ e.content ∧ e.info.version ≤ e'.info.version ∧
        (e'.content ≠ e.content → e.info.version < e'.info.version) := by
  have since : OwnRun 1 7 (KeepsOwn 1) (namedAt (10 ^ 18)) (renamedAt (10 ^ 18)) := by
    refine .step (.updateMyPeerInfo (bareConfig "b") (10 ^ 18 + 10 ^ 9) (10 ^ 18 + 10 ^ 9))
      .start ?_
    intro e held
    rw [namedAt, ClockedInfo.entry_updateMyPeerInfo] at held
    cases held
    decide +kernel
  refine ⟨_, _, ClockedInfo.entry_updateMyPeerInfo .., ClockedInfo.entry_updateMyPeerInfo ..,
    by decide +kernel, ?_⟩
  exact own_version_monotone since (ClockedInfo.entry_updateMyPeerInfo ..)
    (ClockedInfo.entry_updateMyPeerInfo ..)

/-- After 3661 s without an update the own info is dropped, and the next update starts
again at version 1. -/
theorem own_version_restarts :
    OwnRun 1 7 (fun _ _ => True) .new (renamedAt (10 ^ 18)) ∧
      ∃ later, OwnRun 1 7 (fun _ _ => True) (renamedAt (10 ^ 18)) later ∧
        ((renamedAt (10 ^ 18)).entry 1).map (·.info.version) = some 2 ∧
        (later.entry 1).map (·.info.version) = some 1 := by
  constructor
  · exact .step (.updateMyPeerInfo (bareConfig "b") _ _)
      (.step (.updateMyPeerInfo (bareConfig "a") _ _) .start trivial) trivial
  · refine ⟨_, .step (.updateMyPeerInfo (bareConfig "b") (10 ^ 18 + 3663 * 10 ^ 9)
      (10 ^ 18 + 3663 * 10 ^ 9)) (.step (.clearExpiredPeer (10 ^ 18 + 3662 * 10 ^ 9) [])
        .start trivial) trivial, ?_, ?_⟩
    · decide +kernel
    · decide +kernel

end PeerLink.Sync
