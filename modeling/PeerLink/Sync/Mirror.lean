import PeerLink.Sync.Node

/-!
# Raw infos mirror the typed ones

An info is stored twice, as the message that came and as what was decoded from it. The
two are written side by side, so that for every other peer the raw info is the message of
the typed one, and a typed info is forwarded as the message that it came in.
-/

namespace PeerLink.Sync

open Route Route.SyncedRouteInfo

/-- For every peer but `me`: an info with a version has a raw form, and every raw form is
the one of the stored info. -/
structure Mirrored (me : PeerId) (s : SyncedRouteInfo) : Prop where
  keyed : ∀ p info, s.peerInfos.lookup p = some info → info.version ≠ 0 → info.peerId = p
  raws : ∀ p info, p ≠ me → s.peerInfos.lookup p = some info → info.version ≠ 0 →
    ∃ raw, s.rawPeerInfos.lookup p = some raw
  typed : ∀ p raw, p ≠ me → s.rawPeerInfos.lookup p = some raw →
    raw.known.peerId = p ∧ s.peerInfos.lookup p = some raw.known

section

variable {s s' : SyncedRouteInfo} {me : PeerId}

theorem Mirrored.congr (h : Mirrored me s) (typed : s'.peerInfos = s.peerInfos)
    (raws : s'.rawPeerInfos = s.rawPeerInfos) : Mirrored me s' := by
  constructor
  · rw [typed]
    exact h.keyed
  · rw [typed, raws]
    exact h.raws
  · rw [typed, raws]
    exact h.typed

/-- A placeholder is written only where nothing is stored. -/
theorem Mirrored.placeholder {q : PeerId} (h : Mirrored me s)
    (found : s.peerInfos.lookup q = none) :
    Mirrored me { s with peerInfos := s.peerInfos.insert q .new } := by
  have old : ∀ p info, (s.peerInfos.insert q .new).lookup p = some info → info.version ≠ 0 →
      s.peerInfos.lookup p = some info := by
    intro p info stored nonzero
    obtain stored | ⟨-, rfl⟩ := Best.lookup_insert_origin stored
    · exact stored
    · exact absurd rfl nonzero
  constructor
  · exact fun p info stored nonzero => h.keyed p info (old p info stored nonzero) nonzero
  · exact fun p info other stored nonzero =>
      h.raws p info other (old p info stored nonzero) nonzero
  · intro p raw other stored
    obtain ⟨named, typed⟩ := h.typed p raw other stored
    have elsewhere : p ≠ q := by
      rintro rfl
      cases found.symm.trans typed
    exact ⟨named, (AList.lookup_insert_ne elsewhere).trans typed⟩

variable (h : Mirrored me s)
include h

theorem Mirrored.putPeerInfo (raw : RawPeerInfo) : Mirrored me (s.putPeerInfo raw.known raw) := by
  constructor
  · intro p info stored nonzero
    obtain stored | ⟨rfl, rfl⟩ := Best.lookup_insert_origin stored
    · exact h.keyed p info stored nonzero
    · rfl
  · intro p info other stored nonzero
    by_cases here : p = raw.known.peerId
    · subst here
      exact ⟨raw, AList.lookup_insert _⟩
    · obtain ⟨found, kept⟩ :=
        h.raws p info other ((AList.lookup_insert_ne here).symm.trans stored) nonzero
      exact ⟨found, (AList.lookup_insert_ne here).trans kept⟩
  · intro p found other stored
    by_cases here : p = raw.known.peerId
    · subst here
      cases (AList.lookup_insert _).symm.trans stored
      exact ⟨rfl, AList.lookup_insert _⟩
    · obtain ⟨named, typed⟩ := h.typed p found other
        ((AList.lookup_insert_ne here).symm.trans stored)
      exact ⟨named, (AList.lookup_insert_ne here).trans typed⟩

theorem Mirrored.removePeer (q : PeerId) : Mirrored me (s.removePeer q) := by
  constructor
  · exact fun p info stored => h.keyed p info (Best.lookup_erase_origin stored)
  · intro p info other stored nonzero
    obtain ⟨stored, kept⟩ := Best.lookup_erase_iff.mp stored
    obtain ⟨raw, found⟩ := h.raws p info other stored nonzero
    exact ⟨raw, (AList.lookup_erase_ne kept).trans found⟩
  · intro p raw other stored
    obtain ⟨stored, kept⟩ := Best.lookup_erase_iff.mp stored
    obtain ⟨named, typed⟩ := h.typed p raw other stored
    exact ⟨named, (AList.lookup_erase_ne kept).trans typed⟩

theorem Mirrored.clearExpiredPeer (expired : List PeerId)
    (networks : List ForeignNetworkRouteInfoKey) :
    Mirrored me (s.clearExpiredPeer expired networks) := by
  have loop : Mirrored me (expired.foldl SyncedRouteInfo.removePeer s) := by
    induction expired generalizing s with
    | nil => exact h
    | cons q rest ih => exact ih (h.removePeer q)
  exact loop.congr rfl rfl

theorem Mirrored.updatePeerInfos (routeId : Nat) (dst : PeerId) (raws : List RawPeerInfo) :
    Mirrored me (s.updatePeerInfos me routeId dst (raws.map (·.known)) raws).1 :=
  updatePeerInfos_preserves Mirrored.congr me routeId dst (fun _ raw _ h => h.putPeerInfo raw) h

theorem Mirrored.updateConnMap (connBitmap : RouteConnBitmap) :
    Mirrored me (s.updateConnMap connBitmap).1 :=
  updateConnMap_preserves Mirrored.congr Mirrored.placeholder connBitmap h

/-- The own info is written without a raw form. -/
theorem Mirrored.updateMyPeerInfo (routeId : Nat) (own : OwnPeerInfo) (otherChange : Bool) :
    Mirrored me (s.updateMyPeerInfo me routeId own otherChange).1 := by
  refine incVersionIf_preserves Mirrored.congr ⟨?_, ?_, ?_⟩
  · intro p info stored nonzero
    obtain stored | ⟨rfl, rfl⟩ := Best.lookup_insert_origin stored
    · exact h.keyed p info stored nonzero
    · exact updateSelf_peerId ..
  · exact fun p info other stored =>
      h.raws p info other ((AList.lookup_insert_ne other).symm.trans stored)
  · intro p raw other stored
    obtain ⟨name, typed⟩ := h.typed p raw other stored
    exact ⟨name, (AList.lookup_insert_ne other).trans typed⟩

theorem Mirrored.updateMyConnInfo (connected : Finset PeerId) :
    Mirrored me (s.updateMyConnInfo me connected).1 :=
  updateMyConnInfo_preserves Mirrored.congr Mirrored.placeholder me connected h

end

/-! ## Over every sequence of updates -/

/-- What node `me` can hold. The typed infos of a message are decoded from its raw ones. -/
inductive InfoRun (me : PeerId) (routeId : Nat) : SyncedRouteInfo → Prop where
  | start : InfoRun me routeId .new
  | updatePeerInfos {s : SyncedRouteInfo} (dst : PeerId) (raws : List RawPeerInfo) :
      InfoRun me routeId s →
      InfoRun me routeId (s.updatePeerInfos me routeId dst (raws.map (·.known)) raws).1
  | updateConnMap {s : SyncedRouteInfo} (connBitmap : RouteConnBitmap) :
      InfoRun me routeId s → InfoRun me routeId (s.updateConnMap connBitmap).1
  | removePeer {s : SyncedRouteInfo} (p : PeerId) :
      InfoRun me routeId s → InfoRun me routeId (s.removePeer p)
  | clearExpiredPeer {s : SyncedRouteInfo} (expired : List PeerId)
      (networks : List ForeignNetworkRouteInfoKey) :
      InfoRun me routeId s → InfoRun me routeId (s.clearExpiredPeer expired networks)
  | updateMyPeerInfo {s : SyncedRouteInfo} (own : OwnPeerInfo) (otherChange : Bool) :
      InfoRun me routeId s → InfoRun me routeId (s.updateMyPeerInfo me routeId own otherChange).1
  | updateMyConnInfo {s : SyncedRouteInfo} (connected : Finset PeerId) :
      InfoRun me routeId s → InfoRun me routeId (s.updateMyConnInfo me connected).1

theorem InfoRun.mirrored {me : PeerId} {routeId : Nat} {s : SyncedRouteInfo}
    (run : InfoRun me routeId s) : Mirrored me s := by
  induction run with
  | start => constructor <;> simp [SyncedRouteInfo.new]
  | updatePeerInfos dst raws _ ih => exact ih.updatePeerInfos routeId dst raws
  | updateConnMap connBitmap _ ih => exact ih.updateConnMap connBitmap
  | removePeer p _ ih => exact ih.removePeer p
  | clearExpiredPeer expired networks _ ih => exact ih.clearExpiredPeer expired networks
  | updateMyPeerInfo own otherChange _ ih => exact ih.updateMyPeerInfo routeId own otherChange
  | updateMyConnInfo connected _ ih => exact ih.updateMyConnInfo connected

/-- A selected info has a version, and is the stored one of its peer. -/
theorem Mirrored.selected {node : Node} {session : SyncRouteSession} {env : Surroundings}
    (h : Mirrored node.myPeerId node.syncedRouteInfo) {infos : List RoutePeerInfo}
    (built : node.buildRouteInfo session env = some infos) {info : RoutePeerInfo}
    (mem : info ∈ infos) :
    info.version ≠ 0 ∧ node.syncedRouteInfo.peerInfos.lookup info.peerId = some info := by
  obtain ⟨nonzero, p, stored⟩ := Node.mem_buildRouteInfo built mem
  rw [h.keyed p info stored nonzero]
  exact ⟨nonzero, stored⟩

/-- **Infos are forwarded as they came.** In whatever order a node is updated, an info of
another peer that has a version has a raw form, every raw form is the one of the stored
info, and a selected info is sent as its own raw form. -/
theorem forwarded_raw_infos_agree {me : PeerId} {routeId : Nat} {s : SyncedRouteInfo}
    (run : InfoRun me routeId s) :
    (∀ p info, p ≠ me → s.peerInfos.lookup p = some info → 0 < info.version →
      ∃ raw, s.rawPeerInfos.lookup p = some raw) ∧
    (∀ p raw, p ≠ me → s.rawPeerInfos.lookup p = some raw →
      ∃ info, s.peerInfos.lookup p = some info ∧ raw.known.peerId = p ∧ info.peerId = p ∧
        raw.known.version = info.version) ∧
    ∀ (node : Node) session env infos, node.myPeerId = me → node.syncedRouteInfo = s →
      node.buildRouteInfo session env = some infos →
      ∀ (i : Nat) info, infos[i]? = some info → info.peerId ≠ me →
        ∃ raw, (node.rawPeerInfosOf infos)[i]? = some raw ∧
          s.rawPeerInfos.lookup info.peerId = some raw ∧ raw.known = info := by
  have mirrored := run.mirrored
  refine ⟨?_, ?_, ?_⟩
  · exact fun p info other stored positive => mirrored.raws p info other stored positive.ne'
  · intro p raw other stored
    obtain ⟨named, typed⟩ := mirrored.typed p raw other stored
    exact ⟨raw.known, typed, named, named, rfl⟩
  · rintro node session env infos rfl rfl built i info here other
    obtain ⟨nonzero, stored⟩ := mirrored.selected built (List.mem_of_getElem? here)
    obtain ⟨raw, found⟩ := mirrored.raws info.peerId info other stored nonzero
    obtain ⟨-, typed⟩ := mirrored.typed info.peerId raw other found
    refine ⟨raw, ?_, found, Option.some.inj (typed.symm.trans stored)⟩
    rw [Node.rawPeerInfosOf, List.getElem?_map, here, Option.map_some, found, Option.getD_some]

/-- A message about peer 2 with a field that the node does not know. -/
def relayedRaw : RawPeerInfo := ⟨{ RoutePeerInfo.new with peerId := 2, version := 4 }, [9]⟩

/-- The message, and then a row that mentions peer 3. -/
def relayedInfos : SyncedRouteInfo :=
  ((SyncedRouteInfo.new.updatePeerInfos 1 7 2 ([relayedRaw].map (·.known))
    [relayedRaw]).1.updateConnMap ⟨[(3, 1)], [0]⟩).1

theorem relayedInfos_agree :
    relayedInfos.rawPeerInfos.lookup 2 = some relayedRaw ∧
      relayedInfos.peerInfos.lookup 3 = some .new ∧
      ∀ p info, p ≠ 1 → relayedInfos.peerInfos.lookup p = some info → 0 < info.version →
        ∃ raw, relayedInfos.rawPeerInfos.lookup p = some raw := by
  have run : InfoRun 1 7 relayedInfos :=
    .updateConnMap ⟨[(3, 1)], [0]⟩ (.updatePeerInfos 2 [relayedRaw] .start)
  exact ⟨by decide +kernel, by decide +kernel, (forwarded_raw_infos_agree run).1⟩

end PeerLink.Sync
