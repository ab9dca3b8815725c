import PeerLink.Best.Keep
import PeerLink.Sync.Session

/-!
# Storing what peers announce

The update functions of `SyncedRouteInfo`. A fault leaves what was stored before
it in place. Every update but `remove_peer` only ever raises versions
(`SyncedRouteInfo.Le`), as long as they do not wrap, and none of them stores a raw info that
is newer than the typed one (`SyncedRouteInfo.Filed`).
-/

namespace PeerLink.Route.SyncedRouteInfo

open Sync

/-! ## The update functions -/

variable (s : SyncedRouteInfo) (myPeerId : PeerId) (myPeerRouteId : Nat)

def removePeer (peerId : PeerId) : SyncedRouteInfo where
  peerInfos := s.peerInfos.erase peerId
  rawPeerInfos := s.rawPeerInfos.erase peerId
  connMap := s.connMap.erase peerId
  foreignNetwork := s.foreignNetwork.keys.foldl (fun kept key =>
    if key.peerId = peerId then kept.erase key else kept) s.foreignNetwork
  version := AtomicVersion.inc s.version

/-- `clear_expired_peer`; which peers and foreign networks have expired is left open. -/
def clearExpiredPeer (expired : List PeerId) (expiredNetworks : List ForeignNetworkRouteInfoKey) :
    SyncedRouteInfo :=
  let s := expired.foldl removePeer s
  { s with
    foreignNetwork := expiredNetworks.foldl (fun kept key => kept.erase key) s.foreignNetwork }

/-- One round of `fill_empty_peer_info`, with `need_inc_version`. -/
def fillEmptyPeer (st : SyncedRouteInfo × Bool) (peerId : PeerId) : SyncedRouteInfo × Bool :=
  let (s, needIncVersion) := st
  let newPeer := (s.peerInfos.lookup peerId).isNone
  let newConn := (s.connMap.lookup peerId).isNone
  ({ s with
      peerInfos := if newPeer then s.peerInfos.insert peerId .new else s.peerInfos
      connMap := if newConn then s.connMap.insert peerId (∅, 0) else s.connMap },
    needIncVersion || newPeer || newConn)

def incVersionIf (needIncVersion : Bool) : SyncedRouteInfo :=
  if needIncVersion then { s with version := AtomicVersion.inc s.version } else s

@[simp]
theorem incVersionIf_peerInfos (need : Bool) :
    (s.incVersionIf need).peerInfos = s.peerInfos := by
  unfold incVersionIf
  split <;> rfl

def fillEmptyPeerInfo (peerIds : Finset PeerId) : SyncedRouteInfo :=
  let (s, needIncVersion) := (peerIds.sort (· ≤ ·)).foldl fillEmptyPeer (s, false)
  incVersionIf s needIncVersion

def checkDuplicatePeerId (dstPeerId : PeerId) (dstPeerRouteId : Option Nat) (info : RoutePeerInfo) :
    Option Fault :=
  if info.peerId = myPeerId then
    if info.peerRouteId ≠ myPeerRouteId ∧
        s.getPeerInfoVersionWithDefault info.peerId < info.version then
      some .panicked
    else
      none
  else if info.peerId = dstPeerId then
    match dstPeerRouteId with
    | none => none
    | some dstPeerRouteId =>
      if dstPeerRouteId ≠ info.peerRouteId ∧
          info.version < s.getPeerInfoVersionWithDefault info.peerId then
        some (.error .duplicatePeerId)
      else
        none
  else
    none

def putPeerInfo (info : RoutePeerInfo) (raw : RawPeerInfo) : SyncedRouteInfo :=
  { s with
    peerInfos := s.peerInfos.insert info.peerId info
    rawPeerInfos := s.rawPeerInfos.insert info.peerId raw }

/-- `entry(..).and_modify(..).or_insert_with(..)`: only a newer info is stored. -/
def storePeerInfo (info : RoutePeerInfo) (raw : RawPeerInfo) (needIncVersion : Bool) :
    SyncedRouteInfo × Bool :=
  match s.peerInfos.lookup info.peerId with
  | some old =>
    if old.version < info.version then (putPeerInfo s info raw, true) else (s, needIncVersion)
  | none => (putPeerInfo s info raw, true)

/-- The loop of `update_peer_infos` over the typed and the raw infos. -/
def storePeerInfos (myPeerId : PeerId) (myPeerRouteId : Nat) (dstPeerId : PeerId) :
    List RoutePeerInfo → List RawPeerInfo → SyncedRouteInfo × Bool →
      (SyncedRouteInfo × Bool) × Option Fault
  | [], _, st => (st, none)
  | _ :: _, [], st => (st, some .panicked)
  | info :: infos, raw :: raws, (s, needIncVersion) =>
    let dstPeerRouteId :=
      if info.peerId = dstPeerId then (s.peerInfos.lookup dstPeerId).map (·.peerRouteId) else none
    match checkDuplicatePeerId s myPeerId myPeerRouteId dstPeerId dstPeerRouteId info with
    | some fault => ((s, needIncVersion), some fault)
    | none =>
      if raw.known.peerId ≠ info.peerId then
        ((s, needIncVersion), some .panicked)
      else
        storePeerInfos myPeerId myPeerRouteId dstPeerId infos raws
          (storePeerInfo s info raw needIncVersion)

/-- A fault returns before the version is raised. -/
def updatePeerInfos (dstPeerId : PeerId) (peerInfos : List RoutePeerInfo)
    (rawPeerInfos : List RawPeerInfo) : SyncedRouteInfo × Option Fault :=
  match storePeerInfos myPeerId myPeerRouteId dstPeerId peerInfos rawPeerInfos (s, false) with
  | ((s, _), some fault) => (s, some fault)
  | ((s, needIncVersion), none) => (incVersionIf s needIncVersion, none)

def storeConn (peerId : PeerId) (version : Version) (connectedPeers : Finset PeerId)
    (needIncVersion : Bool) : SyncedRouteInfo × Bool :=
  match s.connMap.lookup peerId with
  | some old =>
    if old.2 < version then
      ({ s with connMap := s.connMap.insert peerId (connectedPeers, version) }, true)
    else
      (s, needIncVersion)
  | none => ({ s with connMap := s.connMap.insert peerId (connectedPeers, version) }, true)

/-- The loop of `update_conn_map` over the rows and their positions. -/
def storeConns (connBitmap : RouteConnBitmap) :
    List ((PeerId × Version) × Nat) → SyncedRouteInfo × Bool →
      (SyncedRouteInfo × Bool) × Option Fault
  | [], st => (st, none)
  | ((peerId, version), peerIdx) :: rest, (s, needIncVersion) =>
    match connBitmap.getConnectedPeers peerIdx with
    | none => ((s, needIncVersion), some .panicked)
    | some connectedPeers =>
      storeConns connBitmap rest
        (storeConn (fillEmptyPeerInfo s connectedPeers) peerId version connectedPeers
          needIncVersion)

def updateConnMap (connBitmap : RouteConnBitmap) : SyncedRouteInfo × Option Fault :=
  let s := fillEmptyPeerInfo s (connBitmap.peerIds.map (·.1)).toFinset
  match storeConns connBitmap connBitmap.peerIds.zipIdx (s, false) with
  | ((s, _), some fault) => (s, some fault)
  | ((s, needIncVersion), none) => (incVersionIf s needIncVersion, none)

def storeForeignNetwork (stored : ForeignNetworkMap ForeignNetworkRouteInfoEntry)
    (item : ForeignNetworkInfo) : ForeignNetworkMap ForeignNetworkRouteInfoEntry :=
  match item.key, item.value with
  | some key, some entry =>
    match stored.lookup key with
    | some old => if old.version < entry.version then stored.insert key entry else stored
    | none => stored.insert key entry
  | _, _ => stored

def updateForeignNetwork (foreignNetwork : List ForeignNetworkInfo) : SyncedRouteInfo :=
  { s with foreignNetwork := foreignNetwork.foldl storeForeignNetwork s.foreignNetwork }

/-- `update_self` with the node's own data. `otherChange` says that a field left
out of the model differs, or that the hourly renewal is due. -/
def updateSelf (old : RoutePeerInfo) (myPeerId : PeerId) (peerRouteId : Nat)
    (own : OwnPeerInfo) (otherChange : Bool) : RoutePeerInfo :=
  let new : RoutePeerInfo :=
    { peerId := myPeerId
      version := old.version
      featureFlag := some own.featureFlag
      peerRouteId := peerRouteId
      ipv4Addr := own.ipv4Addr
      ipv6Addr := own.ipv6Addr
      proxyCidrs := own.proxyCidrs
      groups := own.groups }
  if new ≠ old ∨ otherChange then { new with version := (new.version + 1) % 2 ^ 32 } else new

def updateMyPeerInfo (own : OwnPeerInfo) (otherChange : Bool) : SyncedRouteInfo × Bool :=
  let old := (s.peerInfos.lookup myPeerId).getD .new
  let new := updateSelf old myPeerId myPeerRouteId own otherChange
  let changed := new.version ≠ old.version
  (incVersionIf { s with peerInfos := s.peerInfos.insert myPeerId new } changed, changed)

def updateMyConnInfo (connectedPeers : Finset PeerId) : SyncedRouteInfo × Bool :=
  let s := fillEmptyPeerInfo s connectedPeers
  let (connected, version) := (s.connMap.lookup myPeerId).getD (∅, 0)
  if connectedPeers = connected then
    ({ s with connMap := s.connMap.insert myPeerId (connected, version) }, false)
  else
    ({ s with
        connMap := s.connMap.insert myPeerId (connectedPeers, AtomicVersion.inc version)
        version := AtomicVersion.inc s.version }, true)

/-! ## The loops decide what is stored -/

variable (dstPeerId : PeerId) (infos : List RoutePeerInfo) (raws : List RawPeerInfo)
  (connBitmap : RouteConnBitmap)

theorem updatePeerInfos_eq : ∃ need, s.updatePeerInfos myPeerId myPeerRouteId dstPeerId infos raws =
    let result := storePeerInfos myPeerId myPeerRouteId dstPeerId infos raws (s, false)
    (incVersionIf result.1.1 need, result.2) := by
  unfold updatePeerInfos
  split
  · rename_i result
    exact ⟨false, by rw [result]; rfl⟩
  · rename_i need result
    exact ⟨need, by rw [result]⟩

theorem updatePeerInfos_snd :
    (s.updatePeerInfos myPeerId myPeerRouteId dstPeerId infos raws).2 =
      (storePeerInfos myPeerId myPeerRouteId dstPeerId infos raws (s, false)).2 := by
  obtain ⟨need, result⟩ := updatePeerInfos_eq s myPeerId myPeerRouteId dstPeerId infos raws
  rw [result]

theorem updateConnMap_eq : ∃ need, s.updateConnMap connBitmap =
    let result := storeConns connBitmap connBitmap.peerIds.zipIdx
      (s.fillEmptyPeerInfo (connBitmap.peerIds.map (·.1)).toFinset, false)
    (incVersionIf result.1.1 need, result.2) := by
  simp only [updateConnMap]
  split
  · rename_i result
    exact ⟨false, by rw [result]; rfl⟩
  · rename_i need result
    exact ⟨need, by rw [result]⟩

variable (p : PeerId) (version : Version) (connected : Finset PeerId) (info : RoutePeerInfo)
  (raw : RawPeerInfo) (need : Bool)

/-- An info is stored and noted if it is newer than what is there; else nothing happens. -/
theorem storePeerInfo_cases :
    (∀ old, s.peerInfos.lookup info.peerId = some old → old.version < info.version) ∧
        s.storePeerInfo info raw need = (s.putPeerInfo info raw, true) ∨
      ∃ old, s.peerInfos.lookup info.peerId = some old ∧ info.version ≤ old.version ∧
        s.storePeerInfo info raw need = (s, need) := by
  unfold storePeerInfo
  cases found : s.peerInfos.lookup info.peerId with
  | none => exact .inl ⟨nofun, rfl⟩
  | some old =>
    dsimp only
    split_ifs with newer
    · refine .inl ⟨?_, rfl⟩
      rintro _ ⟨⟩
      exact newer
    · exact .inr ⟨old, rfl, not_lt.mp newer, rfl⟩

/-- The same for a row. -/
theorem storeConn_cases :
    (∀ old, s.connMap.lookup p = some old → old.2 < version) ∧
        s.storeConn p version connected need =
          ({ s with connMap := s.connMap.insert p (connected, version) }, true) ∨
      ∃ old, s.connMap.lookup p = some old ∧ version ≤ old.2 ∧
        s.storeConn p version connected need = (s, need) := by
  unfold storeConn
  cases found : s.connMap.lookup p with
  | none => exact .inl ⟨nofun, rfl⟩
  | some old =>
    dsimp only
    split_ifs with newer
    · refine .inl ⟨?_, rfl⟩
      rintro _ ⟨⟩
      exact newer
    · exact .inr ⟨old, rfl, not_lt.mp newer, rfl⟩

end PeerLink.Route.SyncedRouteInfo

namespace PeerLink.Sync

open Route Best SyncedRouteInfo

/-! ## The store keeps the latest version -/

/-- A later version is better. -/
def infoRank (info : RoutePeerInfo) : Versionᵒᵈ := OrderDual.toDual info.version

def rowRank (row : Finset PeerId × Version) : Versionᵒᵈ := OrderDual.toDual row.2

def placeholders {V : Type} (v : V) (ids : List PeerId) : List (PeerId × V) :=
  ids.map fun p => (p, v)

@[simp] theorem mem_placeholders {V : Type} {v w : V} {ids : List PeerId} {p : PeerId} :
    (p, w) ∈ placeholders v ids ↔ p ∈ ids ∧ w = v := by
  simp [placeholders, eq_comm]

/-- What an update does to the infos and the rows. -/
structure Keeps (s : SyncedRouteInfo) (infos : List (PeerId × RoutePeerInfo))
    (rows : List (PeerId × (Finset PeerId × Version))) (s' : SyncedRouteInfo) : Prop where
  peerInfos : s'.peerInfos = keepAll infoRank s.peerInfos infos
  connMap : s'.connMap = keepAll rowRank s.connMap rows

section
variable {s s' s'' : SyncedRouteInfo} {infos infos' : List (PeerId × RoutePeerInfo)}
  {rows rows' : List (PeerId × (Finset PeerId × Version))}

theorem Keeps.refl (s : SyncedRouteInfo) : Keeps s [] [] s := ⟨rfl, rfl⟩

theorem Keeps.trans (first : Keeps s infos rows s') (second : Keeps s' infos' rows' s'') :
    Keeps s (infos ++ infos') (rows ++ rows') s'' where
  peerInfos := by rw [keepAll_append, ← first.peerInfos, second.peerInfos]
  connMap := by rw [keepAll_append, ← first.connMap, second.connMap]

/-- Raising the version touches neither map. -/
theorem Keeps.incVersionIf (keeps : Keeps s infos rows s') (need : Bool) :
    Keeps s infos rows (s'.incVersionIf need) := by
  unfold SyncedRouteInfo.incVersionIf
  split
  · exact ⟨keeps.peerInfos, keeps.connMap⟩
  · exact keeps

theorem fillEmptyPeer_keeps (st : SyncedRouteInfo × Bool) (p : PeerId) :
    Keeps st.1 [(p, .new)] [(p, (∅, 0))] (fillEmptyPeer st p).1 where
  peerInfos := (keep_worst fun old => Nat.zero_le old.version).symm
  connMap := (keep_worst fun old => Nat.zero_le old.2).symm

theorem fillEmptyPeers_keeps (ids : List PeerId) (st : SyncedRouteInfo × Bool) :
    Keeps st.1 (placeholders .new ids) (placeholders (∅, 0) ids)
      (ids.foldl fillEmptyPeer st).1 := by
  induction ids generalizing st with
  | nil => exact .refl st.1
  | cons p rest ih => exact (fillEmptyPeer_keeps st p).trans (ih (fillEmptyPeer st p))

theorem fillEmptyPeerInfo_keeps (s : SyncedRouteInfo) (ids : Finset PeerId) :
    Keeps s (placeholders .new (ids.sort (· ≤ ·))) (placeholders (∅, 0) (ids.sort (· ≤ ·)))
      (s.fillEmptyPeerInfo ids) :=
  (fillEmptyPeers_keeps (ids.sort (· ≤ ·)) (s, false)).incVersionIf _

theorem storePeerInfo_keeps (s : SyncedRouteInfo) (info : RoutePeerInfo) (raw : RawPeerInfo)
    (need : Bool) : Keeps s [(info.peerId, info)] [] (s.storePeerInfo info raw need).1 := by
  obtain ⟨newer, stored⟩ | ⟨old, found, older, kept⟩ := s.storePeerInfo_cases info raw need
  · rw [stored]
    exact ⟨(keep_better newer).symm, rfl⟩
  · rw [kept]
    exact ⟨(keep_worse found older).symm, rfl⟩

theorem storeConn_keeps (s : SyncedRouteInfo) (p : PeerId) (version : Version)
    (connected : Finset PeerId) (need : Bool) :
    Keeps s [] [(p, (connected, version))] (s.storeConn p version connected need).1 := by
  obtain ⟨newer, stored⟩ | ⟨old, found, older, kept⟩ := s.storeConn_cases p version connected need
  · rw [stored]
    exact ⟨rfl, (keep_better newer).symm⟩
  · rw [kept]
    exact ⟨rfl, (keep_worse found older).symm⟩

end

end PeerLink.Sync

namespace PeerLink.Route.SyncedRouteInfo

open Best Sync

/-! ## Versions only grow -/

def HasPeer (s : SyncedRouteInfo) (p : PeerId) (version : Version) : Prop :=
  ∃ info, s.peerInfos.lookup p = some info ∧ version ≤ info.version

def HasConn (s : SyncedRouteInfo) (p : PeerId) (version : Version) : Prop :=
  ∃ row, s.connMap.lookup p = some row ∧ version ≤ row.2

/-- Whatever version was stored, at least that version is stored. -/
structure Le (s s' : SyncedRouteInfo) : Prop where
  peers : ∀ p version, s.HasPeer p version → s'.HasPeer p version
  conns : ∀ p version, s.HasConn p version → s'.HasConn p version

section
variable {s s' s'' : SyncedRouteInfo} {q p : PeerId} {version : Version}

theorem Le.refl (s : SyncedRouteInfo) : s.Le s := ⟨fun _ _ => id, fun _ _ => id⟩

theorem Le.trans (h : s.Le s') (h' : s'.Le s'') : s.Le s'' :=
  ⟨fun p version held => h'.peers p version (h.peers p version held),
    fun p version held => h'.conns p version (h.conns p version held)⟩

/-- A newer value in the place of an older one. -/
theorem held_insert {V : Type} {rank : V → Version} {m m' : AList fun _ : PeerId => V} {new : V}
    (grows : ∀ old, m.lookup q = some old → rank old ≤ rank new) (stored : m' = m.insert q new)
    (held : ∃ old, m.lookup p = some old ∧ version ≤ rank old) :
    ∃ old, m'.lookup p = some old ∧ version ≤ rank old := by
  obtain ⟨old, found, le⟩ := held
  rw [stored]
  by_cases here : p = q
  · subst here
    exact ⟨new, AList.lookup_insert _, le.trans (grows old found)⟩
  · exact ⟨old, (AList.lookup_insert_ne here).trans found, le⟩

/-- The newest value is held, of what was there and what came. -/
theorem held_keepAll {V : Type} {rank : V → Version} {m m' : AList fun _ : PeerId => V}
    {items : List (PeerId × V)}
    (stored : m' = keepAll (fun v => OrderDual.toDual (rank v)) m items)
    (held : (∃ old, m.lookup p = some old ∧ version ≤ rank old) ∨
      ∃ v, (p, v) ∈ items ∧ version = rank v) :
    ∃ old, m'.lookup p = some old ∧ version ≤ rank old := by
  have best := @keepAll_isBest _ _ _ _ _ (fun v => OrderDual.toDual (rank v)) m items p
  rw [stored]
  obtain ⟨old, found, le⟩ | ⟨v, mem, rfl⟩ := held
  · obtain ⟨kept, here, rfl | newer⟩ := best.old_le old found
    · exact ⟨kept, here, le⟩
    · exact ⟨kept, here, le.trans (OrderDual.toDual_lt_toDual.mp newer).le⟩
  · obtain ⟨kept, here, newer⟩ := best.le v mem
    exact ⟨kept, here, OrderDual.toDual_le_toDual.mp newer⟩

theorem le_of_keeps {infos : List (PeerId × RoutePeerInfo)}
    {rows : List (PeerId × (Finset PeerId × Version))} (keeps : Keeps s infos rows s') : s.Le s' :=
  ⟨fun _ _ held => held_keepAll keeps.peerInfos (.inl held),
    fun _ _ held => held_keepAll keeps.connMap (.inl held)⟩

variable (s) (myPeerId : PeerId) (myPeerRouteId : Nat) (dstPeerId : PeerId)
  (infos : List RoutePeerInfo) (raws : List RawPeerInfo) (connBitmap : RouteConnBitmap) (p)
  (version) (connected : Finset PeerId) (info : RoutePeerInfo) (raw : RawPeerInfo) (need : Bool)
  (st : SyncedRouteInfo × Bool)

theorem incVersionIf_le : s.Le (s.incVersionIf need) := by
  unfold incVersionIf
  split
  · exact ⟨fun _ _ => id, fun _ _ => id⟩
  · exact .refl s

theorem fillEmptyPeerInfo_le (ids : Finset PeerId) : s.Le (s.fillEmptyPeerInfo ids) :=
  le_of_keeps (fillEmptyPeerInfo_keeps s ids)

theorem storePeerInfo_le :
    s.Le (s.storePeerInfo info raw need).1 ∧
      (s.storePeerInfo info raw need).1.HasPeer info.peerId info.version := by
  have keeps := storePeerInfo_keeps s info raw need
  exact ⟨le_of_keeps keeps,
    held_keepAll keeps.peerInfos (.inr ⟨info, List.mem_singleton_self _, rfl⟩)⟩

theorem storePeerInfos_le :
    let result := storePeerInfos myPeerId myPeerRouteId dstPeerId infos raws st
    st.1.Le result.1.1 ∧
      (result.2 = none → ∀ info ∈ infos, result.1.1.HasPeer info.peerId info.version) := by
  induction infos generalizing raws st with
  | nil => exact ⟨.refl _, by simp⟩
  | cons info infos ih =>
    cases raws with
    | nil => exact ⟨.refl _, by simp [storePeerInfos]⟩
    | cons raw raws =>
      obtain ⟨s, need⟩ := st
      simp only [storePeerInfos]
      split
      · exact ⟨.refl _, by simp⟩
      · split
        · exact ⟨.refl _, by simp⟩
        · obtain ⟨le, held⟩ := storePeerInfo_le s info raw need
          obtain ⟨le', rest⟩ := ih raws (s.storePeerInfo info raw need)
          refine ⟨le.trans le', fun ok other hother => ?_⟩
          obtain rfl | hother := List.mem_cons.mp hother
          · exact le'.peers _ _ held
          · exact rest ok other hother

/-- After an update that returned, every announced version is stored. -/
theorem updatePeerInfos_le :
    let result := s.updatePeerInfos myPeerId myPeerRouteId dstPeerId infos raws
    s.Le result.1 ∧
      (result.2 = none → ∀ info ∈ infos, result.1.HasPeer info.peerId info.version) := by
  obtain ⟨le, held⟩ := storePeerInfos_le myPeerId myPeerRouteId dstPeerId infos raws (s, false)
  obtain ⟨need, result⟩ := updatePeerInfos_eq s myPeerId myPeerRouteId dstPeerId infos raws
  rw [result]
  refine ⟨le.trans (incVersionIf_le _ _), fun ok info hinfo => ?_⟩
  exact (incVersionIf_le _ _).peers _ _ (held ok info hinfo)

theorem storeConn_le :
    s.Le (s.storeConn p version connected need).1 ∧
      (s.storeConn p version connected need).1.HasConn p version := by
  have keeps := storeConn_keeps s p version connected need
  exact ⟨le_of_keeps keeps,
    held_keepAll keeps.connMap (.inr ⟨(connected, version), List.mem_singleton_self _, rfl⟩)⟩

theorem storeConns_le (rows : List ((PeerId × Version) × Nat)) (st : SyncedRouteInfo × Bool) :
    let result := storeConns connBitmap rows st
    st.1.Le result.1.1 ∧
      (result.2 = none → ∀ row ∈ rows, result.1.1.HasConn row.1.1 row.1.2) := by
  induction rows generalizing st with
  | nil => exact ⟨.refl _, by simp⟩
  | cons row rest ih =>
    obtain ⟨⟨p, version⟩, idx⟩ := row
    obtain ⟨s, need⟩ := st
    simp only [storeConns]
    split
    · exact ⟨.refl _, by simp⟩
    · rename_i connected _
      obtain ⟨le, held⟩ :=
        storeConn_le (s.fillEmptyPeerInfo connected) p version connected need
      obtain ⟨le', later⟩ := ih (storeConn (s.fillEmptyPeerInfo connected) p version connected need)
      refine ⟨((fillEmptyPeerInfo_le s connected).trans le).trans le', fun ok other hother => ?_⟩
      obtain rfl | hother := List.mem_cons.mp hother
      · exact le'.conns _ _ held
      · exact later ok other hother

theorem updateConnMap_le :
    let result := s.updateConnMap connBitmap
    s.Le result.1 ∧
      (result.2 = none → ∀ row ∈ connBitmap.peerIds, result.1.HasConn row.1 row.2) := by
  have filled := fillEmptyPeerInfo_le s (connBitmap.peerIds.map (·.1)).toFinset
  obtain ⟨le, held⟩ := storeConns_le connBitmap connBitmap.peerIds.zipIdx
    (s.fillEmptyPeerInfo (connBitmap.peerIds.map (·.1)).toFinset, false)
  obtain ⟨need, result⟩ := updateConnMap_eq s connBitmap
  rw [result]
  refine ⟨(filled.trans le).trans (incVersionIf_le _ _), fun ok row hrow => ?_⟩
  obtain ⟨idx, hidx⟩ := List.mem_iff_getElem?.mp hrow
  have indexed := List.mk_mem_zipIdx_iff_getElem?.mpr hidx
  exact (incVersionIf_le _ _).conns _ _ (held ok _ indexed)

theorem updateForeignNetwork_le (items : List ForeignNetworkInfo) :
    s.Le (s.updateForeignNetwork items) :=
  ⟨fun _ _ => id, fun _ _ => id⟩

/-- The placeholders leave the own row as it was, an absent one being the empty one. -/
theorem fillEmptyPeerInfo_ownRow :
    ((s.fillEmptyPeerInfo connected).connMap.lookup myPeerId).getD (∅, 0) =
      (s.connMap.lookup myPeerId).getD (∅, 0) := by
  rw [(fillEmptyPeerInfo_keeps s connected).connMap]
  have best := @keepAll_isBest _ _ _ _ _ rowRank s.connMap
    (placeholders (∅, 0) (connected.sort (· ≤ ·))) myPeerId
  cases old : s.connMap.lookup myPeerId with
  | none =>
    cases now : (keepAll rowRank s.connMap _).lookup myPeerId with
    | none => rfl
    | some row =>
      obtain before | new := best.from_ row now
      · simp [old] at before
      · exact (mem_placeholders.mp new).2
  | some row =>
    obtain ⟨kept, now, rfl | newer⟩ := best.old_le row old
    · rw [now]
    · -- nothing is older than a placeholder
      obtain before | new := best.from_ kept now
      · rw [now, ← before, old]
      · cases (mem_placeholders.mp new).2
        exact absurd (OrderDual.toDual_lt_toDual.mp newer) (Nat.not_lt_zero _)

/-- The own row can take a change: its version does not wrap. -/
def RowFits : Prop :=
  let row := (s.connMap.lookup myPeerId).getD (∅, 0)
  connected ≠ row.1 → row.2 + 1 < 2 ^ 32
  deriving Decidable

/-- After the placeholders, only the own row changes. -/
theorem fillEmptyPeerInfo_le_updateMyConnInfo (fits : s.RowFits myPeerId connected) :
    (s.fillEmptyPeerInfo connected).Le (s.updateMyConnInfo myPeerId connected).1 := by
  unfold RowFits at fits
  rw [← fillEmptyPeerInfo_ownRow s myPeerId connected] at fits
  simp only [updateMyConnInfo]
  generalize s.fillEmptyPeerInfo connected = filled at fits
  split
  · refine ⟨fun _ _ => id, fun _ _ => held_insert (fun old found => ?_) rfl⟩
    rw [found]
    exact le_rfl
  · rename_i change
    refine ⟨fun _ _ => id, fun _ _ => held_insert (fun old found => ?_) rfl⟩
    rw [found] at fits change ⊢
    exact (AtomicVersion.lt_inc_iff.mpr (fits change)).le

theorem updateMyConnInfo_le (fits : s.RowFits myPeerId connected) :
    s.Le (s.updateMyConnInfo myPeerId connected).1 :=
  (fillEmptyPeerInfo_le s connected).trans
    (fillEmptyPeerInfo_le_updateMyConnInfo s myPeerId connected fits)

end

/-! ## What single entries keep, the updates keep -/

section
variable {P : SyncedRouteInfo → Prop} {s : SyncedRouteInfo}
  (reads : ∀ {s s'}, P s → s'.peerInfos = s.peerInfos → s'.rawPeerInfos = s.rawPeerInfos → P s')
include reads

theorem incVersionIf_preserves {need : Bool} (h : P s) : P (s.incVersionIf need) := by
  unfold incVersionIf
  split
  · exact reads h rfl rfl
  · exact h

omit reads in
/-- The typed infos of a message are the known parts of its raw infos. -/
theorem storePeerInfos_preserves (myPeerId : PeerId) (myPeerRouteId : Nat) (dstPeerId : PeerId)
    {raws : List RawPeerInfo} (put : ∀ s, ∀ raw ∈ raws, P s → P (s.putPeerInfo raw.known raw))
    (st : SyncedRouteInfo × Bool) (h : P st.1) :
    P (storePeerInfos myPeerId myPeerRouteId dstPeerId (raws.map (·.known)) raws st).1.1 := by
  induction raws generalizing st with
  | nil => exact h
  | cons raw rest ih =>
    obtain ⟨here, there⟩ := List.forall_mem_cons.mp fun r mem s => put s r mem
    obtain ⟨s, need⟩ := st
    simp only [List.map_cons, storePeerInfos]
    split
    · exact h
    · rw [if_neg (not_not.mpr rfl)]
      apply ih fun s r mem => there r mem s
      obtain ⟨-, stored⟩ | ⟨-, -, -, kept⟩ := s.storePeerInfo_cases raw.known raw need
      · rw [stored]
        exact here s h
      · rw [kept]
        exact h

theorem updatePeerInfos_preserves (myPeerId : PeerId) (myPeerRouteId : Nat) (dstPeerId : PeerId)
    {raws : List RawPeerInfo} (put : ∀ s, ∀ raw ∈ raws, P s → P (s.putPeerInfo raw.known raw))
    (h : P s) :
    P (s.updatePeerInfos myPeerId myPeerRouteId dstPeerId (raws.map (·.known)) raws).1 := by
  obtain ⟨need, result⟩ := updatePeerInfos_eq s myPeerId myPeerRouteId dstPeerId
    (raws.map (·.known)) raws
  rw [result]
  exact incVersionIf_preserves reads
    (storePeerInfos_preserves myPeerId myPeerRouteId dstPeerId put (s, false) h)

variable (fill : ∀ {s q}, P s → s.peerInfos.lookup q = none →
  P { s with peerInfos := s.peerInfos.insert q .new })
include fill

theorem fillEmptyPeerInfo_preserves (ids : Finset PeerId) (h : P s) :
    P (s.fillEmptyPeerInfo ids) := by
  have filled := List.foldlRecOn (motive := fun st => P st.1) (ids.sort (· ≤ ·)) fillEmptyPeer
    (b := (s, false)) h
  apply incVersionIf_preserves reads (filled _)
  rintro ⟨s, need⟩ h q -
  cases found : s.peerInfos.lookup q with
  | some old => exact reads h (by simp [fillEmptyPeer, found]) rfl
  | none => exact reads (fill h found) (by simp [fillEmptyPeer, found]) rfl

theorem storeConns_preserves (connBitmap : RouteConnBitmap)
    (rows : List ((PeerId × Version) × Nat)) (st : SyncedRouteInfo × Bool) (h : P st.1) :
    P (storeConns connBitmap rows st).1.1 := by
  induction rows generalizing st with
  | nil => exact h
  | cons row rest ih =>
    obtain ⟨s, need⟩ := st
    simp only [storeConns]
    split
    · exact h
    · apply ih
      have filled := fillEmptyPeerInfo_preserves reads fill ‹_› h
      obtain ⟨-, stored⟩ | ⟨-, -, -, kept⟩ := storeConn_cases _ row.1.1 row.1.2 _ need
      · rw [stored]
        exact reads filled rfl rfl
      · rw [kept]
        exact filled

theorem updateConnMap_preserves (connBitmap : RouteConnBitmap) (h : P s) :
    P (s.updateConnMap connBitmap).1 := by
  obtain ⟨need, result⟩ := updateConnMap_eq s connBitmap
  rw [result]
  exact incVersionIf_preserves reads (storeConns_preserves reads fill connBitmap _ _
    (fillEmptyPeerInfo_preserves reads fill _ h))

theorem updateMyConnInfo_preserves (myPeerId : PeerId) (connected : Finset PeerId) (h : P s) :
    P (s.updateMyConnInfo myPeerId connected).1 := by
  have filled := fillEmptyPeerInfo_preserves reads fill connected h
  simp only [updateMyConnInfo]
  split <;> exact reads filled rfl rfl

end

theorem updateSelf_peerId (old : RoutePeerInfo) (me : PeerId) (routeId : Nat) (own : OwnPeerInfo)
    (otherChange : Bool) : (updateSelf old me routeId own otherChange).peerId = me := by
  unfold updateSelf
  simp only
  split <;> rfl

/-! ## Raw infos are no newer than the typed ones -/

/-- Stored infos are filed under their own peer, and so are their raw forms, at a version that
is stored. -/
structure Filed (s : SyncedRouteInfo) : Prop where
  keyed : ∀ p info, s.peerInfos.lookup p = some info → info.version ≠ 0 → info.peerId = p
  raw : ∀ p raw, s.rawPeerInfos.lookup p = some raw →
    raw.known.peerId = p ∧ s.HasPeer p raw.known.version

variable {s s' : SyncedRouteInfo}

theorem Filed.congr (h : s.Filed) (typed : s'.peerInfos = s.peerInfos)
    (raws : s'.rawPeerInfos = s.rawPeerInfos) : s'.Filed := by
  constructor
  · rw [typed]
    exact h.keyed
  · unfold HasPeer
    rw [typed, raws]
    exact h.raw

/-- An info that is no older than the one before it is put under its own peer. -/
theorem Filed.insert (h : s.Filed) {q : PeerId} {info : RoutePeerInfo}
    (named : info.version ≠ 0 → info.peerId = q)
    (newer : ∀ old, s.peerInfos.lookup q = some old → old.version ≤ info.version) :
    { s with peerInfos := s.peerInfos.insert q info }.Filed := by
  constructor
  · intro p other found nonzero
    obtain old | ⟨rfl, rfl⟩ := Best.lookup_insert_origin found
    · exact h.keyed p other old nonzero
    · exact named nonzero
  · intro p raw found
    exact ⟨(h.raw p raw found).1, held_insert newer rfl (h.raw p raw found).2⟩

theorem Filed.placeholder {q : PeerId} (h : s.Filed) (found : s.peerInfos.lookup q = none) :
    { s with peerInfos := s.peerInfos.insert q .new }.Filed :=
  h.insert (fun nonzero => absurd rfl nonzero) fun _ old => by cases found.symm.trans old

theorem Filed.putPeerInfo (h : s.Filed) (raw : RawPeerInfo) :
    (s.putPeerInfo raw.known raw).Filed := by
  constructor
  · intro p info found nonzero
    obtain old | ⟨rfl, rfl⟩ := Best.lookup_insert_origin found
    · exact h.keyed p info old nonzero
    · rfl
  · intro p found hp
    by_cases here : p = raw.known.peerId
    · subst here
      rw [← Option.some.inj ((AList.lookup_insert _).symm.trans hp)]
      exact ⟨rfl, raw.known, AList.lookup_insert _, le_rfl⟩
    · obtain ⟨name, info, stored, le⟩ :=
        h.raw p found ((AList.lookup_insert_ne here).symm.trans hp)
      exact ⟨name, info, (AList.lookup_insert_ne here).trans stored, le⟩

theorem updateSelf_version (old : RoutePeerInfo) (me : PeerId) (routeId : Nat) (own : OwnPeerInfo)
    (otherChange : Bool) (fits : old.version + 1 < 2 ^ 32) :
    old.version ≤ (updateSelf old me routeId own otherChange).version := by
  unfold updateSelf
  simp only
  split
  · exact (AtomicVersion.lt_inc_iff.mpr fits).le
  · exact le_rfl

theorem updateMyPeerInfo_le (me : PeerId) (routeId : Nat) (own : OwnPeerInfo)
    (otherChange : Bool)
    (fits : ∀ old, s.peerInfos.lookup me = some old → old.version + 1 < 2 ^ 32) :
    s.Le (s.updateMyPeerInfo me routeId own otherChange).1 ∧
      (s.Filed → (s.updateMyPeerInfo me routeId own otherChange).1.Filed) := by
  have newer old (found : s.peerInfos.lookup me = some old) : old.version ≤
      (updateSelf ((s.peerInfos.lookup me).getD .new) me routeId own otherChange).version := by
    rw [found]
    exact updateSelf_version old me routeId own otherChange (fits old found)
  have put : s.Le { s with peerInfos := s.peerInfos.insert me _ } :=
    ⟨fun _ _ => held_insert newer rfl, fun _ _ => id⟩
  refine ⟨put.trans (incVersionIf_le _ _), fun filed => ?_⟩
  exact incVersionIf_preserves Filed.congr (filed.insert (fun _ => updateSelf_peerId ..) newer)

theorem new_filed : SyncedRouteInfo.new.Filed := by
  constructor <;> simp [SyncedRouteInfo.new]

end PeerLink.Route.SyncedRouteInfo
