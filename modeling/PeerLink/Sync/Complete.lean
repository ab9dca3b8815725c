import PeerLink.Sync.Convergence

/-!
# Complete connection rows

A bitmap can only tell of connections to peers that it lists. Every update of the rows
gives a row to each peer that another row mentions; removing a peer may take away a row
that others still mention, and the bitmap then tells less than the rows.
-/

namespace PeerLink.Sync

open Route Best SyncedRouteInfo

/-- Every peer that a row mentions has a row, and a row of version 0 is empty. -/
structure RowsClosed (s : SyncedRouteInfo) : Prop where
  closed : ∀ p row, s.connMap.lookup p = some row → ∀ q ∈ row.1, s.HasConn q 0
  zero : ∀ p row, s.connMap.lookup p = some row → row.2 = 0 → row.1 = ∅

section
variable {s s' : SyncedRouteInfo}

theorem rowsClosed_new : RowsClosed .new where
  closed := nofun
  zero := nofun

/-- The rule for updates that take no row away: new rows mention peers with rows. -/
theorem RowsClosed.grow (h : RowsClosed s) (le : s.Le s')
    (rows : ∀ p row, s'.connMap.lookup p = some row → s.connMap.lookup p = some row ∨
      (∀ q ∈ row.1, s'.HasConn q 0) ∧ (row.2 = 0 → row.1 = ∅)) : RowsClosed s' where
  closed p row found q hq := by
    obtain old | new := rows p row found
    · exact le.conns q 0 (h.closed p row old q hq)
    · exact new.1 q hq
  zero p row found version := by
    obtain old | new := rows p row found
    · exact h.zero p row old version
    · exact new.2 version

/-- Rows that are stored by their version: one that is not empty takes the place of another. -/
theorem RowsClosed.keeps {infos : List (PeerId × RoutePeerInfo)}
    {rows : List (PeerId × (Finset PeerId × Version))} (h : RowsClosed s)
    (keeps : Keeps s infos rows s')
    (fits : ∀ p row, (p, row) ∈ rows →
      (∀ q ∈ row.1, s'.HasConn q 0) ∧ (row.1 = ∅ ∨ s.HasConn p 0)) : RowsClosed s' := by
  apply h.grow (le_of_keeps keeps)
  intro p row found
  rw [keeps.connMap] at found
  have best := @keepAll_isBest _ _ _ _ _ rowRank s.connMap rows p
  obtain old | new := best.from_ row found
  · exact .inl old
  · obtain ⟨mentioned, empty | ⟨old, there, -⟩⟩ := fits p row new
    · exact .inr ⟨mentioned, fun _ => empty⟩
    · -- a row that is stored over another one has a version above 0
      obtain ⟨kept, here, same⟩ := best.old_le old there
      cases found.symm.trans here
      obtain rfl | newer := same
      · exact .inl there
      · exact .inr ⟨mentioned, fun zero => absurd zero (Nat.ne_zero_of_lt newer)⟩

theorem RowsClosed.fillEmptyPeerInfo (h : RowsClosed s) (ids : Finset PeerId) :
    RowsClosed (s.fillEmptyPeerInfo ids) := by
  apply h.keeps (fillEmptyPeerInfo_keeps s ids)
  intro p row mem
  obtain ⟨-, rfl⟩ := mem_placeholders.mp mem
  exact ⟨by simp, .inl rfl⟩

theorem fillEmptyPeerInfo_conn (s : SyncedRouteInfo) {ids : Finset PeerId} {p : PeerId}
    (mem : p ∈ ids) : (s.fillEmptyPeerInfo ids).HasConn p 0 :=
  held_keepAll (fillEmptyPeerInfo_keeps s ids).connMap
    (.inr ⟨(∅, 0), mem_placeholders.mpr ⟨(Finset.mem_sort _).mpr mem, rfl⟩, rfl⟩)

theorem RowsClosed.updateConnMap (h : RowsClosed s) (connBitmap : RouteConnBitmap) :
    RowsClosed (s.updateConnMap connBitmap).1 := by
  obtain ⟨need, result⟩ := updateConnMap_eq s connBitmap
  rw [result]
  have loop := (storeConns_keeps connBitmap connBitmap.peerIds 0
    (s.fillEmptyPeerInfo (connBitmap.peerIds.map (·.1)).toFinset, false)).incVersionIf need
  apply (h.fillEmptyPeerInfo _).keeps loop
  intro p row mem
  obtain ⟨stored, decoded, mem⟩ := List.mem_flatMap.mp mem
  obtain placeholder | here := List.mem_append.mp mem
  · obtain ⟨-, rfl⟩ := mem_placeholders.mp placeholder
    exact ⟨by simp, .inl rfl⟩
  · cases List.mem_singleton.mp here
    refine ⟨fun q hq => ?_, .inr (fillEmptyPeerInfo_conn s (mem_decodedRows_listed decoded))⟩
    refine held_keepAll loop.connMap
      (.inr ⟨(∅, 0), List.mem_flatMap.mpr ⟨_, decoded, List.mem_append_left _ ?_⟩, rfl⟩)
    exact mem_placeholders.mpr ⟨(Finset.mem_sort _).mpr hq, rfl⟩

theorem RowsClosed.updateMyConnInfo (h : RowsClosed s) {me : PeerId} {connected : Finset PeerId}
    (fits : s.RowFits me connected) : RowsClosed (s.updateMyConnInfo me connected).1 := by
  have le := fillEmptyPeerInfo_le_updateMyConnInfo s me connected fits
  have present : ∀ q ∈ connected, (s.updateMyConnInfo me connected).1.HasConn q 0 :=
    fun q hq => le.conns q 0 (fillEmptyPeerInfo_conn s hq)
  apply (h.fillEmptyPeerInfo connected).grow le
  intro p row found
  simp only [SyncedRouteInfo.updateMyConnInfo] at found
  split at found
  · -- the own row stays, or is the empty one
    obtain old | ⟨rfl, rfl⟩ := lookup_insert_origin found
    · exact .inl old
    · cases old : (s.fillEmptyPeerInfo connected).connMap.lookup p with
      | none => exact .inr ⟨by simp, fun _ => rfl⟩
      | some before => exact .inl rfl
  · obtain old | ⟨rfl, rfl⟩ := lookup_insert_origin found
    · exact .inl old
    · rename_i change
      rw [fillEmptyPeerInfo_ownRow] at change
      have raised := AtomicVersion.lt_inc_iff.mpr (fits change)
      rw [← fillEmptyPeerInfo_ownRow s p connected] at raised
      exact .inr ⟨present, fun zero => absurd zero (Nat.ne_zero_of_lt raised)⟩

/-- Without the peers of a set that no other row mentions, the rest is still closed. -/
theorem RowsClosed.remove (h : RowsClosed s) {gone : PeerId → Prop}
    (rows : ∀ p row, s'.connMap.lookup p = some row ↔
      s.connMap.lookup p = some row ∧ ¬ gone p)
    (unmentioned : ∀ p row, s.connMap.lookup p = some row → ¬ gone p → ∀ q ∈ row.1, ¬ gone q) :
    RowsClosed s' where
  closed p row found q hq := by
    obtain ⟨before, stays⟩ := (rows p row).mp found
    obtain ⟨row', found', le⟩ := h.closed p row before q hq
    exact ⟨row', (rows q row').mpr ⟨found', unmentioned p row before stays q hq⟩, le⟩
  zero p row found := h.zero p row ((rows p row).mp found).1

theorem lookup_removePeer (s : SyncedRouteInfo) (gone p : PeerId)
    (row : Finset PeerId × Version) :
    (s.removePeer gone).connMap.lookup p = some row ↔
      s.connMap.lookup p = some row ∧ ¬ p = gone :=
  Best.lookup_erase_iff

theorem lookup_clearExpiredPeer (s : SyncedRouteInfo) (expired : List PeerId)
    (networks : List ForeignNetworkRouteInfoKey) (p : PeerId) (row : Finset PeerId × Version) :
    (s.clearExpiredPeer expired networks).connMap.lookup p = some row ↔
      s.connMap.lookup p = some row ∧ ¬ p ∈ expired := by
  have rows : (s.clearExpiredPeer expired networks).connMap =
      expired.foldl (fun rows p => rows.erase p) s.connMap :=
    (List.foldl_hom connMap fun _ _ => rfl).symm
  rw [rows, Best.lookup_foldl_erase_iff, List.map_id']

end

/-! ## What the bitmap lists -/

section
variable {s : SyncedRouteInfo} {env : Surroundings}

variable {p : PeerId} {row : Finset PeerId × Version}

theorem mem_syncedPeerIds_iff {version : Version} :
    (p, version) ∈ Node.syncedPeerIds s.connMap env ↔
      (∃ connected, s.connMap.lookup p = some (connected, version)) ∧
        ((∃ q row, s.connMap.lookup q = some row ∧ p ∈ row.1) ∨ env.reachable p = true) := by
  have stored : ∀ q row, ⟨q, row⟩ ∈ s.connMap.entries ↔ s.connMap.lookup q = some row :=
    fun q row => AList.mem_lookup_iff.symm
  simp only [Node.syncedPeerIds, List.mem_filter, List.mem_map, List.mem_flatMap,
    Finset.mem_sort, (env.orders.connMap.perm _).mem_iff, Sigma.exists, stored,
    Prod.mk.injEq, decide_eq_true_eq]
  constructor
  · rintro ⟨⟨q, ⟨connected, v⟩, found, rfl, rfl⟩, kept⟩
    exact ⟨⟨connected, found⟩, kept⟩
  · rintro ⟨⟨connected, found⟩, kept⟩
    exact ⟨⟨p, (connected, version), found, rfl, rfl⟩, kept⟩

/-- A peer that has a row and is in another one is listed. -/
theorem RowsClosed.listed (h : RowsClosed s)
    (found : s.connMap.lookup p = some row) {q : PeerId} (hq : q ∈ row.1) :
    q ∈ (Node.syncedPeerIds s.connMap env).map (·.1) := by
  obtain ⟨⟨connected, version⟩, found', -⟩ := h.closed p row found q hq
  apply List.mem_map.mpr
  exact ⟨(q, version), mem_syncedPeerIds_iff.mpr ⟨⟨connected, found'⟩, .inl ⟨p, row, found, hq⟩⟩,
    rfl⟩

/-- The rows that a receiver decodes are the sender's. -/
theorem RowsClosed.mem_decodedRows (h : RowsClosed s) :
    (p, row) ∈ decodedRows (Node.connBitmapOf s.connMap (Node.syncedPeerIds s.connMap env))
        (Node.syncedPeerIds s.connMap env).zipIdx ↔
      (p, row.2) ∈ Node.syncedPeerIds s.connMap env ∧ s.connMap.lookup p = some row := by
  generalize ids_eq : Node.syncedPeerIds s.connMap env = ids
  have whole : ∀ {idx version connected}, ids[idx]? = some (p, version) →
      s.connMap.lookup p = some (connected, version) →
      (Node.connBitmapOf s.connMap ids).getConnectedPeers idx = some connected := by
    intro idx version connected hidx found
    rw [getConnectedPeers_connBitmapOf hidx]
    simp only [connectionsOf, found, Option.map_some, Option.getD_some, Option.some.injEq]
    apply Finset.filter_true_of_mem
    intro q hq
    rw [← ids_eq]
    exact h.listed found hq
  simp only [decodedRows, List.mem_filterMap, Option.map_eq_some_iff, Prod.exists,
    List.mk_mem_zipIdx_iff_getElem?]
  constructor
  · rintro ⟨p', version, idx, hidx, connected, decoded, same⟩
    cases same
    have mem := List.mem_of_getElem? hidx
    obtain ⟨⟨stored, found⟩, -⟩ := mem_syncedPeerIds_iff.mp (ids_eq ▸ mem)
    cases (whole hidx found).symm.trans decoded
    exact ⟨mem, found⟩
  · rintro ⟨mem, found⟩
    obtain ⟨idx, hidx⟩ := List.mem_iff_getElem?.mp mem
    exact ⟨p, row.2, idx, hidx, row.1, whole hidx found, rfl⟩

/-- Every bitmap that is built lists all peers that its rows mention, and a receiver with
an older row of a listed peer stores the sender's. -/
def Complete (s : SyncedRouteInfo) : Prop :=
  ∀ (env : Surroundings) (p : PeerId) (row : Finset PeerId × Version),
    (p, row.2) ∈ Node.syncedPeerIds s.connMap env → s.connMap.lookup p = some row →
      (∀ q ∈ row.1, q ∈ (Node.syncedPeerIds s.connMap env).map (·.1)) ∧
      ∀ receiver : SyncedRouteInfo,
        (∀ old, receiver.connMap.lookup p = some old → old.2 < row.2) →
          (receiver.updateConnMap (Node.connBitmapOf s.connMap
            (Node.syncedPeerIds s.connMap env))).1.connMap.lookup p = some row

theorem RowsClosed.complete (h : RowsClosed s) : Complete s := by
  intro env p row listed found
  refine ⟨fun q hq => h.listed found hq, fun receiver older => ?_⟩
  have best := (@Update.connMap_newest receiver id 0
    (Node.connBitmapOf s.connMap (Node.syncedPeerIds s.connMap env))).connMap p
  have sent : (p, row) ∈ decodedRows (Node.connBitmapOf s.connMap
      (Node.syncedPeerIds s.connMap env)) (Node.syncedPeerIds s.connMap env).zipIdx :=
    h.mem_decodedRows.mpr ⟨listed, found⟩
  obtain ⟨kept, stored, le⟩ := best.le row ⟨_, List.mem_singleton.mpr rfl, .inl sent⟩
  have version : row.2 ≤ kept.2 := le
  refine stored.trans (congrArg some ?_)
  obtain old | ⟨update, mem, new⟩ := best.from_ kept stored
  · exact absurd (older kept old) (not_lt.mpr version)
  · cases List.mem_singleton.mp mem
    obtain row' | ⟨-, rfl⟩ := new
    · exact Option.some.inj ((h.mem_decodedRows.mp row').2.symm.trans found)
    · -- only a row of version 0 is no better than a placeholder
      have zero : row.2 = 0 := Nat.le_zero.mp version
      exact (Prod.ext (h.zero p row found zero) zero).symm

end

/-! ## Runs -/

/-- The calls that change connection rows. -/
inductive ConnCall where
  | updateConnMap (connBitmap : RouteConnBitmap)
  | updateMyConnInfo (connectedPeers : Finset PeerId)
  | removePeer (peerId : PeerId)
  | clearExpiredPeer (expired : List PeerId) (expiredNetworks : List ForeignNetworkRouteInfoKey)

namespace ConnCall

def apply (me : PeerId) (s : SyncedRouteInfo) : ConnCall → SyncedRouteInfo
  | updateConnMap connBitmap => (s.updateConnMap connBitmap).1
  | updateMyConnInfo connectedPeers => (s.updateMyConnInfo me connectedPeers).1
  | removePeer peerId => s.removePeer peerId
  | clearExpiredPeer expired expiredNetworks => s.clearExpiredPeer expired expiredNetworks

/-- The peers that a call removes. -/
def Removes : ConnCall → PeerId → Prop
  | updateConnMap _, _ | updateMyConnInfo _, _ => False
  | removePeer peerId, p => p = peerId
  | clearExpiredPeer expired _, p => p ∈ expired

/-- No row that stays mentions a peer that the call removes. -/
def RemovesUnmentioned (s : SyncedRouteInfo) (call : ConnCall) : Prop :=
  ∀ p row, s.connMap.lookup p = some row → ¬ call.Removes p → ∀ q ∈ row.1, ¬ call.Removes q

/-- And the own row can take the change that the call makes. -/
def Safe (me : PeerId) (s : SyncedRouteInfo) (call : ConnCall) : Prop :=
  call.RemovesUnmentioned s ∧
    ∀ connectedPeers, call = updateMyConnInfo connectedPeers → s.RowFits me connectedPeers

/-- The states that node `me` reaches by calls that all meet `Allowed`. -/
inductive Run (me : PeerId) (Allowed : SyncedRouteInfo → ConnCall → Prop) :
    SyncedRouteInfo → Prop
  | new : Run me Allowed .new
  | call {s : SyncedRouteInfo} (run : Run me Allowed s) (call : ConnCall)
      (allowed : Allowed s call) : Run me Allowed (call.apply me s)

variable {me : PeerId} {s : SyncedRouteInfo}

theorem apply_rowsClosed {call : ConnCall}
    (h : RowsClosed s) (safe : call.Safe me s) :
    RowsClosed (call.apply me s) := by
  obtain ⟨unmentioned, fits⟩ := safe
  cases call with
  | updateConnMap connBitmap => exact h.updateConnMap connBitmap
  | updateMyConnInfo connectedPeers => exact h.updateMyConnInfo (fits connectedPeers rfl)
  | removePeer peerId => exact h.remove (lookup_removePeer s peerId) unmentioned
  | clearExpiredPeer expired networks =>
    exact h.remove (lookup_clearExpiredPeer s expired networks) unmentioned

theorem Run.rowsClosed (run : Run me (Safe me) s) : RowsClosed s := by
  induction run with
  | new => exact rowsClosed_new
  | call _ call allowed ih => exact apply_rowsClosed ih allowed

/-- **Complete bitmaps.** As long as no peer is removed that a remaining row mentions and the
own row's version does not wrap, every bitmap lists the peers that its rows mention, and
receivers store the sender's rows. -/
theorem bitmap_complete {me : PeerId} {s : SyncedRouteInfo} (run : Run me (Safe me) s) :
    Complete s :=
  run.rowsClosed.complete

/-! ### A neighbour whose info expires -/

/-- The route table reaches everyone. -/
def allReachable : Surroundings := ⟨⟨.stored _, .stored _, .stored _⟩, fun _ => true⟩

theorem not_complete_of_missing {p q : PeerId}
    {row : Finset PeerId × Version} (found : s.connMap.lookup p = some row) (mentions : q ∈ row.1)
    (missing : ∀ row', s.connMap.lookup q ≠ some row') : ¬ Complete s := by
  intro complete
  have listed : (p, row.2) ∈ Node.syncedPeerIds s.connMap allReachable :=
    mem_syncedPeerIds_iff.mpr ⟨⟨row.1, found⟩, .inr rfl⟩
  obtain ⟨⟨q', version⟩, mem, rfl⟩ :=
    List.mem_map.mp ((complete allReachable p row listed found).1 q mentions)
  obtain ⟨⟨connected, found'⟩, -⟩ := mem_syncedPeerIds_iff.mp mem
  exact missing _ found'

theorem updateMyConnInfo_row (s : SyncedRouteInfo) (me : PeerId) (connected : Finset PeerId) :
    ∃ version, (s.updateMyConnInfo me connected).1.connMap.lookup me =
      some (connected, version) := by
  simp only [SyncedRouteInfo.updateMyConnInfo]
  split_ifs with same
  · exact ⟨_, by rw [AList.lookup_insert, ← same]⟩
  · exact ⟨_, AList.lookup_insert _⟩

/-- Node 1 is connected to peers 2 and 3, of which it has placeholders only. -/
def twoNeighbours : SyncedRouteInfo := apply 1 .new (updateMyConnInfo {2, 3})

/-- The placeholder of peer 2 expires while the connection is there. -/
def expiredNeighbour : SyncedRouteInfo := apply 1 twoNeighbours (clearExpiredPeer [2] [])

theorem expiredNeighbour_incomplete :
    Run 1 (fun _ _ => True) expiredNeighbour ∧ ¬ Complete expiredNeighbour := by
  constructor
  · exact .call (.call .new _ trivial) _ trivial
  · obtain ⟨version, found⟩ := updateMyConnInfo_row .new 1 {2, 3}
    have stays : expiredNeighbour.connMap.lookup 1 = some ({2, 3}, version) :=
      (lookup_clearExpiredPeer _ _ _ _ _).mpr ⟨found, by decide⟩
    apply not_complete_of_missing stays (show 2 ∈ ({2, 3} : Finset PeerId) by decide)
    intro row found'
    exact absurd ((lookup_clearExpiredPeer _ _ _ _ _).mp found').2 (by decide)

/-- Node 1 was connected to peer 2, and is not any more. -/
def formerNeighbour : SyncedRouteInfo :=
  apply 1 (apply 1 .new (updateMyConnInfo {2})) (updateMyConnInfo ∅)

theorem formerNeighbour_rows (p : PeerId) (row : Finset PeerId × Version)
    (found : formerNeighbour.connMap.lookup p = some row) : row.1 = ∅ := by
  have rows : ∀ item ∈ formerNeighbour.connMap.entries, item.2.1 = ∅ := by decide +kernel
  exact rows ⟨p, row⟩ (AList.mem_lookup_iff.mp found)

theorem formerNeighbour_removed_complete :
    Complete (apply 1 formerNeighbour (clearExpiredPeer [2] [])) := by
  apply bitmap_complete (.call (.call (.call .new (updateMyConnInfo {2}) _) (updateMyConnInfo ∅) _)
    (clearExpiredPeer [2] []) _)
  · refine ⟨fun p row _ _ q _ => id, fun connected same => ?_⟩
    cases same
    exact fun _ => by decide
  · refine ⟨fun p row _ _ q _ => id, fun connected same => ?_⟩
    cases same
    exact fun _ => by decide +kernel
  · refine ⟨fun p row found _ q hq => ?_, nofun⟩
    rw [formerNeighbour_rows p row found] at hq
    simp at hq

end ConnCall

end PeerLink.Sync
