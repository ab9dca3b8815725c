import PeerLink.Sync.Bitmap

/-!
# Order does not matter

Peer infos and connection rows are kept by version: `update_peer_infos`,
`update_conn_map` and the placeholders of `fill_empty_peer_info` are all `Best.keep`
with the later version as the better one. So a set of updates leaves the same infos and
rows whatever their order and however often each arrives.
-/

namespace PeerLink.Sync

open Route Best SyncedRouteInfo

theorem placeholders_append_flatMap {V α : Type} (v : V) (ids : List PeerId) (f : α → List PeerId)
    (rows : List α) :
    placeholders v ids ++ rows.flatMap (fun row => placeholders v (f row)) =
      placeholders v (ids ++ rows.flatMap f) := by
  simp [placeholders, List.map_flatMap]

theorem mem_flatMap_snoc {α : Type} {f : α → List α} {rows : List α} {x : α} :
    x ∈ rows.flatMap (fun row => f row ++ [row]) ↔ x ∈ rows.flatMap f ∨ x ∈ rows := by
  simp [and_or_left, exists_or]

/-! ## Rows of a bitmap -/

/-- The rows that can be decoded. -/
def decodedRows (connBitmap : RouteConnBitmap) (rows : List ((PeerId × Version) × Nat)) :
    List (PeerId × (Finset PeerId × Version)) :=
  rows.filterMap fun row =>
    (connBitmap.getConnectedPeers row.2).map fun connected => (row.1.1, (connected, row.1.2))

theorem mem_decodedRows_listed {connBitmap : RouteConnBitmap}
    {row : PeerId × (Finset PeerId × Version)}
    (mem : row ∈ decodedRows connBitmap connBitmap.peerIds.zipIdx) :
    row.1 ∈ (connBitmap.peerIds.map (·.1)).toFinset := by
  obtain ⟨item, listed, decoded⟩ := List.mem_filterMap.mp mem
  obtain ⟨connected, -, rfl⟩ := Option.map_eq_some_iff.mp decoded
  exact List.mem_toFinset.mpr (List.mem_map_of_mem (List.fst_mem_of_mem_zipIdx listed))

/-- The loop stops at the first row that it cannot decode, and there is none to decode
after it. -/
theorem storeConns_keeps (connBitmap : RouteConnBitmap) (ids : List (PeerId × Version))
    (first : Nat) (st : SyncedRouteInfo × Bool) :
    let rows := decodedRows connBitmap (ids.zipIdx first)
    Keeps st.1 (rows.flatMap fun row => placeholders .new (row.2.1.sort (· ≤ ·)))
      (rows.flatMap fun row => placeholders (∅, 0) (row.2.1.sort (· ≤ ·)) ++ [row])
      (storeConns connBitmap (ids.zipIdx first) st).1.1 := by
  induction ids generalizing first st with
  | nil => exact .refl st.1
  | cons id rest ih =>
    obtain ⟨s, need⟩ := st
    cases decoded : connBitmap.getConnectedPeers first with
    | none =>
      have none : decodedRows connBitmap ((id :: rest).zipIdx first) = [] := by
        apply List.filterMap_eq_nil_iff.mpr
        intro row mem
        rw [getConnectedPeers_none_mono decoded (List.le_snd_of_mem_zipIdx mem)]
        rfl
      have stops : storeConns connBitmap ((id :: rest).zipIdx first) (s, need) =
          ((s, need), some .panicked) := by
        simp [List.zipIdx_cons, storeConns, decoded]
      rw [none, stops]
      exact .refl s
    | some connected =>
      have step := (fillEmptyPeerInfo_keeps s connected).trans
        (storeConn_keeps (s.fillEmptyPeerInfo connected) id.1 id.2 connected need)
      have run := step.trans (ih (first + 1) _)
      simpa [List.zipIdx_cons, storeConns, decodedRows, decoded] using run

/-! ## Batches of infos that agree on the route ids -/

/-- Infos that are not placeholders carry the route id of their peer. -/
def RouteIds (routeIdOf : PeerId → Nat) (peerInfos : PeerMap RoutePeerInfo) : Prop :=
  ∀ p info, peerInfos.lookup p = some info → info.version ≠ 0 → info.peerRouteId = routeIdOf p

variable {s s' s'' : SyncedRouteInfo} {routeIdOf : PeerId → Nat}

theorem RouteIds.keeps {infos : List (PeerId × RoutePeerInfo)}
    {rows : List (PeerId × (Finset PeerId × Version))} (ids : RouteIds routeIdOf s.peerInfos)
    (keeps : Keeps s infos rows s')
    (sent : ∀ item ∈ infos, item.2.version ≠ 0 → item.2.peerRouteId = routeIdOf item.1) :
    RouteIds routeIdOf s'.peerInfos := by
  intro p info found nonzero
  rw [keeps.peerInfos] at found
  cases (keepAll_isBest s.peerInfos infos p).from_ info found with
  | inl old => exact ids p info old nonzero
  | inr new => exact sent (p, info) new nonzero

theorem checkDuplicatePeerId_none (ids : RouteIds routeIdOf s.peerInfos) (me dst : PeerId)
    {info : RoutePeerInfo} (route : info.peerRouteId = routeIdOf info.peerId) :
    s.checkDuplicatePeerId me (routeIdOf me) dst
      (if info.peerId = dst then (s.peerInfos.lookup dst).map (·.peerRouteId) else none) info =
        none := by
  unfold checkDuplicatePeerId
  by_cases mine : info.peerId = me
  · simp [mine, route]
  · by_cases sender : info.peerId = dst
    · subst sender
      cases found : s.peerInfos.lookup info.peerId with
      | none => simp [mine]
      | some old =>
        have same : info.version < old.version → old.peerRouteId = info.peerRouteId := by
          intro older
          rw [route]
          exact ids _ _ found (Nat.ne_zero_of_lt older)
        simp only [mine, ↓reduceIte, Option.map_some, getPeerInfoVersionWithDefault, found,
          Option.getD_some]
        rw [if_neg]
        rintro ⟨differ, older⟩
        exact differ (same older)
    · simp [mine, sender]

def keyed (infos : List RoutePeerInfo) : List (PeerId × RoutePeerInfo) :=
  infos.map fun info => (info.peerId, info)

@[simp] theorem mem_keyed {infos : List RoutePeerInfo} {p : PeerId} {info : RoutePeerInfo} :
    (p, info) ∈ keyed infos ↔ info ∈ infos ∧ info.peerId = p := by
  simp [keyed, and_comm]

theorem storePeerInfos_keeps (me dst : PeerId) (raws : List RawPeerInfo)
    (route : ∀ raw ∈ raws, raw.known.peerRouteId = routeIdOf raw.known.peerId)
    (st : SyncedRouteInfo × Bool) (ids : RouteIds routeIdOf st.1.peerInfos) :
    let result := storePeerInfos me (routeIdOf me) dst (raws.map (·.known)) raws st
    Keeps st.1 (keyed (raws.map (·.known))) [] result.1.1 ∧ result.2 = none := by
  induction raws generalizing st with
  | nil => exact ⟨.refl st.1, rfl⟩
  | cons raw rest ih =>
    obtain ⟨s, need⟩ := st
    have passes := checkDuplicatePeerId_none ids me dst (route raw (by simp))
    have step := storePeerInfo_keeps s raw.known raw need
    have ids' : RouteIds routeIdOf (s.storePeerInfo raw.known raw need).1.peerInfos := by
      apply ids.keeps step
      intro item mem _
      rw [List.mem_singleton.mp mem]
      exact route raw (by simp)
    obtain ⟨run, returns⟩ := ih (fun other mem => route other (by simp [mem])) _ ids'
    simp only [List.map_cons, storePeerInfos, passes, ne_eq, not_true_eq_false, ↓reduceIte]
    exact ⟨step.trans run, returns⟩

/-! ## Updates in any order -/

/-- A batch of infos, as `do_sync_route_info` hands it on, or a connection bitmap. -/
inductive Update where
  | peerInfos (dstPeerId : PeerId) (raws : List RawPeerInfo)
  | connMap (connBitmap : RouteConnBitmap)

namespace Update

def apply (me : PeerId) (routeId : Nat) (s : SyncedRouteInfo) : Update → SyncedRouteInfo
  | peerInfos dst raws => (s.updatePeerInfos me routeId dst (raws.map (·.known)) raws).1
  | connMap connBitmap => (s.updateConnMap connBitmap).1

/-- A panic in one update does not keep the next one from being applied. -/
def applyAll (me : PeerId) (routeId : Nat) (s : SyncedRouteInfo) (updates : List Update) :
    SyncedRouteInfo :=
  updates.foldl (fun s update => update.apply me routeId s) s

def infos : Update → List RoutePeerInfo
  | peerInfos _ raws => raws.map (·.known)
  | connMap _ => []

def rows : Update → List (PeerId × (Finset PeerId × Version))
  | peerInfos _ _ => []
  | connMap connBitmap => decodedRows connBitmap connBitmap.peerIds.zipIdx

/-- The peers that get a placeholder unless they are known. -/
def mentioned : Update → List PeerId
  | peerInfos _ _ => []
  | connMap connBitmap =>
    ((connBitmap.peerIds.map (·.1)).toFinset.sort (· ≤ ·)) ++
      (decodedRows connBitmap connBitmap.peerIds.zipIdx).flatMap fun row =>
        row.2.1.sort (· ≤ ·)

/-- The infos of `p` that the updates bring, and the placeholder if they mention it. -/
def infosOf (updates : List Update) (p : PeerId) : Set RoutePeerInfo :=
  {info | ∃ update ∈ updates,
    info ∈ update.infos ∧ info.peerId = p ∨ p ∈ update.mentioned ∧ info = .new}

def rowsOf (updates : List Update) (p : PeerId) : Set (Finset PeerId × Version) :=
  {row | ∃ update ∈ updates, (p, row) ∈ update.rows ∨ p ∈ update.mentioned ∧ row = (∅, 0)}

/-- What is stored of each peer is what was there or came with the updates, whichever has
the highest version. -/
structure Newest (old : SyncedRouteInfo) (updates : List Update) (s : SyncedRouteInfo) :
    Prop where
  peerInfos : ∀ p,
    IsBest infoRank (old.peerInfos.lookup p) (infosOf updates p) (s.peerInfos.lookup p)
  connMap : ∀ p, IsBest rowRank (old.connMap.lookup p) (rowsOf updates p) (s.connMap.lookup p)

/-- The id and the version of a peer decide its info, which has version 1 at least, and its
row, which is empty at version 0; and the infos of a peer have one route id. -/
structure Consistent (routeIdOf : PeerId → Nat) (updates : List Update) : Prop where
  info : ∀ u ∈ updates, ∀ u' ∈ updates, ∀ i ∈ u.infos, ∀ i' ∈ u'.infos,
    i.peerId = i'.peerId → i.version = i'.version → i = i'
  sent : ∀ u ∈ updates, ∀ i ∈ u.infos, 1 ≤ i.version
  route : ∀ u ∈ updates, ∀ i ∈ u.infos, i.peerRouteId = routeIdOf i.peerId
  row : ∀ u ∈ updates, ∀ u' ∈ updates, ∀ p version connected connected',
    (p, (connected, version)) ∈ u.rows → (p, (connected', version)) ∈ u'.rows →
      connected = connected'
  empty : ∀ u ∈ updates, ∀ p connected, (p, (connected, 0)) ∈ u.rows → connected = ∅

variable {updates updates' : List Update} {me : PeerId}

variable (routeId : Nat) (p : PeerId) (update : Update)

theorem infosOf_append :
    infosOf (updates ++ updates') p = infosOf updates p ∪ infosOf updates' p := by
  ext info
  simp [infosOf, or_and_right, exists_or]

theorem rowsOf_append : rowsOf (updates ++ updates') p = rowsOf updates p ∪ rowsOf updates' p := by
  ext row
  simp [rowsOf, or_and_right, exists_or]

theorem Newest.nil (s : SyncedRouteInfo) : Newest s [] s where
  peerInfos p := by simpa [infosOf] using isBest_refl _
  connMap p := by simpa [rowsOf] using isBest_refl _

theorem Newest.trans (first : Newest s updates s') (second : Newest s' updates' s'') :
    Newest s (updates ++ updates') s'' where
  peerInfos p := by
    rw [infosOf_append]
    exact (first.peerInfos p).trans (second.peerInfos p)
  connMap p := by
    rw [rowsOf_append]
    exact (first.connMap p).trans (second.connMap p)

theorem newest_of_keeps {infos : List (PeerId × RoutePeerInfo)}
    {rows : List (PeerId × (Finset PeerId × Version))} (keeps : Keeps s infos rows s')
    (hinfos : ∀ p, candidatesFor infos p = infosOf updates p)
    (hrows : ∀ p, candidatesFor rows p = rowsOf updates p) : Newest s updates s' where
  peerInfos p := by
    rw [← hinfos p, keeps.peerInfos]
    exact keepAll_isBest _ _ p
  connMap p := by
    rw [← hrows p, keeps.connMap]
    exact keepAll_isBest _ _ p

theorem connMap_newest (connBitmap : RouteConnBitmap) :
    Newest s [connMap connBitmap] ((connMap connBitmap).apply me (routeIdOf me) s) := by
  have filled := fillEmptyPeerInfo_keeps s (connBitmap.peerIds.map (·.1)).toFinset
  have loop := filled.trans (storeConns_keeps connBitmap connBitmap.peerIds 0
    (s.fillEmptyPeerInfo (connBitmap.peerIds.map (·.1)).toFinset, false))
  obtain ⟨need, result⟩ := updateConnMap_eq s connBitmap
  simp only [apply, result]
  apply newest_of_keeps (loop.incVersionIf need)
  · intro p
    ext info
    rw [placeholders_append_flatMap]
    simp only [candidatesFor, infosOf, infos, Set.mem_ofPred_eq, mem_placeholders,
      List.mem_singleton, exists_eq_left, List.not_mem_nil, false_and, false_or]
    rfl
  · intro p
    ext row
    have split := @mem_flatMap_snoc _
      (fun row : PeerId × (Finset PeerId × Version) =>
        placeholders (∅, 0) (row.2.1.sort (· ≤ ·)))
      (decodedRows connBitmap connBitmap.peerIds.zipIdx) (p, row)
    simp only [candidatesFor, rowsOf, Set.mem_ofPred_eq, List.mem_append, split,
      List.mem_singleton, exists_eq_left]
    rw [← or_assoc, ← List.mem_append, placeholders_append_flatMap, mem_placeholders, or_comm]
    rfl

section
variable (ids : RouteIds routeIdOf s.peerInfos)
include ids

theorem peerInfos_newest (dst : PeerId) {raws : List RawPeerInfo}
    (route : ∀ raw ∈ raws, raw.known.peerRouteId = routeIdOf raw.known.peerId) :
    Newest s [peerInfos dst raws] ((peerInfos dst raws).apply me (routeIdOf me) s) := by
  obtain ⟨loop, -⟩ := storePeerInfos_keeps me dst raws route (s, false) ids
  obtain ⟨need, result⟩ :=
    updatePeerInfos_eq s me (routeIdOf me) dst (raws.map (·.known)) raws
  simp only [apply, result]
  apply newest_of_keeps (loop.incVersionIf need)
  · intro p
    ext info
    simp [candidatesFor, infosOf, infos, mentioned]
  · intro p
    ext row
    simp [candidatesFor, rowsOf, rows, mentioned]

theorem apply_newest (route : ∀ i ∈ update.infos, i.peerRouteId = routeIdOf i.peerId) :
    Newest s [update] (update.apply me (routeIdOf me) s) := by
  cases update with
  | peerInfos dst raws =>
    apply peerInfos_newest ids dst
    intro raw mem
    exact route raw.known (List.mem_map_of_mem mem)
  | connMap connBitmap => exact connMap_newest connBitmap

variable (route : ∀ u ∈ updates, ∀ i ∈ u.infos, i.peerRouteId = routeIdOf i.peerId)
include route

/-- Updates bring no route id but the one of its peer. -/
theorem Newest.routeIds (newest : Newest s updates s') : RouteIds routeIdOf s'.peerInfos := by
  intro p info found nonzero
  obtain old | ⟨update, mem, ⟨sent, rfl⟩ | ⟨-, rfl⟩⟩ := (newest.peerInfos p).from_ info found
  · exact ids p info old nonzero
  · exact route update mem info sent
  · exact absurd rfl nonzero

theorem applyAll_newest : Newest s updates (applyAll me (routeIdOf me) s updates) := by
  induction updates generalizing s with
  | nil => exact .nil s
  | cons update rest ih =>
    have step : Newest s [update] (update.apply me (routeIdOf me) s) :=
      apply_newest update ids (route update (by simp))
    apply step.trans
    apply ih
    · refine step.routeIds ids fun u mem => ?_
      rw [List.mem_singleton.mp mem]
      exact route update (by simp)
    · intro u mem
      exact route u (by simp [mem])

end

theorem apply_le (s : SyncedRouteInfo) : s.Le (update.apply me routeId s) := by
  cases update with
  | peerInfos dst raws => exact (updatePeerInfos_le s me routeId dst _ raws).1
  | connMap connBitmap => exact (updateConnMap_le s connBitmap).1

theorem applyAll_le (updates : List Update) (s : SyncedRouteInfo) :
    s.Le (applyAll me routeId s updates) := by
  induction updates generalizing s with
  | nil => exact .refl s
  | cons update rest ih => exact (apply_le routeId update s).trans (ih _)

/-- Two infos of a peer with the same version are one info: a placeholder has version 0,
which is never sent. -/
theorem Consistent.infos_apart (consistent : Consistent routeIdOf updates) (p : PeerId) :
    ∀ i ∈ infosOf updates p, ∀ i' ∈ infosOf updates p, infoRank i = infoRank i' → i = i' := by
  rintro i ⟨u, hu, ⟨hi, rfl⟩ | ⟨-, rfl⟩⟩ i' ⟨u', hu', ⟨hi', same⟩ | ⟨-, rfl⟩⟩ rank
  · exact consistent.info u hu u' hu' i hi i' hi' same.symm rank
  · exact absurd (show i.version = 0 from rank)
      (Nat.one_le_iff_ne_zero.mp (consistent.sent u hu i hi))
  · exact absurd (show 0 = i'.version from rank).symm
      (Nat.one_le_iff_ne_zero.mp (consistent.sent u' hu' i' hi'))
  · rfl

theorem Consistent.rows_apart (consistent : Consistent routeIdOf updates) (p : PeerId) :
    ∀ r ∈ rowsOf updates p, ∀ r' ∈ rowsOf updates p, rowRank r = rowRank r' → r = r' := by
  rintro ⟨c, v⟩ ⟨u, hu, hr | ⟨-, hr⟩⟩ ⟨c', v'⟩ ⟨u', hu', hr' | ⟨-, hr'⟩⟩ rank
  · obtain rfl : v = v' := rank
    rw [consistent.row u hu u' hu' p v c c' hr hr']
  · cases hr'
    obtain rfl : v = 0 := rank
    rw [consistent.empty u hu p c hr]
  · cases hr
    obtain rfl : 0 = v' := rank
    rw [consistent.empty u' hu' p c' hr']
  · rw [hr, hr']

/-- **Convergence.** The same updates, in any two orders and with any repetitions, leave the
same infos and rows, each the one with the highest version, and no stored version ever
decreases. The node itself is a peer: its own infos carry its own route id. -/
theorem updates_converge (routeIdOf : PeerId → Nat) (me : PeerId) (s : SyncedRouteInfo)
    (ids : RouteIds routeIdOf s.peerInfos) (updates updates' : List Update)
    (consistent : Consistent routeIdOf updates)
    (same : ∀ update, update ∈ updates ↔ update ∈ updates') :
    let result := applyAll me (routeIdOf me) s updates
    let result' := applyAll me (routeIdOf me) s updates'
    (∀ p, result.peerInfos.lookup p = result'.peerInfos.lookup p) ∧
    (∀ p, result.connMap.lookup p = result'.connMap.lookup p) ∧
    Newest s updates result ∧
    ∀ before after, updates = before ++ after →
      (applyAll me (routeIdOf me) s before).Le result := by
  intro result result'
  have newest : Newest s updates result := applyAll_newest ids consistent.route
  have newest' : Newest s updates' result' :=
    applyAll_newest ids fun u mem => consistent.route u ((same u).mpr mem)
  refine ⟨fun p => ?_, fun p => ?_, newest, ?_⟩
  · apply (newest.peerInfos p).unique (consistent.infos_apart p)
    have brought : infosOf updates p = infosOf updates' p := by
      ext info
      simp [infosOf, same]
    rw [brought]
    exact newest'.peerInfos p
  · apply (newest.connMap p).unique (consistent.rows_apart p)
    have brought : rowsOf updates p = rowsOf updates' p := by
      ext row
      simp [rowsOf, same]
    rw [brought]
    exact newest'.connMap p
  · rintro before after rfl
    have split : result = applyAll me (routeIdOf me)
        (applyAll me (routeIdOf me) s before) after := List.foldl_append
    rw [split]
    exact applyAll_le _ after _

/-! ### Two peers and the link between them -/

def pairInfos : Update :=
  .peerInfos 2 [⟨{ RoutePeerInfo.new with peerId := 2, version := 1, peerRouteId := 20 }, []⟩,
    ⟨{ RoutePeerInfo.new with peerId := 3, version := 2, peerRouteId := 30 }, []⟩]

def pairRows : Update := .connMap ⟨[(2, 1), (3, 1)], [6]⟩

theorem pair_rows {u : Update} (mem : u ∈ [pairInfos, pairRows])
    {row : PeerId × (Finset PeerId × Version)} (hrow : row ∈ u.rows) :
    row = (2, ({3}, 1)) ∨ row = (3, ({2}, 1)) := by
  have decoded : pairRows.rows = [(2, ({3}, 1)), (3, ({2}, 1))] := by decide +kernel
  obtain rfl | rfl : u = pairInfos ∨ u = pairRows := by simpa using mem
  · cases hrow
  · simpa [decoded] using hrow

theorem pair_consistent : Consistent (· * 10) [pairInfos, pairRows] where
  info := by decide
  sent := by decide
  route := by decide
  row u hu u' hu' p version connected connected' hrow hrow' := by
    have one := pair_rows hu hrow
    have other := pair_rows hu' hrow'
    grind
  empty u hu p connected hrow := by
    have one := pair_rows hu hrow
    grind

/-- The rows first, twice, or the infos first: node 1 stores the same. -/
theorem pair_converges :
    let result := applyAll 1 10 .new [pairInfos, pairRows]
    let result' := applyAll 1 10 .new [pairRows, pairInfos, pairRows]
    (∀ p, result.peerInfos.lookup p = result'.peerInfos.lookup p) ∧
      (∀ p, result.connMap.lookup p = result'.connMap.lookup p) ∧
      ∃ info, result.peerInfos.lookup 3 = some info ∧ 2 ≤ info.version := by
  have converge := updates_converge (· * 10) 1 .new (by simp [RouteIds, SyncedRouteInfo.new])
    [pairInfos, pairRows] [pairRows, pairInfos, pairRows] pair_consistent
    (by simp [or_comm, or_left_comm])
  obtain ⟨infos, rows, newest, -⟩ := converge
  obtain ⟨info, found, le⟩ := (newest.peerInfos 3).le
    { RoutePeerInfo.new with peerId := 3, version := 2, peerRouteId := 30 }
    ⟨pairInfos, by simp, .inl (by decide)⟩
  exact ⟨infos, rows, info, found, le⟩

end Update

end PeerLink.Sync
