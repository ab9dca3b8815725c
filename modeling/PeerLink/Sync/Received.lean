import PeerLink.Sync.Batch

/-!
# What a message leaves in the store

The infos and the connection bitmap of one message, with what they do to the store if
nothing stops them: the newest info and row of each peer are kept (`Keeps`), and the version
is raised once for news among the infos, once for peers that were not listed before and
once for later rows.
-/

namespace PeerLink.Sync

open Route Best SyncedRouteInfo

/-! ## What raises the version -/

/-- A loop that notes whether it had news: an item that is no news leaves the state alone,
one that is sets the note. -/
theorem foldl_noted {σ α : Type} {step : σ × Bool → α → σ × Bool} {news : σ → α → Bool}
    (idle : ∀ s need a, news s a = false → step (s, need) a = (s, need))
    (notes : ∀ s need a, news s a = true → (step (s, need) a).2 = true)
    (items : List α) (s : σ) (need : Bool) :
    (items.foldl step (s, need)).2 = (need || items.any (news s)) := by
  induction items generalizing s need with
  | nil => simp
  | cons a rest ih =>
    rw [List.foldl_cons]
    cases isNews : news s a with
    | false => simp [idle s need a isNews, ih, isNews]
    | true =>
      have noted := notes s need a isNews
      generalize step (s, need) a = st at noted ⊢
      obtain ⟨s', need'⟩ := st
      obtain rfl : need' = true := noted
      simp [ih, isNews]

variable (s : SyncedRouteInfo)

/-- A version that is raised if it has to be. -/
def raised (version : Version) (need : Bool) : Version :=
  if need then AtomicVersion.inc version else version

theorem incVersionIf_version (s : SyncedRouteInfo) (need : Bool) :
    (s.incVersionIf need).version = raised s.version need := by
  cases need <;> rfl

/-- The store has no such version of the peer's info yet. -/
def isNewInfo (info : RoutePeerInfo) : Bool :=
  (s.peerInfos.lookup info.peerId).all fun old => old.version < info.version

/-- The peer gets a placeholder. -/
def isNewId (p : PeerId) : Bool :=
  (s.peerInfos.lookup p).isNone || (s.connMap.lookup p).isNone

def rowVersion (p : PeerId) : Version :=
  ((s.connMap.lookup p).map (·.2)).getD 0

/-- The row is later than the stored one, or than a placeholder. -/
def isNewRow (row : PeerId × (Finset PeerId × Version)) : Bool :=
  rowVersion s row.1 < row.2.2

variable {me : PeerId} {routeId : Nat} {dst : PeerId} {s : SyncedRouteInfo} {need : Bool}

variable {infos : List RoutePeerInfo} {raws : List RawPeerInfo} {p : PeerId} {ids : Finset PeerId}
  {connBitmap : RouteConnBitmap} {rows : List ((PeerId × Version) × Nat)}
  {row : PeerId × (Finset PeerId × Version)}

theorem storePeerInfos_foldl
    (returns : (storePeerInfos me routeId dst infos raws (s, need)).2 = none) :
    (storePeerInfos me routeId dst infos raws (s, need)).1 =
      (infos.zip raws).foldl (fun st item => st.1.storePeerInfo item.1 item.2 st.2) (s, need) ∧
      infos.length ≤ raws.length ∧
      Keeps s (keyed infos) [] (storePeerInfos me routeId dst infos raws (s, need)).1.1 := by
  induction infos generalizing raws s need with
  | nil => exact ⟨rfl, Nat.zero_le _, .refl s⟩
  | cons info rest ih =>
    obtain ⟨raw, raws, rfl, -, next⟩ | ⟨-, fault, stopped⟩ :=
      @storePeerInfos_cons me routeId dst s info rest raws need
    · rw [next] at returns ⊢
      obtain ⟨loop, length, keeps⟩ := ih returns
      exact ⟨loop, Nat.succ_le_succ length, (storePeerInfo_keeps s info raw need).trans keeps⟩
    · rw [stopped] at returns
      cases returns

theorem isNewInfo_iff {info : RoutePeerInfo} : isNewInfo s info = true ↔ ¬ Stale s info := by
  unfold isNewInfo Stale HasPeer
  cases s.peerInfos.lookup info.peerId <;> simp

theorem storePeerInfos_noted
    (returns : (storePeerInfos me routeId dst infos raws (s, need)).2 = none) :
    (storePeerInfos me routeId dst infos raws (s, need)).1.2 =
      (need || infos.any (isNewInfo s)) := by
  obtain ⟨loop, length, -⟩ := storePeerInfos_foldl returns
  have noted := @foldl_noted _ _ (fun st item => st.1.storePeerInfo item.1 item.2 st.2)
    (fun s (item : RoutePeerInfo × RawPeerInfo) => isNewInfo s item.1)
    (fun s need item old => storePeerInfo_stale
      (not_not.mp fun fresh => by simp [isNewInfo_iff.mpr fresh] at old))
    (fun s need item new => by rw [storePeerInfo_fresh (isNewInfo_iff.mp new)])
    (infos.zip raws) s need
  have firsts : (infos.zip raws).any (fun item => isNewInfo s item.1) =
    infos.any (isNewInfo s) := by
    conv_rhs => rw [← List.map_fst_zip length, List.any_map]
    rfl
  rw [loop, noted, firsts]

/-- What an update of infos leaves, if it returns. -/
theorem updatePeerInfos_received
    (returns : (s.updatePeerInfos me routeId dst infos raws).2 = none) :
    let s' := (s.updatePeerInfos me routeId dst infos raws).1
    Keeps s (keyed infos) [] s' ∧ s'.version = raised s.version (infos.any (isNewInfo s)) := by
  rw [updatePeerInfos_snd] at returns
  have noted := storePeerInfos_noted returns
  obtain ⟨-, -, merges⟩ := storePeerInfos_foldl returns
  have version := (@storePeerInfos_frame me routeId dst infos raws (s, false)).1
  unfold updatePeerInfos
  cases loop : storePeerInfos me routeId dst infos raws (s, false) with
  | mk st fault =>
    rw [loop] at returns noted merges version
    obtain ⟨s', need'⟩ := st
    obtain rfl : fault = none := returns
    refine ⟨merges.incVersionIf _, ?_⟩
    have flag : need' = infos.any (isNewInfo s) := by simpa using noted
    rw [← flag]
    exact (incVersionIf_version s' need').trans (congrArg (raised · need') version)

/-! ### Placeholders -/

theorem fillEmptyPeer_idle (old : isNewId s p = false) :
    fillEmptyPeer (s, need) p = (s, need) := by
  obtain ⟨info, row⟩ := Bool.or_eq_false_iff.mp old
  simp [fillEmptyPeer, info, row]

theorem fillEmptyPeer_notes (new : isNewId s p = true) :
    (fillEmptyPeer (s, need) p).2 = true := by
  unfold isNewId at new
  simp only [fillEmptyPeer, Bool.or_assoc, new, Bool.or_true]

theorem fillEmptyPeers_version (ids : List PeerId) (st : SyncedRouteInfo × Bool) :
    (ids.foldl fillEmptyPeer st).1.version = st.1.version := by
  induction ids generalizing st with
  | nil => rfl
  | cons p rest ih => exact ih (fillEmptyPeer st p)

theorem fillEmptyPeerInfo_version (s : SyncedRouteInfo) (ids : Finset PeerId) :
    (s.fillEmptyPeerInfo ids).version =
      raised s.version ((ids.sort (· ≤ ·)).any (isNewId s)) := by
  have noted := @foldl_noted _ _ fillEmptyPeer isNewId (fun _ _ _ => fillEmptyPeer_idle)
    (fun _ _ _ => fillEmptyPeer_notes) (ids.sort (· ≤ ·)) s false
  unfold fillEmptyPeerInfo
  simp only [incVersionIf_version, noted, fillEmptyPeers_version, Bool.false_or]

/-- The peers have an info and a row, be it a placeholder. -/
def Filled (s : SyncedRouteInfo) (ids : Finset PeerId) : Prop := ∀ p ∈ ids, isNewId s p = false

theorem Filled.fillEmptyPeerInfo (filled : Filled s ids) :
    s.fillEmptyPeerInfo ids = s := by
  have idle : ∀ list : List PeerId, (∀ p ∈ list, isNewId s p = false) →
      list.foldl fillEmptyPeer (s, false) = (s, false) := by
    intro list old
    induction list with
    | nil => rfl
    | cons p rest ih =>
      rw [List.foldl_cons, fillEmptyPeer_idle (old p (by simp))]
      exact ih fun q mem => old q (by simp [mem])
  unfold SyncedRouteInfo.fillEmptyPeerInfo
  rw [idle _ fun p mem => filled p ((Finset.mem_sort _).mp mem)]
  rfl

theorem isNewId_iff :
    isNewId s p = false ↔ s.HasPeer p 0 ∧ s.HasConn p 0 := by
  unfold isNewId HasPeer HasConn
  cases s.peerInfos.lookup p <;> cases s.connMap.lookup p <;> simp

theorem Filled.le {s' : SyncedRouteInfo} (filled : Filled s ids)
    (le : s.Le s') : Filled s' ids := by
  intro p mem
  obtain ⟨info, row⟩ := isNewId_iff.mp (filled p mem)
  exact isNewId_iff.mpr ⟨le.peers p 0 info, le.conns p 0 row⟩

theorem fillEmptyPeerInfo_filled (s : SyncedRouteInfo) (ids : Finset PeerId) :
    Filled (s.fillEmptyPeerInfo ids) ids := by
  intro p mem
  have keeps := fillEmptyPeerInfo_keeps s ids
  have sorted : p ∈ ids.sort (· ≤ ·) := (Finset.mem_sort _).mpr mem
  refine isNewId_iff.mpr ⟨?_, ?_⟩
  · exact held_keepAll keeps.peerInfos (.inr ⟨.new, mem_placeholders.mpr ⟨sorted, rfl⟩, rfl⟩)
  · exact held_keepAll keeps.connMap (.inr ⟨(∅, 0), mem_placeholders.mpr ⟨sorted, rfl⟩, rfl⟩)

/-- A placeholder has the version that a missing row counts with. -/
theorem fillEmptyPeerInfo_rowVersion (s : SyncedRouteInfo) (ids : Finset PeerId) (p : PeerId) :
    rowVersion (s.fillEmptyPeerInfo ids) p = rowVersion s p := by
  have row := @keepAll_isBest _ _ _ _ _ rowRank s.connMap
    (placeholders (∅, 0) (ids.sort (· ≤ ·))) p
  unfold rowVersion
  rw [(fillEmptyPeerInfo_keeps s ids).connMap]
  cases found : s.connMap.lookup p with
  | none =>
    cases after : (keepAll rowRank s.connMap (placeholders (∅, 0) (ids.sort (· ≤ ·)))).lookup p with
    | none => rfl
    | some kept =>
      obtain old | new := row.from_ kept after
      · rw [found] at old
        cases old
      · obtain ⟨-, rfl⟩ := mem_placeholders.mp new
        rfl
  | some old =>
    obtain ⟨kept, after, rfl | better⟩ := row.old_le old found
    · rw [after]
    · obtain before | new := row.from_ kept after
      · rw [found] at before
        cases before
        rw [after]
      · obtain ⟨-, rfl⟩ := mem_placeholders.mp new
        exact absurd better (not_lt.mpr (Nat.zero_le old.2))

/-! ### Rows -/

/-- A row names only peers that the bitmap lists. -/
theorem getConnectedPeers_listed {i : Nat}
    {connected : Finset PeerId} (decoded : connBitmap.getConnectedPeers i = some connected) :
    connected ⊆ (connBitmap.peerIds.map (·.1)).toFinset := by
  rw [getConnectedPeers_eq (getConnectedPeers_bits.mp (decoded ▸ rfl))] at decoded
  cases decoded
  intro p mem
  rw [Finset.empty_union, List.mem_toFinset] at mem
  obtain ⟨item, read, rfl⟩ := List.mem_map.mp mem
  exact List.mem_toFinset.mpr (List.mem_map_of_mem
    (List.fst_mem_of_mem_zipIdx (List.mem_of_mem_filter read)))

/-- All rows can be decoded exactly if the bytes hold a bit for each pair of listed peers. -/
theorem rows_decode_iff :
    (∀ row ∈ connBitmap.peerIds.zipIdx, (connBitmap.getConnectedPeers row.2).isSome = true) ↔
      (connBitmap.peerIds.length * connBitmap.peerIds.length + 7) / 8 ≤
        connBitmap.bitmap.length := by
  have bit : ∀ idx, (connBitmap.getBit idx).isSome = true ↔ idx / 8 < connBitmap.bitmap.length := by
    intro idx
    simp [RouteConnBitmap.getBit]
  have below : ∀ item ∈ connBitmap.peerIds.zipIdx, item.2 < connBitmap.peerIds.length :=
    fun item mem => List.snd_lt_of_mem_zipIdx mem
  simp only [getConnectedPeers_bits, bit]
  constructor
  · intro inside
    by_cases empty : connBitmap.peerIds.length = 0
    · simp [empty]
    · -- the last bit of the last row decides
      obtain ⟨last, isLast⟩ : ∃ last,
          connBitmap.peerIds[connBitmap.peerIds.length - 1]? = some last :=
        ⟨_, List.getElem?_eq_getElem (Nat.sub_one_lt empty)⟩
      have mem : (last, connBitmap.peerIds.length - 1) ∈ connBitmap.peerIds.zipIdx :=
        List.mk_mem_zipIdx_iff_getElem?.mpr isLast
      have bound := inside _ mem _ mem
      obtain ⟨n, length⟩ := Nat.exists_eq_succ_of_ne_zero empty
      simp only [length, Nat.succ_eq_add_one, Nat.add_sub_cancel] at bound ⊢
      rw [Nat.succ_mul n (n + 1)]
      omega
  · intro enough row mem item mem'
    exact (position_inside (below row mem) (below item mem')).trans_le enough

theorem storeConns_returns_iff :
    (storeConns connBitmap rows (s, need)).2 = none ↔
      ∀ row ∈ rows, (connBitmap.getConnectedPeers row.2).isSome = true := by
  induction rows generalizing s need with
  | nil => simp [storeConns]
  | cons row rest ih =>
    obtain ⟨⟨p, version⟩, i⟩ := row
    cases decoded : connBitmap.getConnectedPeers i with
    | none => simp [storeConns, decoded]
    | some connected => simp [storeConns, decoded, ih]

/-- Where all listed peers are there, the loop only stores rows. -/
theorem storeConns_foldl (filled : Filled s (connBitmap.peerIds.map (·.1)).toFinset)
    (decode : ∀ row ∈ rows, (connBitmap.getConnectedPeers row.2).isSome = true) :
    (storeConns connBitmap rows (s, need)).1 = (decodedRows connBitmap rows).foldl
      (fun st row => st.1.storeConn row.1 row.2.2 row.2.1 st.2) (s, need) := by
  induction rows generalizing s need with
  | nil => rfl
  | cons row rest ih =>
    obtain ⟨⟨p, version⟩, i⟩ := row
    obtain ⟨connected, decoded⟩ := Option.isSome_iff_exists.mp (decode _ (List.mem_cons_self))
    have already : s.fillEmptyPeerInfo connected = s :=
      Filled.fillEmptyPeerInfo fun q mem => filled q (getConnectedPeers_listed decoded mem)
    have later := @ih (s.storeConn p version connected need).1
      (s.storeConn p version connected need).2
        (filled.le (storeConn_le s p version connected need).1)
      fun other mem => decode other (List.mem_cons_of_mem _ mem)
    simp only [storeConns, decoded, already, decodedRows, List.filterMap_cons, Option.map_some,
      List.foldl_cons]
    exact later

/-- The row is stored: it is later than the stored one, or there is none. -/
def isStoredRow (s : SyncedRouteInfo) (row : PeerId × (Finset PeerId × Version)) : Bool :=
  (s.connMap.lookup row.1).all fun old => old.2 < row.2.2

theorem storeConn_notes
    (new : isStoredRow s row = true) : (s.storeConn row.1 row.2.2 row.2.1 need).2 = true := by
  unfold isStoredRow at new
  unfold storeConn
  cases found : s.connMap.lookup row.1 with
  | none => rfl
  | some old =>
    rw [found] at new
    have later : old.2 < row.2.2 := by simpa using new
    simp [later]

theorem storeConn_idle (old : isStoredRow s row = false) :
    s.storeConn row.1 row.2.2 row.2.1 need = (s, need) := by
  unfold isStoredRow at old
  cases found : s.connMap.lookup row.1 with
  | none => simp [found] at old
  | some stored =>
    rw [found] at old
    have kept : ¬ stored.2 < row.2.2 := by simpa using old
    simp only [storeConn, found, if_neg kept]

/-- Where every peer has a row, a row is stored if it is later. -/
theorem Filled.isStoredRow (filled : Filled s ids) (listed : row.1 ∈ ids) :
    isStoredRow s row = isNewRow s row := by
  obtain ⟨-, stored, found, -⟩ := isNewId_iff.mp (filled _ listed)
  simp [Sync.isStoredRow, isNewRow, rowVersion, found]

theorem storeConn_foldl_keeps (rows : List (PeerId × (Finset PeerId × Version)))
    (st : SyncedRouteInfo × Bool) :
    let result := rows.foldl (fun st row => st.1.storeConn row.1 row.2.2 row.2.1 st.2) st
    Keeps st.1 [] rows result.1 ∧ result.1.version = st.1.version := by
  induction rows generalizing st with
  | nil => exact ⟨.refl _, rfl⟩
  | cons row rest ih =>
    obtain ⟨keeps, version⟩ := ih (st.1.storeConn row.1 row.2.2 row.2.1 st.2)
    refine ⟨(storeConn_keeps st.1 row.1 row.2.2 row.2.1 st.2).trans keeps, version.trans ?_⟩
    obtain ⟨-, stored⟩ | ⟨-, -, -, kept⟩ := st.1.storeConn_cases row.1 row.2.2 row.2.1 st.2
    · rw [stored]
    · rw [kept]

def listedIds (connBitmap : RouteConnBitmap) : List PeerId :=
  (connBitmap.peerIds.map (·.1)).toFinset.sort (· ≤ ·)

def receivedRows (connBitmap : RouteConnBitmap) : List (PeerId × (Finset PeerId × Version)) :=
  decodedRows connBitmap connBitmap.peerIds.zipIdx

theorem updateConnMap_returns_iff :
    (s.updateConnMap connBitmap).2 = none ↔
      (connBitmap.peerIds.length * connBitmap.peerIds.length + 7) / 8 ≤
        connBitmap.bitmap.length := by
  rw [← rows_decode_iff, ← @storeConns_returns_iff
    (s.fillEmptyPeerInfo (connBitmap.peerIds.map (·.1)).toFinset) false connBitmap]
  obtain ⟨need, result⟩ := updateConnMap_eq s connBitmap
  rw [result]

theorem storeConns_fault (rows : List ((PeerId × Version) × Nat)) (st : SyncedRouteInfo × Bool) :
    (storeConns connBitmap rows st).2 = none ∨
      (storeConns connBitmap rows st).2 = some .panicked := by
  induction rows generalizing st with
  | nil => exact .inl rfl
  | cons row rest ih =>
    obtain ⟨⟨p, version⟩, i⟩ := row
    simp only [storeConns]
    split
    · exact .inr rfl
    · exact ih _

theorem updateConnMap_fault (s : SyncedRouteInfo) (connBitmap : RouteConnBitmap) :
    (s.updateConnMap connBitmap).2 = none ∨ (s.updateConnMap connBitmap).2 = some .panicked := by
  obtain ⟨need, result⟩ := updateConnMap_eq s connBitmap
  rw [result]
  exact storeConns_fault _ _

/-- What an update of rows leaves, if it returns. -/
theorem updateConnMap_received (returns : (s.updateConnMap connBitmap).2 = none) :
    let ids := listedIds connBitmap
    let rows := receivedRows connBitmap
    let s' := (s.updateConnMap connBitmap).1
    Keeps s (placeholders .new ids) (placeholders (∅, 0) ids ++ rows) s' ∧
      s'.version = raised (raised s.version (ids.any (isNewId s))) (rows.any (isNewRow s)) := by
  intro ids rows s'
  have decode := rows_decode_iff.mpr (updateConnMap_returns_iff.mp returns)
  let filledInfo := s.fillEmptyPeerInfo (connBitmap.peerIds.map (·.1)).toFinset
  have filled : Filled filledInfo _ := fillEmptyPeerInfo_filled s _
  have loop := @storeConns_foldl filledInfo false connBitmap _ filled decode
  have done := (@storeConns_returns_iff filledInfo false connBitmap _).mpr decode
  obtain ⟨keeps, version⟩ := storeConn_foldl_keeps rows (filledInfo, false)
  have noted := @foldl_noted _ _ (fun st row => SyncedRouteInfo.storeConn st.1 row.1 row.2.2 row.2.1
    st.2) Sync.isStoredRow (fun _ _ _ => storeConn_idle) (fun _ _ _ => storeConn_notes) rows
      filledInfo false
  have later : rows.any (Sync.isStoredRow filledInfo) = rows.any (isNewRow s) := by
    rw [Bool.eq_iff_iff, List.any_eq_true, List.any_eq_true]
    refine exists_congr fun row => and_congr_right fun mem => ?_
    rw [filled.isStoredRow (mem_decodedRows_listed mem), isNewRow, isNewRow,
      fillEmptyPeerInfo_rowVersion]
  have run : storeConns connBitmap connBitmap.peerIds.zipIdx (filledInfo, false) =
      (rows.foldl (fun st row => st.1.storeConn row.1 row.2.2 row.2.1 st.2) (filledInfo, false),
        none) := Prod.ext loop done
  have result : s' = incVersionIf (rows.foldl
      (fun st row => st.1.storeConn row.1 row.2.2 row.2.1 st.2) (filledInfo, false)).1
        (rows.any (isNewRow s)) := by
    rw [← later, ← Bool.false_or (rows.any _), ← noted]
    simp only [s', updateConnMap]
    rw [run]
  constructor
  · rw [result, ← List.append_nil (placeholders RoutePeerInfo.new ids)]
    exact ((fillEmptyPeerInfo_keeps s _).trans keeps).incVersionIf _
  · rw [result, incVersionIf_version, version]
    simp only [filledInfo, fillEmptyPeerInfo_version]
    rfl

end PeerLink.Sync
