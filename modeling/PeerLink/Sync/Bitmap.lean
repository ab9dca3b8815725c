import PeerLink.Sync.Node

/-!
# The connection bitmap

A square of bits, one row for each listed peer, packed row by row into bytes. What
`update_route_table_and_cached_local_conn_bitmap` writes, `get_connected_peers` reads
back: the set of the positions that were written decides every bit
(`readBit_setBits`), and no two pairs of peers share a position.
-/

namespace PeerLink.Sync

open Route

/-! ## Bits in bytes -/

variable {n row col i : Nat} {connBitmap : RouteConnBitmap}

theorem testBit_or_shift (byte : UInt8) {k l : Nat} (hk : k < 8) (hl : l < 8) :
    (byte ||| 1 <<< UInt8.ofNat k).toNat.testBit l = (byte.toNat.testBit l || decide (l = k)) := by
  have small : k % 256 = k := Nat.mod_eq_of_lt (by omega)
  rw [UInt8.toNat_or, Nat.testBit_or, UInt8.toNat_shiftLeft, UInt8.toNat_ofNat', small,
    Nat.mod_eq_of_lt hk, Nat.testBit_mod_two_pow, Nat.testBit_shiftLeft]
  congr 1
  rw [Bool.eq_iff_iff]
  simp only [hl, decide_true, Bool.true_and, Bool.and_eq_true, decide_eq_true_eq]
  constructor
  · rintro ⟨le, bit⟩
    have zero := Nat.testBit_one_eq_true_iff_self_eq_zero.mp bit
    omega
  · rintro rfl
    exact ⟨le_rfl, by simp⟩

/-- `get_bit` on the bytes alone. -/
def readBit (bitmap : List UInt8) (idx : Nat) : Option Bool :=
  (bitmap[idx / 8]?).map fun byte => byte.toNat.testBit (idx % 8)

variable (positions : List Nat) (bitmap : List UInt8)

/-- A write sets its own bit and leaves the others, those of the same byte included. -/
theorem readBit_setBit (i j : Nat) :
    readBit (Node.setBit bitmap i) j = (readBit bitmap j).map (· || decide (j = i)) := by
  unfold readBit Node.setBit
  rw [List.getElem?_modify]
  cases bitmap[j / 8]? with
  | none => rfl
  | some byte =>
    simp only [Option.map_eq_map, Option.map_some, Option.some.injEq]
    by_cases same : i / 8 = j / 8
    · rw [if_pos same, testBit_or_shift byte (Nat.mod_lt _ (by decide)) (Nat.mod_lt _ (by decide))]
      have iff : j % 8 = i % 8 ↔ j = i := by omega
      simp [iff]
    · have differ : j ≠ i := by
        rintro rfl
        exact same rfl
      simp [same, differ]

theorem readBit_setBits (j : Nat) :
    readBit (positions.foldl Node.setBit bitmap) j =
      (readBit bitmap j).map (· || decide (j ∈ positions)) := by
  induction positions generalizing bitmap with
  | nil => simp
  | cons i rest ih =>
    rw [List.foldl_cons, ih, readBit_setBit, Option.map_map]
    congr 1
    funext bit
    simp [Bool.or_assoc]

@[simp] theorem length_setBits : (positions.foldl Node.setBit bitmap).length = bitmap.length := by
  induction positions generalizing bitmap with
  | nil => rfl
  | cons i rest ih =>
    rw [List.foldl_cons, ih]
    exact List.length_modify ..

theorem readBit_zeros (size idx : Nat) (inside : idx / 8 < size) :
    readBit (List.replicate size 0) idx = some false := by
  simp [readBit, inside]

/-! ## Positions of pairs -/

/-- The square of `n * n` bits fits, rounded up to whole bytes. -/
theorem position_inside (hrow : row < n) (hcol : col < n) :
    (row * n + col) / 8 < (n * n + 7) / 8 := by
  have bound : row * n + col < n * n := by
    calc row * n + col < row * n + n := by omega
      _ = (row + 1) * n := (Nat.succ_mul row n).symm
      _ ≤ n * n := Nat.mul_le_mul_right n hrow
  omega

theorem position_injective {row' col' : Nat} (hcol : col < n) (hcol' : col' < n)
    (same : row * n + col = row' * n + col') : row = row' ∧ col = col' := by
  have positive : 0 < n := by omega
  have row_eq : row = row' := by
    have div := congrArg (· / n) same
    simpa [Nat.mul_comm _ n, Nat.mul_add_div positive, Nat.div_eq_of_lt hcol,
      Nat.div_eq_of_lt hcol'] using div
  subst row_eq
  exact ⟨rfl, by omega⟩

/-! ## Writing -/

section
variable {connMap : PeerMap (Finset PeerId × Version)} {ids : List (PeerId × Version)}

/-- The positions set in the row of a peer that is connected to `connected`. -/
def rowPositions (connected : Finset PeerId) (ids : List (PeerId × Version)) (row : Nat) :
    List Nat :=
  (ids.zipIdx.filter fun item => item.1.1 ∈ connected).map fun item => row * ids.length + item.2

/-- The connections of a peer, with none for a peer without a row. -/
def connectionsOf (connMap : PeerMap (Finset PeerId × Version)) (p : PeerId) : Finset PeerId :=
  ((connMap.lookup p).map (·.1)).getD ∅

def allPositions (connMap : PeerMap (Finset PeerId × Version)) (ids : List (PeerId × Version)) :
    List Nat :=
  ids.zipIdx.flatMap fun item => rowPositions (connectionsOf connMap item.1.1) ids item.2

variable {row col : Nat} {p q : PeerId × Version}

theorem setRow_eq (connected : Finset PeerId) (row : Nat) (bitmap : List UInt8) :
    Node.setRow connected ids row bitmap =
      (rowPositions connected ids row).foldl Node.setBit bitmap := by
  rw [rowPositions, List.foldl_map, List.foldl_filter]
  simp [Node.setRow]

theorem connBitmapOf_bitmap :
    (Node.connBitmapOf connMap ids).bitmap = (allPositions connMap ids).foldl Node.setBit
      (List.replicate ((ids.length * ids.length + 7) / 8) 0) := by
  rw [allPositions, List.foldl_flatMap]
  simp only [Node.connBitmapOf]
  congr 1
  funext bitmap item
  cases found : connMap.lookup item.1.1 with
  | none => simp [connectionsOf, found, rowPositions]
  | some connected => simp [connectionsOf, found, setRow_eq]

theorem mem_allPositions (hrow : ids[row]? = some p) (hcol : ids[col]? = some q) :
    row * ids.length + col ∈ allPositions connMap ids ↔ q.1 ∈ connectionsOf connMap p.1 := by
  have col_lt : col < ids.length := (List.getElem?_eq_some_iff.mp hcol).1
  simp only [allPositions, rowPositions, List.mem_flatMap, List.mem_map, List.mem_filter,
    Prod.exists, decide_eq_true_eq, List.mk_mem_zipIdx_iff_getElem?]
  constructor
  · rintro ⟨p', version', row', hrow', q', version'', col', ⟨hcol', connected⟩, same⟩
    have col_lt' : col' < ids.length := (List.getElem?_eq_some_iff.mp hcol').1
    obtain ⟨rfl, rfl⟩ := position_injective col_lt' col_lt same
    cases hrow'.symm.trans hrow
    cases hcol'.symm.trans hcol
    exact connected
  · intro connected
    exact ⟨p.1, p.2, row, hrow, q.1, q.2, col, ⟨hcol, connected⟩, rfl⟩

theorem readBit_connBitmapOf (hrow : ids[row]? = some p) (hcol : ids[col]? = some q) :
    readBit (Node.connBitmapOf connMap ids).bitmap (row * ids.length + col) =
      some (decide (q.1 ∈ connectionsOf connMap p.1)) := by
  have inside := position_inside (List.getElem?_eq_some_iff.mp hrow).1
    (List.getElem?_eq_some_iff.mp hcol).1
  rw [connBitmapOf_bitmap, readBit_setBits, readBit_zeros _ _ inside, Option.map_some,
    Bool.false_or]
  simp [mem_allPositions hrow hcol]

theorem length_connBitmapOf : (Node.connBitmapOf connMap ids).bitmap.length =
    (ids.length * ids.length + 7) / 8 := by
  rw [connBitmapOf_bitmap, length_setBits, List.length_replicate]

end

/-! ## Reading -/

section
variable {α : Type} {read : α → Option Bool} {peer : α → PeerId}

/-- The loop of `get_connected_peers`, when every bit is there. -/
theorem foldlM_readBits {items : List α} {bit : α → Bool}
    (inside : ∀ item ∈ items, read item = some (bit item)) (connected : Finset PeerId) :
    items.foldlM (fun connected item => do
        let bit ← read item
        return if bit then insert (peer item) connected else connected) connected =
      some (connected ∪ ((items.filter bit).map peer).toFinset) := by
  induction items generalizing connected with
  | nil => simp
  | cons item rest ih =>
    rw [List.foldlM_cons, inside item (by simp)]
    refine (ih (fun other mem => inside other (by simp [mem])) _).trans ?_
    cases bit_eq : bit item <;> simp [bit_eq]

theorem foldlM_readBits_none {items : List α} {item : α} (mem : item ∈ items)
    (outside : read item = none) (connected : Finset PeerId) :
    items.foldlM (fun connected item => do
        let bit ← read item
        return if bit then insert (peer item) connected else connected) connected = none := by
  induction items generalizing connected with
  | nil => simp at mem
  | cons first rest ih =>
    rw [List.foldlM_cons]
    obtain rfl | mem := List.mem_cons.mp mem
    · simp [outside]
    · cases read first with
      | none => rfl
      | some bit => exact ih mem _

end

theorem getConnectedPeers_eq (present : ∀ item ∈ connBitmap.peerIds.zipIdx,
      (connBitmap.getBit (i * connBitmap.peerIds.length + item.2)).isSome = true) :
    connBitmap.getConnectedPeers i = some (∅ ∪ ((connBitmap.peerIds.zipIdx.filter fun item =>
      (connBitmap.getBit (i * connBitmap.peerIds.length + item.2)).getD false).map
        (·.1.1)).toFinset) := by
  refine foldlM_readBits (fun item mem => ?_) ∅
  obtain ⟨bit, found⟩ := Option.isSome_iff_exists.mp (present item mem)
  rw [found, Option.getD_some]

/-- A row can be read if all of its bits are there. -/
theorem getConnectedPeers_bits :
    (connBitmap.getConnectedPeers i).isSome = true ↔ ∀ item ∈ connBitmap.peerIds.zipIdx,
      (connBitmap.getBit (i * connBitmap.peerIds.length + item.2)).isSome = true := by
  constructor
  · intro decoded item mem
    by_contra missing
    have outside := Option.not_isSome_iff_eq_none.mp missing
    have fails : connBitmap.getConnectedPeers i = none := foldlM_readBits_none mem outside ∅
    simp [fails] at decoded
  · intro present
    rw [getConnectedPeers_eq present, Option.isSome_some]

/-- A row past the end of the bytes is followed by others that are. -/
theorem getConnectedPeers_none_mono {j : Nat}
    (outside : connBitmap.getConnectedPeers i = none) (le : i ≤ j) :
    connBitmap.getConnectedPeers j = none := by
  obtain ⟨item, mem, missing⟩ : ∃ item ∈ connBitmap.peerIds.zipIdx,
      connBitmap.getBit (i * connBitmap.peerIds.length + item.2) = none := by
    have unread : ¬ (connBitmap.getConnectedPeers i).isSome = true := by simp [outside]
    simpa [getConnectedPeers_bits] using unread
  apply foldlM_readBits_none mem
  have beyond : connBitmap.bitmap.length ≤ (i * connBitmap.peerIds.length + item.2) / 8 := by
    simpa [RouteConnBitmap.getBit] using missing
  have later : (i * connBitmap.peerIds.length + item.2) / 8 ≤
      (j * connBitmap.peerIds.length + item.2) / 8 :=
    Nat.div_le_div_right (Nat.add_le_add_right (Nat.mul_le_mul_right _ le) _)
  simpa [RouteConnBitmap.getBit] using beyond.trans later

/-- Decoding a row of the encoding gives the connections among the listed peers. -/
theorem getConnectedPeers_connBitmapOf {connMap : PeerMap (Finset PeerId × Version)}
    {ids : List (PeerId × Version)} {p : PeerId × Version}
    (hrow : ids[row]? = some p) :
    (Node.connBitmapOf connMap ids).getConnectedPeers row =
      some ((connectionsOf connMap p.1).filter (· ∈ ids.map (·.1))) := by
  have bits : ∀ item ∈ ids.zipIdx,
      (Node.connBitmapOf connMap ids).getBit (row * ids.length + item.2) =
        some (decide (item.1.1 ∈ connectionsOf connMap p.1)) := by
    rintro ⟨q, col⟩ mem
    exact readBit_connBitmapOf hrow (List.mk_mem_zipIdx_iff_getElem?.mp mem)
  refine (foldlM_readBits bits ∅).trans ?_
  congr 1
  ext q
  simp only [Finset.empty_union, List.mem_toFinset, List.mem_map, List.mem_filter,
    Finset.mem_filter, decide_eq_true_eq]
  constructor
  · rintro ⟨item, ⟨mem, connected⟩, rfl⟩
    exact ⟨connected, item.1, List.fst_mem_of_mem_zipIdx mem, rfl⟩
  · rintro ⟨connected, item, mem, rfl⟩
    obtain ⟨col, hcol⟩ := List.mem_iff_getElem?.mp mem
    exact ⟨(item, col), ⟨List.mk_mem_zipIdx_iff_getElem?.mpr hcol, connected⟩, rfl⟩

/-- **Round trip of the connection bitmap.** Every position that is written or read lies
inside the bytes, and each listed peer gets back its connections among the listed peers. -/
theorem connBitmap_round_trip (connMap : PeerMap (Finset PeerId × Version))
    (env : Surroundings) :
    let ids := Node.syncedPeerIds connMap env
    let connBitmap := Node.connBitmapOf connMap ids
    (∀ row < ids.length, ∀ col < ids.length,
      (row * ids.length + col) / 8 < connBitmap.bitmap.length) ∧
    ∀ row p version, ids[row]? = some (p, version) → ∃ connected,
      connMap.lookup p = some (connected, version) ∧
        connBitmap.getConnectedPeers row = some (connected.filter (· ∈ ids.map (·.1))) := by
  intro ids connBitmap
  constructor
  · intro row hrow col hcol
    rw [length_connBitmapOf]
    exact position_inside hrow hcol
  · intro row p version hrow
    obtain ⟨connected, found⟩ := Node.mem_syncedPeerIds (List.mem_of_getElem? hrow)
    refine ⟨connected, found, (getConnectedPeers_connBitmapOf hrow).trans ?_⟩
    simp [connectionsOf, found]

end PeerLink.Sync
