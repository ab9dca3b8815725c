import PeerLink.Sync.Convergence

/-!
# A batch of peer infos

`update_peer_infos` checks and stores its infos in one loop and raises the version
after it. Where a check fails, what came before it in the batch stays stored and is
not announced.
-/

namespace PeerLink.Sync

open Route Best SyncedRouteInfo

section
variable (me : PeerId) (routeId : Nat) (dst : PeerId)

variable (s : SyncedRouteInfo)

/-- The checks that the loop makes on one item before it is stored. -/
def Passes (info : RoutePeerInfo) (raw : Option RawPeerInfo) : Prop :=
  s.checkDuplicatePeerId me routeId dst
      (if info.peerId = dst then (s.peerInfos.lookup dst).map (·.peerRouteId) else none) info =
    none ∧ raw.map (·.known.peerId) = some info.peerId

/-- The stored infos together with infos of the batch, the newest of each peer. -/
def merged (infos : List RoutePeerInfo) : SyncedRouteInfo :=
  { s with peerInfos := keepAll infoRank s.peerInfos (keyed infos) }

/-- An info that the store will not take: it has that version or a later one. -/
def Stale (info : RoutePeerInfo) : Prop := s.HasPeer info.peerId info.version

/-! ## One item -/

variable {me routeId dst} {s s' : SyncedRouteInfo}
  {info : RoutePeerInfo} {infos : List RoutePeerInfo} {raw : RawPeerInfo}
  {raws : List RawPeerInfo} {need : Bool}

theorem Passes.congr (same : s'.peerInfos = s.peerInfos) {raw : Option RawPeerInfo} :
    Passes me routeId dst s' info raw ↔ Passes me routeId dst s info raw := by
  obtain ⟨peerInfos', _, _, _, _⟩ := s'
  obtain rfl : peerInfos' = s.peerInfos := same
  exact Iff.rfl

/-- The item is stored and the loop goes on, or it stops there. -/
theorem storePeerInfos_cons :
    (∃ raw rest, raws = raw :: rest ∧ Passes me routeId dst s info (some raw) ∧
        storePeerInfos me routeId dst (info :: infos) raws (s, need) =
          storePeerInfos me routeId dst infos rest (s.storePeerInfo info raw need)) ∨
      ¬ Passes me routeId dst s info (raws[0]?) ∧ ∃ fault,
        storePeerInfos me routeId dst (info :: infos) raws (s, need) = ((s, need), some fault) := by
  cases raws with
  | nil => exact .inr ⟨(nomatch ·.2), _, rfl⟩
  | cons raw rest =>
    by_cases pass : Passes me routeId dst s info (some raw)
    · obtain ⟨check, named⟩ := id pass
      have same : raw.known.peerId = info.peerId := Option.some.inj named
      refine .inl ⟨raw, rest, rfl, pass, ?_⟩
      simp [storePeerInfos, check, same, ↓reduceIte]
    · refine .inr ⟨pass, ?_⟩
      simp only [storePeerInfos]
      split
      · exact ⟨_, rfl⟩
      · rename_i check
        rw [if_pos fun same => pass ⟨check, congrArg some same⟩]
        exact ⟨_, rfl⟩

theorem storePeerInfo_stale (stale : Stale s info) :
    s.storePeerInfo info raw need = (s, need) := by
  obtain ⟨old, found, le⟩ := stale
  simp [storePeerInfo, found, Nat.not_lt.mpr le]

theorem storePeerInfo_fresh (fresh : ¬ Stale s info) :
    s.storePeerInfo info raw need = (s.putPeerInfo info raw, true) := by
  obtain ⟨-, stored⟩ | ⟨old, found, older, -⟩ := s.storePeerInfo_cases info raw need
  · exact stored
  · exact absurd ⟨old, found, older⟩ fresh

theorem merged_cons (infos : List RoutePeerInfo) :
    (merged (s.storePeerInfo info raw need).1 infos).peerInfos =
      (merged s (info :: infos)).peerInfos := by
  simp only [merged, (storePeerInfo_keeps s info raw need).peerInfos]
  rfl

/-! ## The whole loop -/

variable {p : PeerId}

/-- The version is not touched, and without a note nothing has changed. -/
theorem storePeerInfos_frame (infos : List RoutePeerInfo) (raws : List RawPeerInfo)
    (st : SyncedRouteInfo × Bool) :
    let result := (storePeerInfos me routeId dst infos raws st).1
    result.1.version = st.1.version ∧ (st.2 = true → result.2 = true) ∧
      (result.2 = true ∨ result = st) := by
  induction infos generalizing raws st with
  | nil => exact ⟨rfl, id, .inr rfl⟩
  | cons info rest ih =>
    obtain ⟨s, need⟩ := st
    obtain ⟨raw, raws, rfl, -, next⟩ | ⟨-, fault, stopped⟩ :=
      @storePeerInfos_cons me routeId dst s info rest raws need
    · rw [next]
      obtain ⟨version, noted, frame⟩ := ih raws (s.storePeerInfo info raw need)
      obtain ⟨-, stored⟩ | ⟨-, -, -, skipped⟩ := s.storePeerInfo_cases info raw need
      · rw [stored] at version noted frame ⊢
        exact ⟨version, fun _ => noted rfl, .inl (noted rfl)⟩
      · rw [skipped] at version noted frame ⊢
        exact ⟨version, noted, frame⟩
    · rw [stopped]
      exact ⟨rfl, id, .inr rfl⟩

/-- An info that is stored after the loop was stored before it, or is one of the batch
that was news. -/
theorem storePeerInfos_origin {st : SyncedRouteInfo × Bool}
    (found : (storePeerInfos me routeId dst infos raws st).1.1.peerInfos.lookup p = some info) :
    st.1.peerInfos.lookup p = some info ∨
      info ∈ infos ∧ info.peerId = p ∧ ¬ Stale st.1 info := by
  induction infos generalizing raws st with
  | nil => exact .inl found
  | cons head rest ih =>
    obtain ⟨s, need⟩ := st
    obtain ⟨raw, raws, rfl, -, next⟩ | ⟨-, fault, stopped⟩ :=
      @storePeerInfos_cons me routeId dst s head rest raws need
    · rw [next] at found
      have grows := (storePeerInfo_le s head raw need).1
      obtain before | ⟨mem, named, news⟩ := ih found
      · by_cases stale : Stale s head
        · rw [storePeerInfo_stale stale] at before
          exact .inl before
        · rw [storePeerInfo_fresh stale] at before
          obtain there | ⟨rfl, rfl⟩ := lookup_insert_origin before
          · exact .inl there
          · exact .inr ⟨by simp, rfl, stale⟩
      · exact .inr ⟨by simp [mem], named, fun stale => news (grows.peers _ _ stale)⟩
    · rw [stopped] at found
      exact .inl found

theorem updatePeerInfos_origin
    (found : (s.updatePeerInfos me routeId dst infos raws).1.peerInfos.lookup p = some info) :
    s.peerInfos.lookup p = some info ∨ info ∈ infos ∧ info.peerId = p ∧ ¬ Stale s info := by
  obtain ⟨need, result⟩ := updatePeerInfos_eq s me routeId dst infos raws
  rw [result] at found
  exact storePeerInfos_origin (by cases need <;> exact found)

/-- The loop gets to its end if every item passes against the newest infos before it. -/
theorem storePeerInfos_returns_iff (infos : List RoutePeerInfo) (raws : List RawPeerInfo)
    (s : SyncedRouteInfo) (need : Bool) :
    (storePeerInfos me routeId dst infos raws (s, need)).2 = none ↔
      ∀ (k : Nat) (info : RoutePeerInfo), infos[k]? = some info →
        Passes me routeId dst (merged s (infos.take k)) info (raws[k]?) := by
  induction infos generalizing raws s need with
  | nil => simp [storePeerInfos]
  | cons info rest ih =>
    have here : Passes me routeId dst (merged s []) info (raws[0]?) ↔
        Passes me routeId dst s info (raws[0]?) := Passes.congr rfl
    obtain ⟨raw, raws, rfl, pass, next⟩ | ⟨fail, fault, stopped⟩ :=
      @storePeerInfos_cons me routeId dst s info rest raws need
    · rw [next, ih]
      constructor
      · intro later k
        cases k with
        | zero =>
          rintro _ ⟨⟩
          exact here.mpr pass
        | succ k => exact fun other found => (Passes.congr (merged_cons _)).mp (later k other found)
      · intro all k other found
        exact (Passes.congr (merged_cons _)).mpr (all (k + 1) other found)
    · rw [stopped]
      exact iff_of_false (by simp) fun all => fail (here.mp (all 0 info rfl))

/-- The first item to fail comes after stale ones only, so it fails against what is
stored. -/
def StopsUnchanged (me : PeerId) (routeId : Nat) (dst : PeerId) (s : SyncedRouteInfo)
    (infos : List RoutePeerInfo) (raws : List RawPeerInfo) : Prop :=
  ∃ (k : Nat) (info : RoutePeerInfo), infos[k]? = some info ∧
    ¬ Passes me routeId dst s info (raws[k]?) ∧
    ∀ j < k, ∀ other, infos[j]? = some other →
      Stale s other ∧ Passes me routeId dst s other (raws[j]?)

theorem StopsUnchanged.loop (stops : StopsUnchanged me routeId dst s infos raws) :
    ∃ fault, storePeerInfos me routeId dst infos raws (s, need) = ((s, need), some fault) := by
  obtain ⟨k, info, found, fail, before⟩ := stops
  induction infos generalizing raws k with
  | nil => simp at found
  | cons first rest ih =>
    obtain ⟨raw, raws, rfl, pass, next⟩ | ⟨failed, stops⟩ :=
      @storePeerInfos_cons me routeId dst s first rest raws need
    · cases k with
      | zero =>
        cases found
        exact absurd pass fail
      | succ k =>
        rw [next, storePeerInfo_stale (before 0 (Nat.succ_pos k) first rfl).1]
        apply ih k found fail
        intro j hj other hother
        exact before (j + 1) (Nat.succ_lt_succ hj) other hother
    · exact stops

/-- A loop that stops without a change stops behind stale items. -/
theorem stopsUnchanged_of_loop
    (stopped : (storePeerInfos me routeId dst infos raws (s, need)).2 ≠ none)
    (same : ∀ p, (storePeerInfos me routeId dst infos raws (s, need)).1.1.peerInfos.lookup p =
      s.peerInfos.lookup p) :
    StopsUnchanged me routeId dst s infos raws := by
  induction infos generalizing raws with
  | nil => exact absurd rfl stopped
  | cons info rest ih =>
    obtain ⟨raw, raws, rfl, pass, next⟩ | ⟨fail, -⟩ :=
      @storePeerInfos_cons me routeId dst s info rest raws need
    · rw [next] at stopped
      simp only [next] at same
      -- the item's version is stored in the end, so it was stored before
      have stale : Stale s info := by
        have held := (storePeerInfos_le me routeId dst rest raws
          (s.storePeerInfo info raw need)).1.peers _ _ (storePeerInfo_le s info raw need).2
        obtain ⟨old, found, le⟩ := held
        exact ⟨old, (same _).symm.trans found, le⟩
      rw [storePeerInfo_stale stale] at stopped
      simp only [storePeerInfo_stale stale] at same
      obtain ⟨k, other, found, fail, before⟩ := ih stopped same
      refine ⟨k + 1, other, found, fail, fun j hj item hitem => ?_⟩
      cases j with
      | zero =>
        cases hitem
        exact ⟨stale, pass⟩
      | succ j => exact before j (Nat.lt_of_succ_lt_succ hj) item hitem
    · exact ⟨0, info, rfl, fail, nofun⟩

/-! ## All or nothing -/

def Changed (s s' : SyncedRouteInfo) : Prop :=
  ∃ p, s'.peerInfos.lookup p ≠ s.peerInfos.lookup p ∨
    s'.rawPeerInfos.lookup p ≠ s.rawPeerInfos.lookup p

/-- A change is announced by the version, and an error means that nothing changed. -/
structure AllOrNothing (s : SyncedRouteInfo) (result : SyncedRouteInfo × Option Fault) :
    Prop where
  announced : Changed s result.1 → s.version < result.1.version
  atomic : ∀ e, result.2 = some (.error e) → ¬ Changed s result.1

theorem not_changed_self (s : SyncedRouteInfo) : ¬ Changed s s := by simp [Changed]

/-- A batch of old infos leaves everything as it is. -/
theorem storePeerInfos_stale (stale : ∀ info ∈ infos, Stale s info) :
    (storePeerInfos me routeId dst infos raws (s, need)).1 = (s, need) := by
  induction infos generalizing raws with
  | nil => rfl
  | cons info rest ih =>
    obtain ⟨raw, raws, rfl, -, next⟩ | ⟨-, fault, stopped⟩ :=
      @storePeerInfos_cons me routeId dst s info rest raws need
    · rw [next, storePeerInfo_stale (stale info (by simp))]
      exact ih fun other mem => stale other (List.mem_cons_of_mem _ mem)
    · rw [stopped]

/-- An info that the store did not have makes a difference. -/
theorem changed_of_fresh (returns : (s.updatePeerInfos me routeId dst infos raws).2 = none)
    (mem : info ∈ infos) (fresh : ¬ Stale s info) :
    Changed s (s.updatePeerInfos me routeId dst infos raws).1 := by
  obtain ⟨old, found, le⟩ := (updatePeerInfos_le s me routeId dst infos raws).2 returns info mem
  refine ⟨info.peerId, .inl fun same => fresh ⟨old, same.symm.trans found, le⟩⟩

/-- A batch that is stored is announced, unless the version wraps. -/
theorem allOrNothing_iff_of_returns
    (returns : (storePeerInfos me routeId dst infos raws (s, false)).2 = none) :
    AllOrNothing s (s.updatePeerInfos me routeId dst infos raws) ↔
      ((∃ info ∈ infos, ¬ Stale s info) → s.version + 1 < 2 ^ 32) := by
  obtain ⟨version, -, frame⟩ :=
    @storePeerInfos_frame me routeId dst infos raws (s, false)
  have returned := (updatePeerInfos_snd s me routeId dst infos raws).trans returns
  have differs := fun info => @changed_of_fresh me routeId dst s info infos raws returned
  have idle := @storePeerInfos_stale me routeId dst s infos raws false
  unfold updatePeerInfos at *
  cases loop : storePeerInfos me routeId dst infos raws (s, false) with
  | mk st fault =>
    obtain ⟨s', need⟩ := st
    simp only [loop] at version frame returns differs idle ⊢
    subst returns
    obtain rfl | same := frame
    · -- the version goes up, and something is new
      have raised : s.version < (s'.incVersionIf true).version ↔ s.version + 1 < 2 ^ 32 := by
        rw [← version]
        exact AtomicVersion.lt_inc_iff
      constructor
      · rintro whole ⟨info, mem, fresh⟩
        exact raised.mp (whole.announced (differs info mem fresh))
      · intro fits
        refine ⟨fun _ => raised.mpr (fits ?_), nofun⟩
        by_contra stale
        simp only [not_exists, not_and, not_not] at stale
        cases idle stale
    · cases same
      refine iff_of_true ⟨fun changed => absurd changed (not_changed_self s), nofun⟩ ?_
      rintro ⟨info, mem, fresh⟩
      exact absurd (differs info mem fresh) (not_changed_self s)

/-- After a fault the version is what it was, so nothing may have changed. -/
theorem unchanged_of_fault {fault : Fault}
    (stopped : storePeerInfos me routeId dst infos raws (s, false) = ((s', need), some fault))
    (whole : AllOrNothing s (s.updatePeerInfos me routeId dst infos raws)) : ¬ Changed s s' := by
  have version := (@storePeerInfos_frame me routeId dst infos raws (s, false)).1
  have result : s.updatePeerInfos me routeId dst infos raws = (s', some fault) := by
    simp [updatePeerInfos, stopped]
  rw [stopped] at version
  rw [result] at whole
  intro changed
  have larger := whole.announced changed
  exact absurd larger (by simp only at version; simp [version])

/-- **Batches of peer infos.** An update is all or nothing, and announced, exactly if no
item of the batch fails against the newest infos among the stored ones and its
predecessors, and the version does not wrap if one is stored; or the first to fail comes
after items that are not stored. -/
theorem updatePeerInfos_allOrNothing_iff (me : PeerId) (routeId : Nat) (dst : PeerId)
    (s : SyncedRouteInfo) (infos : List RoutePeerInfo) (raws : List RawPeerInfo) :
    AllOrNothing s (s.updatePeerInfos me routeId dst infos raws) ↔
      ((∀ (k : Nat) (info : RoutePeerInfo), infos[k]? = some info →
        Passes me routeId dst (merged s (infos.take k)) info (raws[k]?)) ∧
        ((∃ info ∈ infos, ¬ Stale s info) → s.version + 1 < 2 ^ 32)) ∨
      StopsUnchanged me routeId dst s infos raws := by
  rw [← storePeerInfos_returns_iff infos raws s false]
  constructor
  · intro whole
    cases loop : storePeerInfos me routeId dst infos raws (s, false) with
    | mk st fault =>
      cases fault with
      | none =>
        have returns : (storePeerInfos me routeId dst infos raws (s, false)).2 = none := by
          rw [loop]
        exact .inl ⟨rfl, (allOrNothing_iff_of_returns returns).mp whole⟩
      | some fault =>
        have same := unchanged_of_fault loop whole
        right
        apply @stopsUnchanged_of_loop me routeId dst s infos raws false (by simp [loop])
        intro p
        by_contra differ
        rw [loop] at differ
        exact same ⟨p, .inl differ⟩
  · rintro (⟨returns, fits⟩ | stops)
    · exact (allOrNothing_iff_of_returns returns).mpr fits
    · obtain ⟨fault, loop⟩ := @StopsUnchanged.loop me routeId dst s infos raws false stops
      have result : s.updatePeerInfos me routeId dst infos raws = (s, some fault) := by
        simp [updatePeerInfos, loop]
      rw [result]
      exact ⟨fun changed => absurd changed (not_changed_self s), fun _ _ => not_changed_self s⟩

end

/-! ### A neighbour that lost its route id -/

/-- Node 1 knows peer 2 with route id 20 and version 5. -/
def knowsTwo : SyncedRouteInfo :=
  (SyncedRouteInfo.new.updatePeerInfos 1 10 2
    [{ RoutePeerInfo.new with peerId := 2, version := 5, peerRouteId := 20 }]
    [⟨{ RoutePeerInfo.new with peerId := 2, version := 5, peerRouteId := 20 }, []⟩]).1

def newThree : RoutePeerInfo := { RoutePeerInfo.new with peerId := 3, version := 1 }

/-- Peer 2 after a restart, with another route id and a lower version. -/
def otherTwo : RoutePeerInfo :=
  { RoutePeerInfo.new with peerId := 2, version := 1, peerRouteId := 21 }

/-- The batch is refused, but peer 3 is stored and not announced. -/
theorem refused_batch_stored :
    let result := knowsTwo.updatePeerInfos 1 10 2 [newThree, otherTwo]
      [⟨newThree, []⟩, ⟨otherTwo, []⟩]
    result.2 = some (.error .duplicatePeerId) ∧ ¬ AllOrNothing knowsTwo result := by
  intro result
  have refused : result.2 = some (.error .duplicatePeerId) := by decide +kernel
  refine ⟨refused, fun whole => whole.atomic _ refused ⟨3, .inl ?_⟩⟩
  decide +kernel

end PeerLink.Sync
