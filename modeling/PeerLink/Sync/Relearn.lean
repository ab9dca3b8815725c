import PeerLink.Sync.Node

/-!
# What a restarted neighbour is sent again

A neighbour that comes back with another session id has lost what it stored. The
versions it had saved of foreign networks are not forgotten with the others, so
an entry that it had under the old session is not sent to it again.
-/

namespace PeerLink.Sync

open Route

/-! ## What a table of saved versions covers -/

section
variable {K : Type} [DecidableEq K]

/-- The table says that the peer has this version of `key`, or a later one. -/
def Covers (saved : AList fun _ : K => Version) (key : K) (version : Version) : Prop :=
  ∃ w, saved.lookup key = some w ∧ version ≤ w

theorem covers_raise {saved : AList fun _ : K => Version} {key other : K}
    {version raised : Version} :
    Covers (raise saved other raised) key version ↔
      Covers saved key version ∨ key = other ∧ version ≤ raised := by
  unfold Covers raise
  by_cases here : key = other
  · subst here
    cases saved.lookup key with
    | none | some w => simp
  · simp [AList.lookup_insert_ne here, here]

end

/-- The key at which the loop breaks off because its value is missing. -/
def breaksAt : List ForeignNetworkInfo → Option ForeignNetworkRouteInfoKey
  | [] | ⟨none, _⟩ :: _ => none
  | ⟨some key, none⟩ :: _ => some key
  | ⟨some _, some _⟩ :: rest => breaksAt rest

section
variable {saved : ForeignNetworkMap Version} {infos : List ForeignNetworkInfo}
  {key : ForeignNetworkRouteInfoKey} {version : Version}

theorem Covers.raiseForeign (covered : Covers saved key version) :
    Covers (raiseForeign saved infos).1 key version := by
  fun_induction Sync.raiseForeign saved infos with
  | case1 | case2 => exact covered
  | case3 => exact covers_raise.mpr (.inl covered)
  | case4 saved _ _ _ ih => exact ih (covers_raise.mpr (.inl covered))

theorem covers_breaksAt (breaks : breaksAt infos = some key) :
    Covers (raiseForeign saved infos).1 key 0 := by
  fun_induction Sync.raiseForeign saved infos with
  | case1 | case2 => simp [breaksAt] at breaks
  | case3 saved other _ =>
    simp only [breaksAt, Option.some.injEq] at breaks
    exact covers_raise.mpr (.inr ⟨breaks.symm, le_rfl⟩)
  | case4 _ _ _ _ ih => exact ih breaks

/-- A version that is covered was covered before, or came with the message, or is
the 0 recorded for an item without a value. -/
theorem covers_raiseForeign (covered : Covers (raiseForeign saved infos).1 key version) :
    Covers saved key version ∨
      (∃ value, ⟨some key, some value⟩ ∈ infos ∧ version ≤ value.version) ∨
      version = 0 ∧ breaksAt infos = some key := by
  fun_induction Sync.raiseForeign saved infos with
  | case1 | case2 => exact .inl covered
  | case3 saved other _ =>
    obtain before | ⟨rfl, le⟩ := covers_raise.mp covered
    · exact .inl before
    · exact .inr (.inr ⟨Nat.le_zero.mp le, rfl⟩)
  | case4 saved other value rest ih =>
    obtain before | ⟨sent, mem, le⟩ | broken := ih covered
    · obtain before | ⟨rfl, le⟩ := covers_raise.mp before
      · exact .inl before
      · exact .inr (.inl ⟨value, by simp, le⟩)
    · exact .inr (.inl ⟨sent, by simp [mem], le⟩)
    · exact .inr (.inr broken)

theorem foreignNetworkSaved_iff {session : SyncRouteSession} :
    Node.foreignNetworkSaved session key version = true ↔
      Covers session.dstSavedForeignNetworkVersions key version := by
  unfold Node.foreignNetworkSaved Covers
  cases session.dstSavedForeignNetworkVersions.lookup key <;> simp

/-! ## A session id that changed -/

/-- The session after messages with foreign networks that the neighbour sent or
acknowledged. -/
def afterForeign (session : SyncRouteSession) (within : List (List ForeignNetworkInfo)) :
    SyncRouteSession :=
  within.foldl (fun session infos => (session.updateDstSavedForeignNetworkVersion infos).1) session

/-- One of the messages carried this version of `key`, or a later one. -/
def Told (within : List (List ForeignNetworkInfo)) (key : ForeignNetworkRouteInfoKey)
    (version : Version) : Prop :=
  ∃ infos ∈ within, ∃ value, ⟨some key, some value⟩ ∈ infos ∧ version ≤ value.version

variable {session : SyncRouteSession} {within : List (List ForeignNetworkInfo)}

@[simp] theorem afterForeign_dstPeerId :
    (afterForeign session within).dstPeerId = session.dstPeerId := by
  induction within generalizing session with
  | nil => rfl
  | cons infos rest ih => exact ih

@[simp] theorem updateDstSessionId_foreign (session : SyncRouteSession) (id : SessionId) :
    (session.updateDstSessionId id).dstSavedForeignNetworkVersions =
      session.dstSavedForeignNetworkVersions := by
  unfold SyncRouteSession.updateDstSessionId
  split <;> rfl

theorem Covers.afterForeign
    (covered : Covers session.dstSavedForeignNetworkVersions key version) :
    Covers (afterForeign session within).dstSavedForeignNetworkVersions key version := by
  induction within generalizing session with
  | nil => exact covered
  | cons infos rest ih => exact ih covered.raiseForeign

theorem covers_afterForeign_breaksAt (mem : infos ∈ within)
    (breaks : breaksAt infos = some key) :
    Covers (afterForeign session within).dstSavedForeignNetworkVersions key 0 := by
  induction within generalizing session with
  | nil => simp at mem
  | cons first rest ih =>
    obtain rfl | mem := List.mem_cons.mp mem
    · have covered : Covers (session.updateDstSavedForeignNetworkVersion
          infos).1.dstSavedForeignNetworkVersions key 0 :=
        covers_breaksAt breaks
      exact covered.afterForeign
    · exact ih mem

theorem covers_afterForeign
    (covered : Covers (afterForeign session within).dstSavedForeignNetworkVersions key version) :
    Covers session.dstSavedForeignNetworkVersions key version ∨ Told within key version ∨
      version = 0 ∧ ∃ infos ∈ within, breaksAt infos = some key := by
  induction within generalizing session with
  | nil => exact .inl covered
  | cons infos rest ih =>
    obtain before | ⟨sent, mem, told⟩ | ⟨zero, broken, mem, breaks⟩ := ih covered
    · obtain before | told | ⟨zero, breaks⟩ := covers_raiseForeign before
      · exact .inl before
      · exact .inr (.inl ⟨infos, by simp, told⟩)
      · exact .inr (.inr ⟨zero, infos, by simp, breaks⟩)
    · exact .inr (.inl ⟨sent, by simp [mem], told⟩)
    · exact .inr (.inr ⟨zero, broken, by simp [mem], breaks⟩)

end

/-! ## The next request -/

namespace Node

/-- The node with the session that it now has. -/
def withSession (node : Node) (session : SyncRouteSession) : Node :=
  { node with sessions := node.sessions.insert session.dstPeerId session }

variable {node : Node} {session : SyncRouteSession} {env : Surroundings}
  {key : ForeignNetworkRouteInfoKey} {entry : ForeignNetworkRouteInfoEntry}

theorem mem_buildForeignNetworkInfo :
    (∃ infos, node.buildForeignNetworkInfo session env = some infos ∧
        ⟨some key, some entry⟩ ∈ infos) ↔
      node.syncedRouteInfo.foreignNetwork.lookup key = some entry ∧
        key.peerId ≠ session.dstPeerId ∧
        foreignNetworkSaved session key entry.version = false := by
  have stored : ⟨key, entry⟩ ∈ env.orders.foreignNetwork.order
      node.syncedRouteInfo.foreignNetwork.entries ↔
        node.syncedRouteInfo.foreignNetwork.lookup key = some entry :=
    env.orders.foreignNetwork.mem_entries
  rw [← stored]
  constructor
  · rintro ⟨infos, built, mem⟩
    rw [nonempty_eq_some built] at mem
    obtain ⟨item, kept, same⟩ := List.mem_map.mp mem
    cases same
    simpa using kept
  · intro due
    have kept := List.mem_map_of_mem
      (f := fun item : Σ _ : ForeignNetworkRouteInfoKey, ForeignNetworkRouteInfoEntry =>
        (⟨some item.1, some item.2⟩ : ForeignNetworkInfo))
      (List.mem_filter.mpr ⟨due.1, by simpa using due.2⟩ :
        _ ∈ (env.orders.foreignNetwork.order node.syncedRouteInfo.foreignNetwork.entries).filter
          fun item => item.1.peerId != session.dstPeerId &&
            !foreignNetworkSaved session item.1 item.2.version)
    refine ⟨_, ?_, kept⟩
    unfold buildForeignNetworkInfo nonempty
    rw [if_neg]
    simp only [List.isEmpty_iff]
    exact List.ne_nil_of_mem kept

/-- The next request to the destination of `session` is built, and carries `entry`. -/
def SendsForeign (node : Node) (session : SyncRouteSession) (asInitiator : Bool)
    (env : Surroundings) (key : ForeignNetworkRouteInfoKey)
    (entry : ForeignNetworkRouteInfoEntry) : Prop :=
  ∃ node' request pending infos,
    (node.withSession session).sendSyncRoute session.dstPeerId asInitiator env =
        some (node', request, pending) ∧
      request.foreignNetworkInfos = some infos ∧ ⟨some key, some entry⟩ ∈ infos

theorem sendsForeign_iff {asInitiator : Bool} :
    node.SendsForeign session asInitiator env key entry ↔
      node.syncedRouteInfo.foreignNetwork.lookup key = some entry ∧
        key.peerId ≠ session.dstPeerId ∧
        foreignNetworkSaved session key entry.version = false := by
  have found : (node.withSession session).sessions.lookup session.dstPeerId = some session :=
    AList.lookup_insert _
  rw [← @mem_buildForeignNetworkInfo node session env]
  constructor
  · rintro ⟨node', request, pending, infos, sent, carried, mem⟩
    obtain ⟨session', found', sent⟩ := Option.bind_eq_some_iff.mp sent
    cases found.symm.trans found'
    simp only at sent
    split at sent
    · cases sent
    · cases sent
      exact ⟨infos, carried, mem⟩
  · rintro ⟨infos, built, mem⟩
    have built' : (node.withSession session).buildForeignNetworkInfo session env = some infos :=
      built
    unfold SendsForeign sendSyncRoute
    simp [found, built', mem]

/-- An entry that the destination neither owns nor was told of, nor has told. -/
structure Due (node : Node) (dstPeerId : PeerId) (within : List (List ForeignNetworkInfo))
    (key : ForeignNetworkRouteInfoKey) (entry : ForeignNetworkRouteInfoEntry) : Prop where
  stored : node.syncedRouteInfo.foreignNetwork.lookup key = some entry
  owner : key.peerId ≠ dstPeerId
  untold : ¬ Told within key entry.version

/-- `id` is seen as the session id of the destination, and `within` is what it sends and
acknowledges from then on: the next request carries everything else. -/
def Relearns (node : Node) (session : SyncRouteSession) (id : SessionId)
    (within : List (List ForeignNetworkInfo)) (asInitiator : Bool) (env : Surroundings) : Prop :=
  ∀ key entry, node.Due session.dstPeerId within key entry →
    node.SendsForeign (afterForeign (session.updateDstSessionId id) within) asInitiator env key
      entry

/-- **Relearning foreign networks.** The next request carries everything that the
destination has yet to learn exactly if the session it had before covered none of it. A
version 0 is also taken for saved when a message broke off at its key. -/
theorem relearns_iff (node : Node) (session : SyncRouteSession) (id : SessionId)
    (within : List (List ForeignNetworkInfo)) (asInitiator : Bool) (env : Surroundings) :
    node.Relearns session id within asInitiator env ↔
      ∀ key entry, node.Due session.dstPeerId within key entry →
        foreignNetworkSaved session key entry.version = false ∧
          (entry.version = 0 → ∀ infos ∈ within, breaksAt infos ≠ some key) := by
  refine forall₂_congr fun key entry => forall_congr' fun due => ?_
  rw [sendsForeign_iff, ← Bool.not_eq_true, ← Bool.not_eq_true, foreignNetworkSaved_iff,
    foreignNetworkSaved_iff, afterForeign_dstPeerId,
    SyncRouteSession.updateDstSessionId_dstPeerId]
  constructor
  · rintro ⟨-, -, uncovered⟩
    refine ⟨fun before => uncovered ?_, fun zero infos mem breaks => uncovered ?_⟩
    · apply Covers.afterForeign
      rwa [updateDstSessionId_foreign]
    · rw [zero]
      exact covers_afterForeign_breaksAt mem breaks
  · rintro ⟨unsaved, unbroken⟩
    refine ⟨due.stored, due.owner, fun covered => ?_⟩
    obtain before | told | ⟨zero, infos, mem, breaks⟩ := covers_afterForeign covered
    · exact unsaved (by rwa [updateDstSessionId_foreign] at before)
    · exact due.untold told
    · exact unbroken zero infos mem breaks

/-! ### A neighbour that restarts -/

def servedKey : ForeignNetworkRouteInfoKey := ⟨3, "n"⟩

def servedEntry : ForeignNetworkRouteInfoEntry := ⟨[4], 5, [], 6⟩

/-- Node 1 has told its neighbour 2 about a network that peer 3 serves. -/
def servedSession : SyncRouteSession :=
  (((SyncRouteSession.new 1 2 10).updateDstSessionId 7).updateDstSavedForeignNetworkVersion
    [⟨some servedKey, some servedEntry⟩]).1

def servedNode : Node :=
  { Node.new 1 0 with
    syncedRouteInfo := SyncedRouteInfo.new.updateForeignNetwork
      [⟨some servedKey, some servedEntry⟩] }

/-- The neighbour restarts with session id 8 and is not told again. -/
theorem servedSession_not_relearned :
    8 ≠ servedSession.dstSessionId ∧
      ∀ asInitiator env, ¬ servedNode.Relearns servedSession 8 [] asInitiator env := by
  refine ⟨by decide, fun asInitiator env relearns => ?_⟩
  have due : servedNode.Due servedSession.dstPeerId [] servedKey servedEntry :=
    ⟨by decide, by decide, by simp [Told]⟩
  have sent := sendsForeign_iff.mp (relearns _ _ due)
  exact absurd sent.2.2 (by decide)

end Node

end PeerLink.Sync
