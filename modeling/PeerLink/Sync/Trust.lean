import PeerLink.Sync.Batch

/-!
# Trusted groups

After a batch of infos was stored, `verify_and_update_group_trusts` checks the group
proofs in it. It reads the received infos and not the stored ones, so an old copy of an
info that the store has refused decides which groups its peer is in. A proof that is held
already is not checked again, whatever has become of the secret.
-/

namespace PeerLink.Sync

open Route Best SyncedRouteInfo

structure GroupIdentity where
  groupName : String
  groupSecret : String

/-- The trusted groups of one peer with their proofs. -/
abbrev TrustedGroups := AList fun _ : String => List UInt8

/-- `group_trust_map` and its cache. -/
structure GroupTrusts where
  groupTrustMap : PeerMap TrustedGroups
  groupTrustMapCache : PeerMap (List String)

def GroupTrusts.new : GroupTrusts := ⟨∅, ∅⟩

/-- Declarations collected into a hash map: the last of one name stays. -/
def localSecrets (declarations : List GroupIdentity) : AList fun _ : String => String :=
  declarations.foldl (fun secrets g => secrets.insert g.groupName g.groupSecret) ∅

section
variable (verify : PeerGroupInfo → String → PeerId → Bool) (keys : IterOrder String)
  (secrets : AList fun _ : String => String)

variable (trusts : GroupTrusts) (oldTrustedGroups : Option TrustedGroups) (info : RoutePeerInfo)
  (p : PeerId)

/-- One pass of the loop of `verify_groups`. -/
def verifyGroup (peerId : PeerId) (trusted : TrustedGroups) (group : PeerGroupInfo) :
    TrustedGroups :=
  if oldTrustedGroups.bind (·.lookup group.groupName) = some group.groupProof then
    trusted.insert group.groupName group.groupProof
  else
    match secrets.lookup group.groupName with
    | some localSecret =>
      if verify group localSecret peerId then
        trusted.insert group.groupName group.groupProof
      else
        trusted
    | none => trusted

/-- The closure `verify_groups`. -/
def verifyGroups : TrustedGroups :=
  info.groups.foldl (verifyGroup verify secrets oldTrustedGroups info.peerId) ∅

/-- The entry of one received info. -/
def verifyPeer : GroupTrusts :=
  match trusts.groupTrustMap.lookup info.peerId with
  | some oldTrustedGroups =>
    let trusted := verifyGroups verify secrets (some oldTrustedGroups) info
    if trusted.entries = [] then
      ⟨trusts.groupTrustMap.erase info.peerId, trusts.groupTrustMapCache.erase info.peerId⟩
    else
      ⟨trusts.groupTrustMap.insert info.peerId trusted,
        trusts.groupTrustMapCache.insert info.peerId (keys.order trusted.keys)⟩
  | none =>
    let trusted := verifyGroups verify secrets none info
    if trusted.entries = [] then
      trusts
    else
      ⟨trusts.groupTrustMap.insert info.peerId trusted,
        trusts.groupTrustMapCache.insert info.peerId (keys.order trusted.keys)⟩

def verifyAndUpdateGroupTrusts (peerInfos : List RoutePeerInfo)
    (localGroupDeclarations : List GroupIdentity) : GroupTrusts :=
  peerInfos.foldl (verifyPeer verify keys (localSecrets localGroupDeclarations)) trusts

/-- The proof for which the peer is trusted to be in the group. -/
def GroupTrusts.proofOf (groupName : String) : Option (List UInt8) :=
  (trusts.groupTrustMap.lookup p).bind (·.lookup groupName)

/-! ## One info -/

/-- The proof verifies under the declared secret of its group. -/
def Verifies (group : PeerGroupInfo) : Prop :=
  ∃ localSecret, secrets.lookup group.groupName = some localSecret ∧
    verify group localSecret p = true

/-- The loop takes the group: its proof is held, or verifies. -/
def Taken (group : PeerGroupInfo) : Prop :=
  oldTrustedGroups.bind (·.lookup group.groupName) = some group.groupProof ∨
    Verifies verify secrets p group

variable {verify keys secrets} {old : Option TrustedGroups} {p : PeerId}
  {trusted : TrustedGroups} {group : PeerGroupInfo}

theorem verifyGroup_taken (taken : Taken verify secrets old p group) :
    verifyGroup verify secrets old p trusted group =
      trusted.insert group.groupName group.groupProof := by
  unfold verifyGroup
  obtain held | ⟨localSecret, declared, verified⟩ := taken
  · rw [if_pos held]
  · simp [declared, verified]

theorem verifyGroup_not_taken (not : ¬ Taken verify secrets old p group) :
    verifyGroup verify secrets old p trusted group = trusted := by
  unfold verifyGroup
  rw [if_neg fun held => not (.inl held)]
  cases declared : secrets.lookup group.groupName with
  | none => rfl
  | some localSecret =>
    have refused : ¬ verify group localSecret p = true :=
      fun verified => not (.inr ⟨localSecret, declared, verified⟩)
    simp [refused]

/-- The names that are trusted after the loop are those before it and those of the groups
that are taken. -/
theorem verifyGroups_names (groups : List PeerGroupInfo) (trusted : TrustedGroups)
    (name : String) :
    (∃ proof, (groups.foldl (verifyGroup verify secrets old p) trusted).lookup name = some proof) ↔
      (∃ proof, trusted.lookup name = some proof) ∨
        ∃ group ∈ groups, group.groupName = name ∧ Taken verify secrets old p group := by
  induction groups generalizing trusted with
  | nil => simp
  | cons group rest ih =>
    rw [List.foldl_cons, ih]
    by_cases taken : Taken verify secrets old p group
    · rw [verifyGroup_taken taken]
      by_cases same : name = group.groupName
      · subst same
        simp [taken]
      · simp [AList.lookup_insert_ne same, Ne.symm same]
    · rw [verifyGroup_not_taken taken]
      simp [taken]

/-- A proof that is there after the loop was there before it or belongs to a group that is
taken. -/
theorem verifyGroups_proofs {groups : List PeerGroupInfo} {name : String} {proof : List UInt8}
    (found : (groups.foldl (verifyGroup verify secrets old p) trusted).lookup name = some proof) :
    trusted.lookup name = some proof ∨
      ⟨name, proof⟩ ∈ groups ∧ Taken verify secrets old p ⟨name, proof⟩ := by
  induction groups generalizing trusted with
  | nil => exact .inl found
  | cons group rest ih =>
    obtain before | ⟨mem, taken⟩ := ih found
    · by_cases taken : Taken verify secrets old p group
      · rw [verifyGroup_taken taken] at before
        obtain there | ⟨rfl, rfl⟩ := lookup_insert_origin before
        · exact .inl there
        · exact .inr ⟨by simp, taken⟩
      · rw [verifyGroup_not_taken taken] at before
        exact .inl before
    · exact .inr ⟨by simp [mem], taken⟩

/-- One info decides about its own peer and about no other. -/
theorem proofOf_verifyPeer (name : String) :
    (verifyPeer verify keys secrets trusts info).proofOf info.peerId name =
      (verifyGroups verify secrets (trusts.groupTrustMap.lookup info.peerId) info).lookup name := by
  have empty : ∀ {trusted : TrustedGroups}, trusted.entries = [] → trusted.lookup name = none := by
    intro trusted none
    simp [AList.lookup, none]
  unfold verifyPeer GroupTrusts.proofOf
  cases found : trusts.groupTrustMap.lookup info.peerId with
  | none =>
    dsimp only
    split_ifs with none
    · rw [found, empty none]
      rfl
    · rw [AList.lookup_insert]
      rfl
  | some old =>
    dsimp only
    split_ifs with none
    · rw [AList.lookup_erase, empty none]
      rfl
    · rw [AList.lookup_insert]
      rfl

theorem proofOf_verifyPeer_ne {info : RoutePeerInfo} (other : p ≠ info.peerId) (name : String) :
    (verifyPeer verify keys secrets trusts info).proofOf p name = trusts.proofOf p name := by
  unfold verifyPeer GroupTrusts.proofOf
  split
  · dsimp only
    split
    · rw [AList.lookup_erase_ne other]
    · rw [AList.lookup_insert_ne other]
  · dsimp only
    split
    · rfl
    · rw [AList.lookup_insert_ne other]

/-! ## A batch -/

/-- The trusted groups of the peer are those whose proofs verify. -/
structure Follows (verify : PeerGroupInfo → String → PeerId → Bool)
    (secrets : AList fun _ : String => String) (trusts : GroupTrusts) (p : PeerId)
    (groups : List PeerGroupInfo) : Prop where
  names : ∀ name, (∃ proof, trusts.proofOf p name = some proof) ↔
    ∃ group ∈ groups, group.groupName = name ∧ Verifies verify secrets p group
  proofs : ∀ name proof, trusts.proofOf p name = some proof →
    ⟨name, proof⟩ ∈ groups ∧ Verifies verify secrets p ⟨name, proof⟩

/-- Every proof of the infos that is held for its peer and group still verifies. -/
def HeldVerify (verify : PeerGroupInfo → String → PeerId → Bool)
    (secrets : AList fun _ : String => String) (trusts : GroupTrusts)
    (infos : List RoutePeerInfo) : Prop :=
  ∀ info ∈ infos, ∀ group ∈ info.groups,
    trusts.proofOf info.peerId group.groupName = some group.groupProof →
      Verifies verify secrets info.peerId group

variable {trusts : GroupTrusts} {infos : List RoutePeerInfo}

/-- Where held proofs verify, one info leaves its peer with the groups that verify. -/
theorem verifyPeer_follows {info : RoutePeerInfo}
    (held : HeldVerify verify secrets trusts [info]) :
    Follows verify secrets (verifyPeer verify keys secrets trusts info) info.peerId
      info.groups := by
  have taken : ∀ group ∈ info.groups,
      Taken verify secrets (trusts.groupTrustMap.lookup info.peerId) info.peerId group ↔
        Verifies verify secrets info.peerId group :=
    fun group mem => ⟨fun taken => taken.elim (held info (by simp) group mem) id, .inr⟩
  constructor
  · intro name
    simp only [proofOf_verifyPeer, verifyGroups, verifyGroups_names]
    constructor
    · rintro (⟨proof, none⟩ | ⟨group, mem, named, took⟩)
      · simp at none
      · exact ⟨group, mem, named, (taken group mem).mp took⟩
    · rintro ⟨group, mem, named, verifies⟩
      exact .inr ⟨group, mem, named, (taken group mem).mpr verifies⟩
  · intro name proof found
    rw [proofOf_verifyPeer] at found
    obtain none | ⟨mem, took⟩ := verifyGroups_proofs found
    · simp at none
    · exact ⟨mem, (taken _ mem).mp took⟩

theorem HeldVerify.verifyPeer {info : RoutePeerInfo}
    (held : HeldVerify verify secrets trusts (info :: infos)) :
    HeldVerify verify secrets (verifyPeer verify keys secrets trusts info) infos := by
  intro other mem group hgroup found
  by_cases same : other.peerId = info.peerId
  · have follows := @verifyPeer_follows verify keys secrets trusts info
      fun i hi => held i (by simp_all)
    rw [same] at found ⊢
    exact (follows.proofs _ _ found).2
  · rw [proofOf_verifyPeer_ne trusts same] at found
    exact held other (by simp [mem]) group hgroup found

/-- Infos of other peers change nothing. -/
theorem proofOf_verifyPeers_ne (infos : List RoutePeerInfo) (trusts : GroupTrusts)
    (others : ∀ info ∈ infos, info.peerId ≠ p) (name : String) :
    (infos.foldl (verifyPeer verify keys secrets) trusts).proofOf p name =
      trusts.proofOf p name := by
  induction infos generalizing trusts with
  | nil => rfl
  | cons info rest ih =>
    rw [List.foldl_cons, ih _ fun other mem => others other (by simp [mem])]
    exact proofOf_verifyPeer_ne trusts (others info (by simp)).symm name

/-- The last info of a peer decides. -/
theorem verifyPeers_follows {before after : List RoutePeerInfo} {last : RoutePeerInfo}
    (held : HeldVerify verify secrets trusts (before ++ last :: after))
    (others : ∀ info ∈ after, info.peerId ≠ last.peerId) :
    Follows verify secrets
      ((before ++ last :: after).foldl (verifyPeer verify keys secrets) trusts)
      last.peerId last.groups := by
  induction before generalizing trusts with
  | nil =>
    have here := @verifyPeer_follows verify keys secrets trusts last
      fun info mem => held info (by simp_all)
    simp only [List.nil_append, List.foldl_cons]
    constructor
    · simpa only [proofOf_verifyPeers_ne after _ others] using here.names
    · simpa only [proofOf_verifyPeers_ne after _ others] using here.proofs
  | cons info rest ih => exact ih held.verifyPeer

/-- Only the groups that verify matter. -/
theorem Follows.congr {groups groups' : List PeerGroupInfo}
    (follows : Follows verify secrets trusts p groups)
    (same : ∀ group, Verifies verify secrets p group → (group ∈ groups' ↔ group ∈ groups)) :
    Follows verify secrets trusts p groups' where
  names name := by
    rw [follows.names name]
    constructor
    · rintro ⟨group, mem, named, verifies⟩
      exact ⟨group, (same group verifies).mpr mem, named, verifies⟩
    · rintro ⟨group, mem, named, verifies⟩
      exact ⟨group, (same group verifies).mp mem, named, verifies⟩
  proofs name proof found := by
    obtain ⟨mem, verifies⟩ := follows.proofs name proof found
    exact ⟨(same _ verifies).mpr mem, verifies⟩

/-! ## The cache -/

/-- The cache lists the names of the trusted groups. -/
def GroupTrusts.Cached (trusts : GroupTrusts) : Prop :=
  ∀ p, Option.Rel (fun names trusted => names.Perm trusted.keys)
    (trusts.groupTrustMapCache.lookup p) (trusts.groupTrustMap.lookup p)

/-- What `remove_peer` does to the groups. -/
def GroupTrusts.removePeer (trusts : GroupTrusts) (peerId : PeerId) : GroupTrusts :=
  ⟨trusts.groupTrustMap.erase peerId, trusts.groupTrustMapCache.erase peerId⟩

theorem removePeer_cached (cached : trusts.Cached) (peerId : PeerId) :
    (trusts.removePeer peerId).Cached := by
  intro p
  unfold GroupTrusts.removePeer
  by_cases same : p = peerId
  · subst same
    simp only [AList.lookup_erase]
    exact .none
  · simp only [AList.lookup_erase_ne same]
    exact cached p

theorem verifyPeer_cached (cached : trusts.Cached) (info : RoutePeerInfo) :
    (verifyPeer verify keys secrets trusts info).Cached := by
  have inserted : ∀ trusted : TrustedGroups, GroupTrusts.Cached
      ⟨trusts.groupTrustMap.insert info.peerId trusted,
        trusts.groupTrustMapCache.insert info.peerId (keys.order trusted.keys)⟩ := by
    intro trusted p
    by_cases same : p = info.peerId
    · subst same
      simp only [AList.lookup_insert]
      exact .some (keys.perm _)
    · simp only [AList.lookup_insert_ne same]
      exact cached p
  unfold verifyPeer
  split
  · dsimp only
    split
    · exact removePeer_cached cached _
    · exact inserted _
  · dsimp only
    split
    · exact cached
    · exact inserted _

theorem verifyAndUpdateGroupTrusts_cached (cached : trusts.Cached) (infos : List RoutePeerInfo)
    (declarations : List GroupIdentity) :
    (verifyAndUpdateGroupTrusts verify keys trusts infos declarations).Cached :=
  List.foldlRecOn infos _ cached fun _ cached info _ => verifyPeer_cached cached info

/-- A call that changes the trusted groups. -/
inductive TrustCall where
  | verifyAndUpdate (keys : IterOrder String) (peerInfos : List RoutePeerInfo)
      (localGroupDeclarations : List GroupIdentity)
  | removePeer (peerId : PeerId)

def GroupTrusts.call (verify : PeerGroupInfo → String → PeerId → Bool) (trusts : GroupTrusts) :
    TrustCall → GroupTrusts
  | .verifyAndUpdate keys infos declarations =>
    verifyAndUpdateGroupTrusts verify keys trusts infos declarations
  | .removePeer peerId => trusts.removePeer peerId

/-- **The cache does not part from the map.** After any calls a peer has an entry in both or in
none, and its list names each trusted group once and nothing else. -/
theorem trust_cache_in_sync (verify : PeerGroupInfo → String → PeerId → Bool)
    (calls : List TrustCall) (p : PeerId) :
    let trusts := calls.foldl (GroupTrusts.call verify) .new
    ((trusts.groupTrustMapCache.lookup p).isSome = (trusts.groupTrustMap.lookup p).isSome) ∧
      ∀ names, trusts.groupTrustMapCache.lookup p = some names → names.Nodup ∧
        ∀ name, name ∈ names ↔ ∃ proof, trusts.proofOf p name = some proof := by
  intro trusts
  have cached : trusts.Cached := by
    refine List.foldlRecOn calls _ (fun p => .none) fun trusts cached call _ => ?_
    cases call with
    | verifyAndUpdate keys infos declarations =>
      exact verifyAndUpdateGroupTrusts_cached cached infos declarations
    | removePeer peerId => exact removePeer_cached cached peerId
  have both := cached p
  unfold GroupTrusts.proofOf
  generalize trusts.groupTrustMapCache.lookup p = cache at both
  generalize trusts.groupTrustMap.lookup p = map at both
  cases both with
  | none => simp
  | @some names trusted listed =>
    refine ⟨rfl, ?_⟩
    rintro _ ⟨⟩
    refine ⟨listed.nodup_iff.mpr trusted.keys_nodup, fun name => ?_⟩
    rw [listed.mem_iff, ← AList.mem_keys, mem_iff_lookup]
    rfl

end

/-! ## Runs -/

/-- The last info of its peer in the list. -/
def IsLast (infos : List RoutePeerInfo) (last : RoutePeerInfo) : Prop :=
  ∃ before after, infos = before ++ last :: after ∧ ∀ info ∈ after, info.peerId ≠ last.peerId

variable {infos : List RoutePeerInfo} {info last : RoutePeerInfo}

theorem exists_isLast (mem : info ∈ infos) :
    ∃ last, IsLast infos last ∧ last.peerId = info.peerId := by
  induction infos generalizing info with
  | nil => cases mem
  | cons head rest ih =>
    by_cases later : ∃ other ∈ rest, other.peerId = info.peerId
    · obtain ⟨other, hother, named⟩ := later
      obtain ⟨last, ⟨before, after, rfl, others⟩, same⟩ := ih hother
      exact ⟨last, ⟨head :: before, after, rfl, others⟩, same.trans named⟩
    · obtain rfl | hrest := List.mem_cons.mp mem
      · refine ⟨info, ⟨[], rest, rfl, fun other hother named => ?_⟩, rfl⟩
        exact later ⟨other, hother, named⟩
      · exact absurd ⟨info, hrest, rfl⟩ later

theorem IsLast.mem (h : IsLast infos last) :
    last ∈ infos := by
  obtain ⟨before, after, rfl, -⟩ := h
  simp

/-- The infos of a node, the groups that it declares and those it trusts. -/
structure TrustState where
  synced : SyncedRouteInfo
  declarations : List GroupIdentity
  trusts : GroupTrusts

/-- The infos of a `sync_route_info` request from `dst`. -/
structure InfoRequest where
  dst : PeerId
  peerInfos : List RoutePeerInfo
  rawPeerInfos : List RawPeerInfo
  keys : IterOrder String

section
variable (me : PeerId) (routeId : Nat) (verify : PeerGroupInfo → String → PeerId → Bool)

/-- The part of `do_sync_route_info` about infos. A refused batch returns before the groups
are looked at. -/
def TrustState.process (s : TrustState) (request : InfoRequest) : TrustState :=
  match s.synced.updatePeerInfos me routeId request.dst request.peerInfos request.rawPeerInfos with
  | (synced, some _) => { s with synced }
  | (synced, none) =>
    { s with
      synced
      trusts := verifyAndUpdateGroupTrusts verify request.keys s.trusts request.peerInfos
        s.declarations }

/-- The batch is accepted, the last info of each peer in it proves the same groups as any
newer one there is, and proofs that are held still verify. -/
structure UpToDate (s : TrustState) (request : InfoRequest) : Prop where
  passes : ∀ (k : Nat) (info : RoutePeerInfo), request.peerInfos[k]? = some info →
    Passes me routeId request.dst (merged s.synced (request.peerInfos.take k)) info
      (request.rawPeerInfos[k]?)
  newest : ∀ last, IsLast request.peerInfos last → ∀ info,
    s.synced.peerInfos.lookup last.peerId = some info ∨
      info ∈ request.peerInfos ∧ info.peerId = last.peerId →
    last.version ≤ info.version →
    ∀ group, Verifies verify (localSecrets s.declarations) last.peerId group →
      (group ∈ info.groups ↔ group ∈ last.groups)
  held : HeldVerify verify (localSecrets s.declarations) s.trusts request.peerInfos

/-- The states that node `me` reaches by requests that meet `Allowed` and changes of its
declarations, with the infos of the request that was processed last, if it was the last
step. -/
inductive TrustRun (Allowed : TrustState → InfoRequest → Prop) :
    TrustState → List RoutePeerInfo → Prop
  | new (synced : SyncedRouteInfo) (declarations : List GroupIdentity) :
      TrustRun Allowed ⟨synced, declarations, .new⟩ []
  | request {s : TrustState} {infos : List RoutePeerInfo} (run : TrustRun Allowed s infos)
      (request : InfoRequest) (allowed : Allowed s request) :
      TrustRun Allowed (s.process me routeId verify request) request.peerInfos
  | declare {s : TrustState} {infos : List RoutePeerInfo} (run : TrustRun Allowed s infos)
      (declarations : List GroupIdentity) : TrustRun Allowed { s with declarations } []

variable {me routeId verify} {s : TrustState} {request : InfoRequest}

/-- The trusted groups of the peer are those of its stored info whose proofs verify. -/
def TrustState.Trusted (verify : PeerGroupInfo → String → PeerId → Bool) (s : TrustState)
    (p : PeerId) : Prop :=
  ∃ info, s.synced.peerInfos.lookup p = some info ∧
    Follows verify (localSecrets s.declarations) s.trusts p info.groups

theorem process_trusted (upToDate : UpToDate me routeId verify s request) :
    ∀ info ∈ request.peerInfos, (s.process me routeId verify request).Trusted verify
      info.peerId := by
  intro info mem
  obtain ⟨last, isLast, named⟩ := exists_isLast mem
  have accepted : (s.synced.updatePeerInfos me routeId request.dst request.peerInfos
      request.rawPeerInfos).2 = none := by
    rw [updatePeerInfos_snd]
    exact (storePeerInfos_returns_iff _ _ _ _).mpr upToDate.passes
  obtain ⟨stored, found, newer⟩ := (updatePeerInfos_le s.synced me routeId request.dst
    request.peerInfos request.rawPeerInfos).2 accepted last isLast.mem
  have same := upToDate.newest last isLast stored
    ((updatePeerInfos_origin found).imp_right fun origin => ⟨origin.1, origin.2.1⟩) newer
  have result : s.process me routeId verify request =
      ⟨(s.synced.updatePeerInfos me routeId request.dst request.peerInfos
          request.rawPeerInfos).1, s.declarations,
        verifyAndUpdateGroupTrusts verify request.keys s.trusts request.peerInfos
          s.declarations⟩ := by
    unfold TrustState.process
    split
    · rename_i refused
      simp [refused] at accepted
    · rename_i done
      rw [done]
  obtain ⟨before, after, split, others⟩ := isLast
  have held := upToDate.held
  rw [split] at held
  have follows := @verifyPeers_follows verify request.keys _ s.trusts before after last held others
  rw [← split] at follows
  rw [result, ← named]
  exact ⟨stored, found, follows.congr same⟩

end

/-- **Trust follows the stored infos.** In every run whose requests are up to date when they
come, each peer of a request is trusted, after it, to be in exactly the groups of its stored
info whose proofs verify under the declared secrets. -/
theorem trust_follows_stored {me : PeerId} {routeId : Nat}
    {verify : PeerGroupInfo → String → PeerId → Bool} {s : TrustState}
    {infos : List RoutePeerInfo}
    (run : TrustRun me routeId verify (UpToDate me routeId verify) s infos) :
    ∀ info ∈ infos, s.Trusted verify info.peerId := by
  cases run with
  | new synced declarations => simp
  | request _ request upToDate => exact process_trusted upToDate
  | declare _ declarations => simp

/-! ### A group that was left -/

/-- A proof is `[1]` for the secret "old" and `[2]` for any other. -/
def verifySample (group : PeerGroupInfo) (secret : String) (_ : PeerId) : Bool :=
  group.groupProof = if secret = "old" then [1] else [2]

def adminGroup : PeerGroupInfo := ⟨"admin", [1]⟩

def groupsOfTwo (version : Version) (groups : List PeerGroupInfo) : RoutePeerInfo :=
  { RoutePeerInfo.new with peerId := 2, version, groups }

/-- The info of peer 2, sent by peer `dst`. -/
def infoRequest (dst : PeerId) (info : RoutePeerInfo) : InfoRequest :=
  ⟨dst, [info], [⟨info, []⟩], .stored _⟩

def declaresAdmin : TrustState := ⟨.new, [⟨"admin", "old"⟩], .new⟩

/-- Peer 2 has left the group, and peer 3 relays an older info. -/
def staleRelay : TrustState :=
  (declaresAdmin.process 1 10 verifySample (infoRequest 2 (groupsOfTwo 2 []))).process 1 10
    verifySample (infoRequest 3 (groupsOfTwo 1 [adminGroup]))

theorem staleRelay_trusts_left_group :
    TrustRun 1 10 verifySample (fun _ _ => True) staleRelay [groupsOfTwo 1 [adminGroup]] ∧
      ¬ staleRelay.Trusted verifySample 2 := by
  constructor
  · exact .request (.request (.new _ _) _ trivial) (infoRequest 3 _) trivial
  · have current : staleRelay.synced.peerInfos.lookup 2 = some (groupsOfTwo 2 []) := by
      decide +kernel
    have trusted : staleRelay.trusts.proofOf 2 "admin" = some [1] := by decide +kernel
    rintro ⟨info, stored, follows⟩
    cases Option.some.inj (current.symm.trans stored)
    simpa [groupsOfTwo] using (follows.proofs "admin" [1] trusted).1

/-- Peer 2 proves a group under the old secret. -/
def admitted : TrustState :=
  declaresAdmin.process 1 10 verifySample (infoRequest 2 (groupsOfTwo 1 [adminGroup]))

/-- Peer 2 sends the proof again, and one that does not verify. -/
def secondProof : RoutePeerInfo := groupsOfTwo 2 [adminGroup, ⟨"ops", [9]⟩]

theorem isLast_singleton (h : IsLast [info] last) : last = info := by
  simpa using h.mem

theorem admitted_run :
    TrustRun 1 10 verifySample (UpToDate 1 10 verifySample) admitted
      [groupsOfTwo 1 [adminGroup]] := by
  refine .request (.new _ _) (infoRequest 2 _) ⟨?_, ?_, ?_⟩
  · exact (storePeerInfos_returns_iff _ _ _ false).mp (by decide +kernel)
  · rintro last isLast info (none | ⟨mem, -⟩) -
    · simp [SyncedRouteInfo.new] at none
    · obtain rfl := isLast_singleton isLast
      obtain rfl := List.mem_singleton.mp mem
      exact fun _ _ => Iff.rfl
  · intro info _ group _ none
    simp [GroupTrusts.proofOf, GroupTrusts.new] at none

theorem secondProof_trusted :
    let s := admitted.process 1 10 verifySample (infoRequest 2 secondProof)
    s.Trusted verifySample 2 ∧ s.trusts.proofOf 2 "admin" = some [1] ∧
      s.trusts.proofOf 2 "ops" = none := by
  refine ⟨?_, by decide +kernel, by decide +kernel⟩
  refine trust_follows_stored (.request admitted_run (infoRequest 2 secondProof) ⟨?_, ?_, ?_⟩)
    secondProof (by simp [infoRequest])
  · exact (storePeerInfos_returns_iff _ _ _ false).mp (by decide +kernel)
  · rintro last isLast info (stored | ⟨mem, -⟩) newer
    · obtain rfl := isLast_singleton isLast
      have known : admitted.synced.peerInfos.lookup 2 = some (groupsOfTwo 1 [adminGroup]) := by
        decide +kernel
      cases Option.some.inj (known.symm.trans stored)
      exact absurd newer (by decide)
    · obtain rfl := isLast_singleton isLast
      obtain rfl := List.mem_singleton.mp mem
      exact fun _ _ => Iff.rfl
  · intro info mem group hgroup held
    obtain rfl := List.mem_singleton.mp mem
    have cases : group = adminGroup ∨ group = ⟨"ops", [9]⟩ := by
      simpa [secondProof, groupsOfTwo] using hgroup
    obtain rfl | rfl := cases
    · exact ⟨"old", by decide +kernel, by decide⟩
    · exact absurd held (by decide +kernel)

-- the proof that is held is not checked again after the secret has changed
example : (TrustState.process 1 10 verifySample
    { admitted with declarations := [⟨"admin", "new"⟩] }
    (infoRequest 2 secondProof)).trusts.proofOf 2 "admin" = some [1] := by
  decide +kernel

end PeerLink.Sync
