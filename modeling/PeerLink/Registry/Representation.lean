import PeerLink.Registry.Contract

/-!
# The two redundant structures agree

A registry keeps its networks in a table and their names in a vector, and each
network does the same with its exit nodes. `exec_consistent` shows that every
call keeps the two in step. The order of an exit node list is a fact about the
whole history: `exec_idsStep` says once how one call changes a list, and
`run_ordered` reads the order off the calls.
-/

namespace PeerLink.Registry

structure NetworkInfo.Consistent (info : NetworkInfo) : Prop where
  nodup : info.exitNodePeerIds.Nodup
  listed : ∀ p, p ∈ info.exitNodePeerIds ↔ ∃ node, info.exitNodes p = some node
  named : ∀ p node, info.exitNodes p = some node → node.peerId = p

structure NetworkRegistry.Consistent (r : NetworkRegistry) : Prop where
  nodup : r.networkNames.Nodup
  listed : ∀ n, n ∈ r.networkNames ↔ ∃ info, r.networks n = some info
  named : ∀ n info, r.networks n = some info → info.networkName = n
  networks : ∀ n info, r.networks n = some info → info.Consistent

/-! ## Every call keeps them in step -/

variable {r r' : NetworkRegistry} {n description : String} {secret : Bytes} {maxPeers i : Nat}
  {info info' : NetworkInfo} {p q : PeerId} {node : ExitNodeInfo} {found tx : Tx}
  {deployer : Address} {txs : List Tx} {α : Type}

theorem NetworkInfo.Consistent.lists (good : info.Consistent) :
    info.exitNodes.Lists info.exitNodePeerIds := ⟨good.nodup, good.listed⟩

theorem NetworkRegistry.Consistent.lists (good : r.Consistent) :
    r.networks.Lists r.networkNames := ⟨good.nodup, good.listed⟩

theorem init_consistent (deployer : Address) : (init deployer).Consistent := by
  constructor <;> simp [init]

theorem createNetwork_consistent {ctx : TxContext} (good : r.Consistent)
    (h : createNetwork r n secret description maxPeers ctx = .ok r') : r'.Consistent := by
  obtain ⟨absent, rfl⟩ := createNetwork_ok h
  refine have lists := good.lists.push absent _
    ⟨lists.nodup, lists.listed, fun m info present => ?_, fun m info present => ?_⟩
  · obtain ⟨rfl, rfl⟩ | old := Table.eq_some_of_set present
    · rfl
    · exact good.named m info old
  · obtain ⟨-, rfl⟩ | old := Table.eq_some_of_set present
    · constructor <;> simp
    · exact good.networks m info old

/-- Editing a network keeps the registry consistent when the edited record
keeps its name and is itself consistent. -/
theorem Edits.consistent (h : Edits r r' n info info') (good : r.Consistent)
    (name : info'.networkName = info.networkName) (inner : info'.Consistent) :
    r'.Consistent := by
  obtain ⟨present, rfl⟩ := h
  refine ⟨good.nodup, (good.lists.overwrite present info').listed, fun m found hf => ?_,
    fun m found hf => ?_⟩
  · obtain ⟨rfl, rfl⟩ | hf := Table.eq_some_of_set hf
    · exact name.trans (good.named m info present)
    · exact good.named m found hf
  · obtain ⟨-, rfl⟩ | hf := Table.eq_some_of_set hf
    · exact inner
    · exact good.networks m found hf

section
variable (good : info.Consistent)
include good

/-- A record under its own name keeps all names right. -/
theorem NetworkInfo.Consistent.named_set {found : ExitNodeInfo} (name : node.peerId = p)
    (hf : info.exitNodes.set p node q = some found) : found.peerId = q := by
  obtain ⟨rfl, rfl⟩ | hf := Table.eq_some_of_set hf
  · exact name
  · exact good.named q found hf

theorem NetworkInfo.Consistent.overwrite {old : ExitNodeInfo} (known : info.exitNodes p = some old)
    (name : node.peerId = p) : { info with exitNodes := info.exitNodes.set p node }.Consistent :=
  ⟨good.nodup, (good.lists.overwrite known node).listed, fun _ _ hf => good.named_set name hf⟩

theorem putExitNode_consistent (h : info.putExitNode p node = .ok info') (name : node.peerId = p) :
    info'.Consistent := by
  obtain ⟨absent, rfl⟩ | ⟨⟨old, known⟩, rfl⟩ := putExitNode_ok h
  · have lists := good.lists.push absent node
    exact ⟨lists.nodup, lists.listed, fun _ _ hf => good.named_set name hf⟩
  · exact good.overwrite known name

theorem dropExitNode_consistent (h : info.dropExitNode p = .ok info') : info'.Consistent := by
  obtain ⟨_, rfl⟩ | ⟨_, rfl⟩ := dropExitNode_ok h
  · exact good
  · constructor
    · exact good.nodup.erase p
    · intro q
      rw [good.nodup.mem_erase_iff, good.listed q]
      by_cases hq : q = p
      · simp [hq]
      · simp [hq]
    · intro q found hf
      by_cases hq : q = p
      · simp [hq] at hf
      · exact good.named q found (by simpa [hq] using hf)

end

theorem exec_consistent (good : r.Consistent) (h : exec r tx = .ok r') : r'.Consistent := by
  obtain ⟨ctx, call⟩ := tx
  cases call with
  | createNetwork n secret description maxPeers => exact createNetwork_consistent good h
  | updateNetwork n secret description maxPeers =>
    obtain ⟨info, _, edit⟩ := updateNetwork_ok h
    exact edit.consistent good rfl { good.networks n info edit.1 with }
  | addExitNode n p uris hostname =>
    obtain ⟨info, info', _, edit, put⟩ := addExitNode_ok h
    have inner := putExitNode_consistent (good.networks n info edit.1) put rfl
    refine edit.consistent good ?_ inner
    obtain ⟨_, rfl⟩ | ⟨_, rfl⟩ := putExitNode_ok put <;> rfl
  | removeExitNode n p =>
    obtain ⟨info, info', _, edit, drop⟩ := removeExitNode_ok h
    have inner := dropExitNode_consistent (good.networks n info edit.1) drop
    refine edit.consistent good ?_ inner
    obtain ⟨_, rfl⟩ | ⟨_, rfl⟩ := dropExitNode_ok drop <;> rfl
  | deactivateNetwork n | reactivateNetwork n =>
    obtain ⟨info, _, edit⟩ := setActive_ok h
    exact edit.consistent good rfl { good.networks n info edit.1 with }
  | updateExitNodeStatus n p isActive =>
    obtain ⟨info, node, known, edit⟩ := @updateExitNodeStatus_ok r r' n p ctx isActive h
    have inner := good.networks n info edit.1
    exact edit.consistent good rfl (inner.overwrite known (inner.named p node known))

theorem run_consistent (run : Run deployer txs r) : r.Consistent := by
  induction run with
  | init => exact init_consistent deployer
  | call _ step ih => exact exec_consistent ih step

/-! ## The order of an exit node list -/

def Adds (n : String) (p : PeerId) (tx : Tx) : Prop :=
  ∃ uris hostname, tx.call = .addExitNode n p uris hostname

def Removes (n : String) (p : PeerId) (tx : Tx) : Prop :=
  tx.call = .removeExitNode n p

/-- The `i`-th call is the first one to add exit node `p` to network `n` since
`p` was last removed from it. -/
structure AddedAt (txs : List Tx) (n : String) (p : PeerId) (i : Nat) : Prop where
  added : ∃ tx, txs[i]? = some tx ∧ Adds n p tx
  kept : ∀ j tx, i < j → txs[j]? = some tx → ¬ Removes n p tx
  first : ∀ j tx, j < i → txs[j]? = some tx → Adds n p tx →
    ∃ k tx', j < k ∧ k < i ∧ txs[k]? = some tx' ∧ Removes n p tx'

/-- Every addition of exit node `p` to network `n` was followed by a removal. -/
def Gone (txs : List Tx) (n : String) (p : PeerId) : Prop :=
  ∀ (j : Nat) tx, txs[j]? = some tx → Adds n p tx →
    ∃ (k : Nat) (tx' : Tx), j < k ∧ txs[k]? = some tx' ∧ Removes n p tx'

def Earlier (txs : List Tx) (n : String) (p q : PeerId) : Prop :=
  ∃ i j, AddedAt txs n p i ∧ AddedAt txs n q j ∧ i < j

theorem AddedAt.lt (h : AddedAt txs n p i) : i < txs.length := by
  obtain ⟨tx, at_i, _⟩ := h.added
  exact (List.getElem?_eq_some_iff.mp at_i).1

theorem getElem?_concat_old (h : txs[i]? = some found) : (txs ++ [tx])[i]? = some found := by
  rw [List.getElem?_append_left (List.getElem?_eq_some_iff.mp h).1]
  exact h

theorem getElem?_concat_cases (h : (txs ++ [tx])[i]? = some found) :
    txs[i]? = some found ∨ (i = txs.length ∧ found = tx) := by
  by_cases old : i < txs.length
  · exact .inl (by rwa [List.getElem?_append_left old] at h)
  · have bound := (List.getElem?_eq_some_iff.mp h).1
    have last : i = txs.length := by
      simp only [List.length_append, List.length_singleton] at bound
      omega
    subst last
    exact .inr ⟨rfl, by simpa using h.symm⟩

theorem AddedAt.concat
    (h : AddedAt txs n p i) (stays : ¬ Removes n p tx) : AddedAt (txs ++ [tx]) n p i := by
  constructor
  · obtain ⟨found, at_i, adds⟩ := h.added
    exact ⟨found, getElem?_concat_old at_i, adds⟩
  · intro j found later at_j
    obtain old | ⟨-, rfl⟩ := getElem?_concat_cases at_j
    · exact h.kept j found later old
    · exact stays
  · intro j found before at_j adds
    obtain old | ⟨rfl, -⟩ := getElem?_concat_cases at_j
    · obtain ⟨k, tx', hjk, hki, at_k, removes⟩ := h.first j found before old adds
      exact ⟨k, tx', hjk, hki, getElem?_concat_old at_k, removes⟩
    · exact absurd h.lt (by omega)

theorem Gone.addedAt
    (h : Gone txs n p) (adds : Adds n p tx) : AddedAt (txs ++ [tx]) n p txs.length := by
  constructor
  · exact ⟨tx, by simp, adds⟩
  · intro j found later at_j
    have bound := (List.getElem?_eq_some_iff.mp at_j).1
    simp only [List.length_append, List.length_singleton] at bound
    omega
  · intro j found before at_j adds'
    obtain old | ⟨rfl, -⟩ := getElem?_concat_cases at_j
    · obtain ⟨k, tx', hjk, at_k, removes⟩ := h j found old adds'
      exact ⟨k, tx', hjk, (List.getElem?_eq_some_iff.mp at_k).1,
        getElem?_concat_old at_k, removes⟩
    · omega

theorem Gone.concat (h : Gone txs n p) (unlisted : ¬ Adds n p tx) : Gone (txs ++ [tx]) n p := by
  intro j found at_j adds
  obtain old | ⟨-, rfl⟩ := getElem?_concat_cases at_j
  · obtain ⟨k, tx', hjk, at_k, removes⟩ := h j found old adds
    exact ⟨k, tx', hjk, getElem?_concat_old at_k, removes⟩
  · exact absurd adds unlisted

theorem not_adds_of_removes {m : String} (h : Removes n p tx) : ¬ Adds m q tx := by
  rintro ⟨uris, hostname, call⟩
  simp [Removes, call] at h

theorem Adds.same {m : String} (adds : Adds n p tx) (adds' : Adds m q tx) : m = n ∧ q = p := by
  obtain ⟨uris, hostname, call⟩ := adds
  obtain ⟨uris', hostname', call'⟩ := adds'
  rw [call] at call'
  injection call' with hn hp
  exact ⟨hn.symm, hp.symm⟩

theorem Removes.same {m : String} (removes : Removes n p tx) (removes' : Removes m q tx) :
    m = n ∧ q = p := by
  rw [Removes, removes] at removes'
  injection removes' with hn hp
  exact ⟨hn.symm, hp.symm⟩

theorem gone_of_removes (txs : List Tx) (removes : Removes n p tx) : Gone (txs ++ [tx]) n p := by
  intro j found at_j adds
  obtain old | ⟨-, rfl⟩ := getElem?_concat_cases at_j
  · exact ⟨txs.length, tx, (List.getElem?_eq_some_iff.mp old).1, by simp, removes⟩
  · exact absurd adds (not_adds_of_removes removes)

/-- The exit node ids of a network, none where the network does not exist. -/
def idsOf (r : NetworkRegistry) (n : String) : List PeerId :=
  (r.networks n).elim [] (·.exitNodePeerIds)

theorem idsOf_some (h : r.networks n = some info) : idsOf r n = info.exitNodePeerIds := by
  simp [idsOf, h]

/-- What one call does to the exit node ids of network `n`. -/
inductive IdsStep (n : String) (tx : Tx) (ids : List PeerId) : List PeerId → Prop
  | same (old : ∀ p, Adds n p tx → p ∈ ids) (absent : ∀ p, Removes n p tx → p ∉ ids) :
      IdsStep n tx ids ids
  | push (p : PeerId) (adds : Adds n p tx) (fresh : p ∉ ids) : IdsStep n tx ids (ids ++ [p])
  | erase (p : PeerId) (removes : Removes n p tx) : IdsStep n tx ids (ids.erase p)

theorem Edits.idsOf (h : Edits r r' n info info') (m : String) :
    idsOf r' m = if m = n then info'.exitNodePeerIds else idsOf r m := by
  obtain ⟨_, rfl⟩ := h
  by_cases hm : m = n
  · simp [Registry.idsOf, hm]
  · simp [Registry.idsOf, Table.set_other _ hm, hm]

/-- A call that keeps the exit node ids of the network it edits, and neither
adds nor removes an exit node, changes no list. -/
theorem Edits.idsStep_same
    (h : Edits r r' n info info') (ids : info'.exitNodePeerIds = info.exitNodePeerIds)
    (noAdd : ∀ m p, ¬ Adds m p tx) (noRemove : ∀ m p, ¬ Removes m p tx)
    (m : String) : IdsStep m tx (Registry.idsOf r m) (Registry.idsOf r' m) := by
  have same : Registry.idsOf r' m = Registry.idsOf r m := by
    rw [h.idsOf m]
    by_cases hm : m = n
    · rw [if_pos hm, ids, hm, idsOf_some h.1]
    · rw [if_neg hm]
  rw [same]
  exact .same (fun p adds => absurd adds (noAdd m p)) fun p removes =>
    absurd removes (noRemove m p)

theorem addExitNode_idsStep {uris : List String} {hostname : String} (good : r.Consistent)
    (call : tx.call = .addExitNode n p uris hostname)
    (h : addExitNode r n p uris hostname tx.ctx = .ok r') (m : String) :
    IdsStep m tx (idsOf r m) (idsOf r' m) := by
  obtain ⟨info, info', -, edit, put⟩ := addExitNode_ok h
  have inner := good.networks n info edit.1
  have adds : Adds n p tx := ⟨uris, hostname, call⟩
  have noRemove (q : PeerId) (removes : Removes m q tx) : False := not_adds_of_removes removes adds
  rw [edit.idsOf m]
  by_cases hm : m = n
  · subst hm
    rw [if_pos rfl, idsOf_some edit.1]
    obtain ⟨absent, rfl⟩ | ⟨known, rfl⟩ := putExitNode_ok put
    · refine .push p adds ?_
      simp [inner.listed p, absent]
    · refine .same ?_ fun q removes => (noRemove q removes).elim
      intro q adds'
      rw [(adds.same adds').2]
      exact (inner.listed p).mpr known
  · rw [if_neg hm]
    exact .same (fun q adds' => absurd (adds.same adds').1 hm) fun q removes =>
      (noRemove q removes).elim

theorem removeExitNode_idsStep (good : r.Consistent) (call : tx.call = .removeExitNode n p)
    (h : removeExitNode r n p tx.ctx = .ok r') (m : String) :
    IdsStep m tx (idsOf r m) (idsOf r' m) := by
  obtain ⟨info, info', -, edit, drop⟩ := removeExitNode_ok h
  have inner := good.networks n info edit.1
  have removes : Removes n p tx := call
  have noAdd (q : PeerId) : ¬ Adds m q tx := not_adds_of_removes removes
  rw [edit.idsOf m]
  by_cases hm : m = n
  · subst hm
    rw [if_pos rfl, idsOf_some edit.1]
    obtain ⟨absent, rfl⟩ | ⟨known, rfl⟩ := dropExitNode_ok drop
    · refine .same (fun q adds => absurd adds (noAdd q)) ?_
      intro q removes'
      simp [(removes.same removes').2, inner.listed p, absent]
    · exact .erase p removes
  · rw [if_neg hm]
    exact .same (fun q adds => absurd adds (noAdd q)) fun q removes' =>
      absurd (removes.same removes').1 hm

theorem createNetwork_idsStep (call : tx.call = .createNetwork n secret description maxPeers)
    (h : createNetwork r n secret description maxPeers tx.ctx = .ok r') (m : String) :
    IdsStep m tx (idsOf r m) (idsOf r' m) := by
  have same : idsOf r' m = idsOf r m := by
    obtain ⟨absent, rfl⟩ := createNetwork_ok h
    by_cases hm : m = n
    · subst hm
      simp [idsOf, absent]
    · simp [idsOf, Table.set_other _ hm]
  rw [same]
  refine .same ?_ ?_
  · rintro p ⟨uris, hostname, call'⟩
    simp [call] at call'
  · intro p removes
    simp [Removes, call] at removes

theorem exec_idsStep (good : r.Consistent)
    (h : exec r tx = .ok r') (m : String) : IdsStep m tx (idsOf r m) (idsOf r' m) := by
  obtain ⟨ctx, call⟩ := tx
  cases call with
  | createNetwork n secret description maxPeers => exact createNetwork_idsStep rfl h m
  | addExitNode n p uris hostname => exact addExitNode_idsStep good rfl h m
  | removeExitNode n p => exact removeExitNode_idsStep good rfl h m
  | updateNetwork n secret description maxPeers =>
    obtain ⟨info, -, edit⟩ := updateNetwork_ok h
    exact edit.idsStep_same rfl (by simp [Adds]) (by simp [Removes]) m
  | deactivateNetwork n | reactivateNetwork n =>
    obtain ⟨info, -, edit⟩ := setActive_ok h
    exact edit.idsStep_same rfl (by simp [Adds]) (by simp [Removes]) m
  | updateExitNodeStatus n p isActive =>
    obtain ⟨info, node, -, edit⟩ := @updateExitNodeStatus_ok r r' n p ctx isActive h
    exact edit.idsStep_same rfl (by simp [Adds]) (by simp [Removes]) m

/-- A list of exit node ids reads off the history: the listed ones stand in the
order of their additions, and the others were never added or are removed again. -/
structure Ordered (txs : List Tx) (n : String) (ids : List PeerId) : Prop where
  sorted : ids.Pairwise (Earlier txs n)
  present : ∀ p ∈ ids, ∃ i, AddedAt txs n p i
  absent : ∀ p, p ∉ ids → Gone txs n p

theorem Earlier.concat (h : Earlier txs n p q) (hp : ¬ Removes n p tx) (hq : ¬ Removes n q tx) :
    Earlier (txs ++ [tx]) n p q := by
  obtain ⟨i, j, at_i, at_j, lt⟩ := h
  exact ⟨i, j, at_i.concat hp, at_j.concat hq, lt⟩

/-- What stays listed keeps its order. -/
theorem Ordered.sublist {ids ids' : List PeerId} (h : Ordered txs n ids) (sub : ids'.Sublist ids)
    (stays : ∀ p ∈ ids', ¬ Removes n p tx) (absent : ∀ p, p ∉ ids' → Gone (txs ++ [tx]) n p) :
    Ordered (txs ++ [tx]) n ids' := by
  refine ⟨?_, fun p hp => ?_, absent⟩
  · exact (h.sorted.sublist sub).imp_of_mem fun hp hq earlier =>
      earlier.concat (stays _ hp) (stays _ hq)
  · obtain ⟨i, at_i⟩ := h.present p (sub.subset hp)
    exact ⟨i, at_i.concat (stays p hp)⟩

theorem Ordered.step {ids ids' : List PeerId}
    (h : Ordered txs n ids) (nodup : ids.Nodup) (step : IdsStep n tx ids ids') :
    Ordered (txs ++ [tx]) n ids' := by
  cases step with
  | same old absent =>
    refine h.sublist (.refl ids) (fun p hp removes => absent p removes hp) fun p hp => ?_
    exact (h.absent p hp).concat fun adds => hp (old p adds)
  | push p adds fresh =>
    have stays : ∀ q, ¬ Removes n q tx := fun q removes => not_adds_of_removes removes adds
    have last := (h.absent p fresh).addedAt adds
    constructor
    · refine List.pairwise_append.mpr ⟨h.sorted.imp fun earlier =>
        earlier.concat (stays _) (stays _), List.pairwise_singleton _ _, ?_⟩
      intro a ha b hb
      obtain ⟨i, at_i⟩ := h.present a ha
      rw [List.mem_singleton.mp hb]
      exact ⟨i, txs.length, at_i.concat (stays a), last, at_i.lt⟩
    · intro q hq
      obtain hq | hq := List.mem_append.mp hq
      · obtain ⟨i, at_i⟩ := h.present q hq
        exact ⟨i, at_i.concat (stays q)⟩
      · exact ⟨txs.length, List.mem_singleton.mp hq ▸ last⟩
    · intro q hq
      simp only [List.mem_append, List.mem_singleton, not_or] at hq
      exact (h.absent q hq.1).concat fun adds' => hq.2 (adds.same adds').2
  | erase p removes =>
    apply h.sublist List.erase_sublist
    · exact fun q hq removes' => (nodup.mem_erase_iff.mp hq).1 (removes.same removes').2
    · intro q hq
      by_cases same : q = p
      · exact gone_of_removes txs (same ▸ removes)
      · refine (h.absent q ?_).concat (not_adds_of_removes removes)
        exact fun mem => hq (nodup.mem_erase_iff.mpr ⟨same, mem⟩)

theorem NetworkRegistry.Consistent.idsOf_nodup (good : r.Consistent)
    (n : String) : (idsOf r n).Nodup := by
  cases present : r.networks n with
  | none => simp [idsOf, present]
  | some info => exact idsOf_some present ▸ (good.networks n info present).nodup

theorem run_ordered (run : Run deployer txs r) (n : String) : Ordered txs n (idsOf r n) := by
  induction run with
  | init =>
    constructor <;> simp [idsOf, init, Gone]
  | call before step ih =>
    have good := run_consistent before
    exact ih.step (good.idsOf_nodup n) (exec_idsStep good step n)

/-! ## What the read functions return -/

/-- A read that only fails with one of the contract's own error codes. -/
def NoNativeAbort {α : Type} (result : Except Abort α) : Prop :=
  ∀ a, result = .error a → a.native = false

@[simp] theorem noNativeAbort_ok (a : α) : NoNativeAbort (.ok a) := by
  simp [NoNativeAbort]

theorem read_present (present : r.networks n = some info) (f : NetworkInfo → Except Abort α) :
    (do
      assert (r.networks.contains n) eNetworkNotFound
      let info ← r.networks.borrow n
      f info) = f info := by
  have found : r.networks.contains n = true := by simp [present]
  have borrowed : r.networks.borrow n = .ok info := by simp [present]
  rw [found, borrowed]
  rfl

/-- Every read of a named network starts by asserting that it exists and
borrowing its record: only what follows can abort natively. -/
theorem noNativeAbort_read (r : NetworkRegistry) (n : String) (f : NetworkInfo → Except Abort α)
    (h : ∀ info, r.networks n = some info → NoNativeAbort (f info)) :
    NoNativeAbort (do
      assert (r.networks.contains n) eNetworkNotFound
      let info ← r.networks.borrow n
      f info) := by
  cases present : r.networks n with
  | none =>
    intro a ha
    have missing : r.networks.contains n = false := by simp [Table.contains, present]
    simp only [missing, assert, bind, Except.bind, Bool.false_eq_true, if_false,
      Except.error.injEq] at ha
    exact ha ▸ rfl
  | some info =>
    rw [read_present present]
    exact h info present

def NetworkInfo.activeNodes (info : NetworkInfo) : List ExitNodeInfo :=
  info.exitNodePeerIds.filterMap fun p => (info.exitNodes p).filter (·.isActive)

theorem collectActive_ok (exitNodes : Table PeerId ExitNodeInfo) (ids : List PeerId)
    (result : List ExitNodeInfo) (known : ∀ p ∈ ids, ∃ node, exitNodes p = some node) :
    collectActive exitNodes ids result =
      .ok (result ++ ids.filterMap fun p => (exitNodes p).filter (·.isActive)) := by
  induction ids generalizing result with
  | nil => simp [collectActive]
  | cons p rest ih =>
    obtain ⟨node, hp⟩ := known p (by simp)
    have borrowed : exitNodes.borrow p = .ok node := by simp [hp]
    simp only [collectActive, borrowed, bind, Except.bind]
    rw [ih _ fun q hq => known q (by simp [hq])]
    cases active : node.isActive <;> simp [hp, active, Option.filter_some]

theorem collectNetworks_ok (networks : Table String NetworkInfo) (names : List String)
    (result : List NetworkSummary) (known : ∀ n ∈ names, ∃ info, networks n = some info) :
    ∃ summaries, collectNetworks networks names result = .ok summaries := by
  induction names generalizing result with
  | nil => exact ⟨result, rfl⟩
  | cons n rest ih =>
    obtain ⟨info, hn⟩ := known n (by simp)
    have borrowed : networks.borrow n = .ok info := by simp [hn]
    simp only [collectNetworks, borrowed, bind, Except.bind]
    exact ih _ fun m hm => known m (by simp [hm])

theorem NetworkInfo.Consistent.collectActive (good : info.Consistent) :
    collectActive info.exitNodes info.exitNodePeerIds [] = .ok info.activeNodes := by
  rw [collectActive_ok _ _ _ fun p hp => (good.listed p).mp hp]
  simp [NetworkInfo.activeNodes]

theorem getExitNodes_eq (good : r.Consistent) (present : r.networks n = some info) :
    getExitNodes r n = .ok info.activeNodes :=
  (read_present present _).trans (good.networks n info present).collectActive

theorem mem_activeNodes (good : info.Consistent) (node : ExitNodeInfo) :
    node ∈ info.activeNodes ↔
      node.isActive = true ∧ ∃ p, info.exitNodes p = some node := by
  simp only [NetworkInfo.activeNodes, List.mem_filterMap, Option.filter_eq_some_iff]
  constructor
  · rintro ⟨p, _, found, active⟩
    exact ⟨active, p, found⟩
  · rintro ⟨active, p, found⟩
    exact ⟨p, (good.listed p).mpr ⟨node, found⟩, found, active⟩

/-- The active exit nodes keep the order of the ids they are stored under. -/
theorem activeNodes_pairwise (good : info.Consistent) {R : PeerId → PeerId → Prop}
    (sorted : info.exitNodePeerIds.Pairwise R) :
    info.activeNodes.Pairwise fun a b => R a.peerId b.peerId := by
  refine List.Pairwise.filterMap _ ?_ sorted
  intro p q hpq a ha b hb
  have hp := good.named p a (Option.filter_eq_some_iff.mp ha).1
  have hq := good.named q b (Option.filter_eq_some_iff.mp hb).1
  exact hp ▸ hq ▸ hpq

/-- `pick_exit_node` on the list that `get_exit_nodes` returns. -/
theorem pickExitNode_eq (good : r.Consistent) (present : r.networks n = some info)
    (sha3 : Bytes → Bytes) (digest : Bytes) :
    pickExitNode sha3 r n digest =
      .ok (info.activeNodes[randomValue (sha3 digest) % info.activeNodes.length]?) := by
  rw [pickExitNode, read_present present]
  simp only [bind, Except.bind, (good.networks n info present).collectActive,
    List.length_eq_zero_iff]
  by_cases empty : info.activeNodes = []
  · simp [empty, pure, Except.pure]
  · have bound := Nat.mod_lt (randomValue (sha3 digest)) (List.length_pos_iff.mpr empty)
    simp [empty, vectorBorrow, List.getElem?_eq_getElem bound, pure, Except.pure]

theorem pickExitNode_spec (good : r.Consistent) (present : r.networks n = some info)
    (sha3 : Bytes → Bytes) (digest : Bytes) :
    (pickExitNode sha3 r n digest = .ok none ↔ info.activeNodes = []) ∧
    (info.activeNodes ≠ [] →
      ∃ node ∈ info.activeNodes, pickExitNode sha3 r n digest = .ok (some node)) := by
  rw [pickExitNode_eq good present]
  by_cases empty : info.activeNodes = []
  · simp [empty]
  · have bound := Nat.mod_lt (randomValue (sha3 digest)) (List.length_pos_iff.mpr empty)
    rw [List.getElem?_eq_getElem bound]
    exact ⟨by simp [empty], fun _ => ⟨_, List.getElem_mem bound, rfl⟩⟩

/-- The seven read functions of the contract. -/
structure ReadsSafe (r : NetworkRegistry) : Prop where
  getExitNodes : ∀ n, NoNativeAbort (getExitNodes r n)
  pickExitNode : ∀ sha3 n digest, NoNativeAbort (pickExitNode sha3 r n digest)
  getActiveNetworks : NoNativeAbort (getActiveNetworks r)
  getNetworkInfo : ∀ n, NoNativeAbort (getNetworkInfo r n)
  getNetworkSecret : ∀ n, NoNativeAbort (getNetworkSecret r n)
  getExitNodeByPeerId : ∀ n p, NoNativeAbort (getExitNodeByPeerId r n p)
  getExitNodePeerIds : ∀ n, NoNativeAbort (getExitNodePeerIds r n)

theorem NetworkRegistry.Consistent.readsSafe (good : r.Consistent) :
    ReadsSafe r := by
  constructor
  · intro n
    refine noNativeAbort_read r n _ fun info present => ?_
    rw [(good.networks n info present).collectActive]
    exact noNativeAbort_ok _
  · intro sha3 n digest
    refine noNativeAbort_read r n _ fun info present => ?_
    have picked := pickExitNode_eq good present sha3 digest
    rw [Registry.pickExitNode, read_present present] at picked
    rw [picked]
    exact noNativeAbort_ok _
  · obtain ⟨summaries, h⟩ := collectNetworks_ok r.networks r.networkNames []
      fun n hn => (good.listed n).mp hn
    rw [Registry.getActiveNetworks, h]
    exact noNativeAbort_ok _
  · intro n
    exact noNativeAbort_read r n _ fun info _ => noNativeAbort_ok _
  · intro n
    refine noNativeAbort_read r n _ fun info _ => ?_
    intro a ha
    cases active : info.isActive
    · simp only [assert, active, bind, Except.bind, Bool.false_eq_true, if_false,
        Except.error.injEq] at ha
      exact ha ▸ rfl
    · simp [assert, active, bind, Except.bind, pure, Except.pure] at ha
  · intro n p
    unfold Registry.getExitNodeByPeerId
    cases present : r.networks n with
    | none => simp [Table.contains, present, pure, Except.pure]
    | some info =>
      have borrowed : r.networks.borrow n = .ok info := by simp [present]
      cases known : info.exitNodes p with
      | none => simp [Table.contains, present, borrowed, known, bind, Except.bind, pure,
          Except.pure]
      | some node =>
        have found : info.exitNodes.borrow p = .ok node := by simp [known]
        simp [Table.contains, present, borrowed, known, found, bind, Except.bind, pure,
          Except.pure]
  · intro n
    exact noNativeAbort_read r n _ fun info _ => noNativeAbort_ok _

/-- **The representation invariant.** After every history of successful calls
the name vectors list exactly the keys of their tables. So no read aborts on a
borrow, `get_exit_nodes` returns the active exit nodes in the order of their
additions, and `pick_exit_node` chooses among them whenever there are any. -/
theorem representation_invariant {deployer : Address} {txs : List Tx} {r : NetworkRegistry}
    (run : Run deployer txs r) :
    r.Consistent ∧ ReadsSafe r ∧
    ∀ n info, r.networks n = some info → ∃ nodes, getExitNodes r n = .ok nodes ∧
      (∀ node, node ∈ nodes ↔ node.isActive = true ∧ ∃ p, info.exitNodes p = some node) ∧
      nodes.Pairwise (fun a b => ∃ i j, AddedAt txs n a.peerId i ∧
        AddedAt txs n b.peerId j ∧ i < j) ∧
      (∀ node ∈ nodes, ∃ i, AddedAt txs n node.peerId i) ∧
      ∀ sha3 digest, (pickExitNode sha3 r n digest = .ok none ↔ nodes = []) ∧
        (nodes ≠ [] → ∃ node ∈ nodes, pickExitNode sha3 r n digest = .ok (some node)) := by
  have good := run_consistent run
  refine ⟨good, good.readsSafe, fun n info present => ?_⟩
  have inner := good.networks n info present
  have ordered := run_ordered run n
  rw [idsOf_some present] at ordered
  refine ⟨info.activeNodes, getExitNodes_eq good present, mem_activeNodes inner,
    activeNodes_pairwise inner ordered.sorted, ?_, pickExitNode_spec good present⟩
  intro node hnode
  obtain ⟨-, p, found⟩ := (mem_activeNodes inner node).mp hnode
  rw [inner.named p node found]
  exact ordered.present p ((inner.listed p).mpr ⟨node, found⟩)

/-- Exit node 5 is added before exit node 7, removed and added again. -/
def readdedExitNode : List Tx :=
  [⟨⟨1, 0⟩, .createNetwork "n" [] "" 8⟩, ⟨⟨1, 0⟩, .addExitNode "n" 5 [] "a"⟩,
    ⟨⟨1, 0⟩, .addExitNode "n" 7 [] "b"⟩, ⟨⟨1, 0⟩, .removeExitNode "n" 5⟩,
    ⟨⟨1, 0⟩, .addExitNode "n" 5 [] "c"⟩]

theorem readded_exit_node_is_last :
    ∃ r, Run 0 readdedExitNode r ∧ r.Consistent ∧ ReadsSafe r ∧
      getExitNodes r "n" = .ok [⟨7, [], "b", true, 0⟩, ⟨5, [], "c", true, 0⟩] ∧
      ∃ i j, AddedAt readdedExitNode "n" 7 i ∧ AddedAt readdedExitNode "n" 5 j ∧ i < j := by
  have created : Run 0 (readdedExitNode.take 1) _ := .call .init rfl
  have first : Run 0 (readdedExitNode.take 2) _ := .call created rfl
  have second : Run 0 (readdedExitNode.take 3) _ := .call first rfl
  have removed : Run 0 (readdedExitNode.take 4) _ := .call second rfl
  have run : Run 0 readdedExitNode _ := .call removed rfl
  obtain ⟨good, safe, reads⟩ := representation_invariant run
  obtain ⟨nodes, read, -, sorted, -⟩ := reads "n" _ rfl
  have listed : [⟨7, [], "b", true, 0⟩, ⟨5, [], "c", true, 0⟩] = nodes :=
    Except.ok.inj (ε := Abort) read
  subst listed
  exact ⟨_, run, good, safe, read, by simpa using sorted⟩

end PeerLink.Registry
