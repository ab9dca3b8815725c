import PeerLink.Registry.Contract

/-!
# Who may change a network

Six of the seven entry functions compare the sender with the network's
recorded admin before they write. `update_exit_node_status` does not, so any
sender can switch an exit node off. `authorized_run_iff` says that this is the
only way in.
-/

namespace PeerLink.Registry

/-- One call respects ownership: it touches only the network it names, it keeps
the admin of every network, and it leaves every record alone unless the sender
is that network's admin. -/
structure Authorized (r : NetworkRegistry) (tx : Tx) (r' : NetworkRegistry) : Prop where
  others : ∀ m, m ≠ tx.call.networkName → r'.networks m = r.networks m
  admin : ∀ m info, r.networks m = some info →
    ∃ info', r'.networks m = some info' ∧ info'.admin = info.admin
  record : ∀ m info, r.networks m = some info → r'.networks m ≠ some info →
    tx.ctx.sender = info.admin

/-- The condition the contract forgets to check: a status call comes from the
admin, or asks for the status the exit node already has. -/
def StatusByAdmin (r : NetworkRegistry) (tx : Tx) : Prop :=
  match tx.call with
  | .updateExitNodeStatus n p isActive =>
      ∀ info node, r.networks n = some info → info.exitNodes p = some node →
        tx.ctx.sender = info.admin ∨ node.isActive = isActive
  | _ => True

/-- Every call of the run, with the registries before and after it. -/
def EveryStep (deployer : Address) (txs : List Tx)
    (P : NetworkRegistry → Tx → NetworkRegistry → Prop) : Prop :=
  ∀ before tx after r r', txs = before ++ tx :: after → Run deployer before r →
    exec r tx = .ok r' → P r tx r'

variable {r r' : NetworkRegistry} {n : String} {info info' : NetworkInfo}

section
variable (h : Edits r r' n info info')
include h

theorem Edits.others {m : String} (hm : m ≠ n) : r'.networks m = r.networks m := by
  obtain ⟨_, rfl⟩ := h
  exact Table.set_other info' hm

theorem Edits.self : r'.networks n = some info' := by
  obtain ⟨_, rfl⟩ := h
  exact Table.set_same ..

/-- An edit that keeps the admin field is authorized exactly when the sender is
the admin or the record did not change. -/
theorem Edits.authorized_iff {tx : Tx} (name : tx.call.networkName = n)
    (keeps : info'.admin = info.admin) :
    Authorized r tx r' ↔ tx.ctx.sender = info.admin ∨ info' = info := by
  constructor
  · intro auth
    by_cases same : info' = info
    · exact .inr same
    · refine .inl (auth.record n info h.1 ?_)
      rw [h.self]
      simpa using same
  · intro allowed
    refine ⟨fun m hm => h.others (name ▸ hm), ?_, ?_⟩
    · intro m old hold
      by_cases hm : m = n
      · subst hm
        have eq : old = info := Option.some.inj (hold.symm.trans h.1)
        exact ⟨info', h.self, eq ▸ keeps⟩
      · exact ⟨old, (h.others hm).trans hold, rfl⟩
    · intro m old hold changed
      by_cases hm : m = n
      · subst hm
        have eq : old = info := Option.some.inj (hold.symm.trans h.1)
        subst eq
        rcases allowed with owner | same
        · exact owner
        · exact absurd (same ▸ h.self) changed
      · exact absurd ((h.others hm).trans hold) changed

end

variable {tx : Tx} {p : PeerId}

theorem createNetwork_authorized {description : String}
    {secret : Bytes} {maxPeers : Nat} (name : tx.call.networkName = n)
    (h : createNetwork r n secret description maxPeers tx.ctx = .ok r') : Authorized r tx r' := by
  obtain ⟨absent, rfl⟩ := createNetwork_ok h
  have keep : ∀ m info, r.networks m = some info → m ≠ n := by
    rintro m info present rfl
    simp [absent] at present
  refine ⟨fun m hm => Table.set_other _ (name ▸ hm), ?_, ?_⟩
  · intro m info present
    exact ⟨info, (Table.set_other _ (keep m info present)).trans present, rfl⟩
  · intro m info present changed
    exact absurd ((Table.set_other _ (keep m info present)).trans present) changed

theorem putExitNode_admin {node : ExitNodeInfo}
    (h : info.putExitNode p node = .ok info') : info'.admin = info.admin := by
  obtain ⟨_, rfl⟩ | ⟨_, rfl⟩ := putExitNode_ok h <;> rfl

theorem dropExitNode_admin (h : info.dropExitNode p = .ok info') : info'.admin = info.admin := by
  obtain ⟨_, rfl⟩ | ⟨_, rfl⟩ := dropExitNode_ok h <;> rfl

theorem updateExitNodeStatus_authorized_iff {isActive : Bool}
    (call : tx.call = .updateExitNodeStatus n p isActive)
    (h : updateExitNodeStatus r n p isActive tx.ctx = .ok r') :
    Authorized r tx r' ↔ StatusByAdmin r tx := by
  obtain ⟨info, node, known, edit⟩ := updateExitNodeStatus_ok h
  rw [edit.authorized_iff (by simp [call, Call.networkName]) rfl]
  simp only [StatusByAdmin, call]
  constructor
  · rintro allowed info₁ node₁ present₁ known₁
    obtain rfl : info₁ = info := Option.some.inj (present₁.symm.trans edit.1)
    obtain rfl : node₁ = node := Option.some.inj (known₁.symm.trans known)
    refine allowed.imp_right fun same => ?_
    have entry := congrFun (congrArg NetworkInfo.exitNodes same) p
    simp only [Table.set_same, known, Option.some.injEq] at entry
    exact (congrArg ExitNodeInfo.isActive entry).symm
  · intro allowed
    refine (allowed info node edit.1 known).imp_right fun same => ?_
    have unchanged : { node with isActive } = node := by rw [← same]
    rw [unchanged, Table.set_self known]

/-- Every entry function but one checks the sender, so a successful call is
authorized exactly when it is not a foreign status change. -/
theorem exec_authorized_iff (h : exec r tx = .ok r') :
    Authorized r tx r' ↔ StatusByAdmin r tx := by
  obtain ⟨ctx, call⟩ := tx
  have owned {info info' : NetworkInfo} (edit : Edits r r' call.networkName info info')
      (keeps : info'.admin = info.admin) (owner : info.admin = ctx.sender) :
      Authorized r ⟨ctx, call⟩ r' := (edit.authorized_iff rfl keeps).mpr (.inl owner.symm)
  cases call with
  | updateExitNodeStatus n p isActive => exact updateExitNodeStatus_authorized_iff rfl h
  | createNetwork n secret description maxPeers =>
    exact iff_of_true (createNetwork_authorized rfl h) trivial
  | updateNetwork n secret description maxPeers =>
    obtain ⟨info, owner, edit⟩ := updateNetwork_ok h
    exact iff_of_true (owned edit rfl owner) trivial
  | addExitNode n p uris hostname =>
    obtain ⟨info, info', owner, edit, put⟩ := addExitNode_ok h
    exact iff_of_true (owned edit (putExitNode_admin put) owner) trivial
  | removeExitNode n p =>
    obtain ⟨info, info', owner, edit, drop⟩ := removeExitNode_ok h
    exact iff_of_true (owned edit (dropExitNode_admin drop) owner) trivial
  | deactivateNetwork n | reactivateNetwork n =>
    obtain ⟨info, owner, edit⟩ := setActive_ok h
    exact iff_of_true (owned edit rfl owner) trivial

/-- **Ownership over whole histories.** In a run of successful calls by any
senders, every call respects ownership if and only if every status call in it
comes from the admin of the network it names or leaves the status as it is. -/
theorem authorized_run_iff (deployer : Address) (txs : List Tx) :
    EveryStep deployer txs Authorized ↔
      EveryStep deployer txs fun r tx _ => StatusByAdmin r tx := by
  constructor
  · intro every before tx after r r' split run step
    exact (exec_authorized_iff step).mp (every before tx after r r' split run step)
  · intro every before tx after r r' split run step
    exact (exec_authorized_iff step).mpr (every before tx after r r' split run step)

/-- Address 1 sets up a network with one exit node; address 2 switches it off. -/
def foreignStatusCall : List Tx :=
  [⟨⟨1, 0⟩, .createNetwork "n" [] "" 8⟩, ⟨⟨1, 0⟩, .addExitNode "n" 5 [] "exit"⟩,
    ⟨⟨2, 0⟩, .updateExitNodeStatus "n" 5 false⟩]

theorem foreign_status_call_unauthorized :
    (∃ r, Run 0 foreignStatusCall r) ∧ ¬ EveryStep 0 foreignStatusCall Authorized := by
  have created : Run 0 [foreignStatusCall[0]] _ := .call .init rfl
  have added : Run 0 [foreignStatusCall[0], foreignStatusCall[1]] _ := .call created rfl
  have disabled : Run 0 foreignStatusCall _ := .call added rfl
  refine ⟨⟨_, disabled⟩, fun every => ?_⟩
  have status := every [foreignStatusCall[0], foreignStatusCall[1]] foreignStatusCall[2] [] _ _
    rfl added rfl
  have owner := status.record "n" _ rfl (by
    intro same
    have entry := congrFun (congrArg NetworkInfo.exitNodes (Option.some.inj same)) 5
    simp [Table.set] at entry)
  exact absurd owner (by decide)

end PeerLink.Registry
