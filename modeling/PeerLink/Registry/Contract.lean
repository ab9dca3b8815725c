import Mathlib.Data.Nat.Digits.Defs
import PeerLink.Registry.Table

/-!
# The network registry contract

`contract/sui_move/peerlink/sources/peerlink.move`, one definition for each
entry and read function. An entry function takes the registry by value and
returns the registry it leaves; an abort reverts the transaction, so it returns
none. Object ids and emitted events are left out: no function reads them.
-/

namespace PeerLink.Registry

def eNetworkNotFound : Nat := 1
def eNetworkAlreadyExists : Nat := 2
def eUnauthorized : Nat := 3
def eInvalidNetworkName : Nat := 4
def eNetworkExpired : Nat := 5
def ePeerNotFound : Nat := 7

abbrev Address := Nat
abbrev PeerId := Nat
abbrev Bytes := List UInt8

structure ExitNodeInfo where
  peerId : PeerId
  connectorUriList : List String
  hostname : String
  isActive : Bool
  registeredAt : Nat

/-- One network. `exitNodePeerIds` lists the keys of `exitNodes`, since a table
cannot be iterated on chain. -/
structure NetworkInfo where
  networkName : String
  networkSecret : Bytes
  admin : Address
  createdAt : Nat
  isActive : Bool
  description : String
  maxPeers : Nat
  exitNodes : Table PeerId ExitNodeInfo
  exitNodePeerIds : List PeerId

structure NetworkSummary where
  networkName : String
  admin : String
  createdAt : Nat
  description : String
  maxPeers : Nat

structure NetworkRegistry where
  networks : Table String NetworkInfo
  networkNames : List String
  globalAdmin : Address

/-- The sender and the clock of a transaction. -/
structure TxContext where
  sender : Address
  timestampMs : Nat

def init (sender : Address) : NetworkRegistry := ⟨.empty, [], sender⟩

/-! ## Entry functions -/

variable (info : NetworkInfo) (r : NetworkRegistry)

def createNetwork (networkName : String) (networkSecret : Bytes) (description : String)
    (maxPeers : Nat) (ctx : TxContext) : Except Abort NetworkRegistry := do
  assert (networkName != "") eInvalidNetworkName
  assert (!r.networks.contains networkName) eNetworkAlreadyExists
  let info : NetworkInfo :=
    { networkName, networkSecret, admin := ctx.sender, createdAt := ctx.timestampMs,
      isActive := true, description, maxPeers, exitNodes := .empty, exitNodePeerIds := [] }
  let networks ← r.networks.add networkName info
  return { r with networks, networkNames := r.networkNames ++ [networkName] }

def updateNetwork (networkName : String) (newNetworkSecret : Bytes) (newDescription : String)
    (newMaxPeers : Nat) (ctx : TxContext) : Except Abort NetworkRegistry := do
  assert (r.networks.contains networkName) eNetworkNotFound
  let info ← r.networks.borrow networkName
  assert (info.admin == ctx.sender) eUnauthorized
  let info := { info with
    networkSecret := newNetworkSecret, description := newDescription, maxPeers := newMaxPeers }
  return { r with networks := r.networks.set networkName info }

/-- Adds the exit node, or overwrites it in place when the peer id is known. -/
def NetworkInfo.putExitNode (peerId : PeerId) (node : ExitNodeInfo) : Except Abort NetworkInfo := do
  if info.exitNodes.contains peerId then
    return { info with exitNodes := info.exitNodes.set peerId node }
  else
    let exitNodes ← info.exitNodes.add peerId node
    return { info with exitNodes, exitNodePeerIds := info.exitNodePeerIds ++ [peerId] }

def addExitNode (networkName : String) (peerId : PeerId) (connectorUriList : List String)
    (hostname : String) (ctx : TxContext) : Except Abort NetworkRegistry := do
  assert (r.networks.contains networkName) eNetworkNotFound
  let info ← r.networks.borrow networkName
  assert (info.admin == ctx.sender) eUnauthorized
  let node : ExitNodeInfo :=
    { peerId, connectorUriList, hostname, isActive := true, registeredAt := ctx.timestampMs }
  let info ← info.putExitNode peerId node
  return { r with networks := r.networks.set networkName info }

/-- `vector::index_of`: whether the element occurs, and its first index. -/
def indexOf (ids : List PeerId) (peerId : PeerId) : Bool × Nat :=
  if peerId ∈ ids then (true, ids.idxOf peerId) else (false, 0)

/-- Drops the exit node from the table and, when it is found there, from the
list of peer ids. A peer id that is not registered is left alone. -/
def NetworkInfo.dropExitNode (peerId : PeerId) : Except Abort NetworkInfo := do
  if info.exitNodes.contains peerId then
    let exitNodes ← info.exitNodes.remove peerId
    let (found, index) := indexOf info.exitNodePeerIds peerId
    if found then
      return { info with exitNodes, exitNodePeerIds := info.exitNodePeerIds.eraseIdx index }
    else
      return { info with exitNodes }
  else
    return info

def removeExitNode (networkName : String) (peerId : PeerId) (ctx : TxContext) :
    Except Abort NetworkRegistry := do
  assert (r.networks.contains networkName) eNetworkNotFound
  let info ← r.networks.borrow networkName
  assert (info.admin == ctx.sender) eUnauthorized
  let info ← info.dropExitNode peerId
  return { r with networks := r.networks.set networkName info }

/-- The body `deactivate_network` and `reactivate_network` share. -/
def setActive (isActive : Bool) (r : NetworkRegistry) (networkName : String)
    (ctx : TxContext) : Except Abort NetworkRegistry := do
  assert (r.networks.contains networkName) eNetworkNotFound
  let info ← r.networks.borrow networkName
  assert (info.admin == ctx.sender) eUnauthorized
  return { r with networks := r.networks.set networkName { info with isActive } }

def deactivateNetwork := setActive false
def reactivateNetwork := setActive true

/-- Unlike the other entry functions, this one never looks at the sender. -/
def updateExitNodeStatus (networkName : String) (peerId : PeerId) (isActive : Bool)
    (_ctx : TxContext) : Except Abort NetworkRegistry := do
  assert (r.networks.contains networkName) eNetworkNotFound
  let info ← r.networks.borrow networkName
  assert (info.exitNodes.contains peerId) ePeerNotFound
  let node ← info.exitNodes.borrow peerId
  let info := { info with exitNodes := info.exitNodes.set peerId { node with isActive } }
  return { r with networks := r.networks.set networkName info }

/-! ## Transactions -/

inductive Call where
  | createNetwork (networkName : String) (networkSecret : Bytes) (description : String)
      (maxPeers : Nat)
  | updateNetwork (networkName : String) (newNetworkSecret : Bytes) (newDescription : String)
      (newMaxPeers : Nat)
  | addExitNode (networkName : String) (peerId : PeerId) (connectorUriList : List String)
      (hostname : String)
  | removeExitNode (networkName : String) (peerId : PeerId)
  | deactivateNetwork (networkName : String)
  | reactivateNetwork (networkName : String)
  | updateExitNodeStatus (networkName : String) (peerId : PeerId) (isActive : Bool)

/-- The network a call names. -/
def Call.networkName : Call → String
  | .createNetwork n _ _ _ | .updateNetwork n _ _ _ | .addExitNode n _ _ _
  | .removeExitNode n _ | .deactivateNetwork n | .reactivateNetwork n
  | .updateExitNodeStatus n _ _ => n

structure Tx where
  ctx : TxContext
  call : Call

def exec (tx : Tx) : Except Abort NetworkRegistry :=
  match tx.call with
  | .createNetwork n secret description maxPeers =>
      createNetwork r n secret description maxPeers tx.ctx
  | .updateNetwork n secret description maxPeers =>
      updateNetwork r n secret description maxPeers tx.ctx
  | .addExitNode n p uris hostname => addExitNode r n p uris hostname tx.ctx
  | .removeExitNode n p => removeExitNode r n p tx.ctx
  | .deactivateNetwork n => deactivateNetwork r n tx.ctx
  | .reactivateNetwork n => reactivateNetwork r n tx.ctx
  | .updateExitNodeStatus n p isActive => updateExitNodeStatus r n p isActive tx.ctx

/-- `Run deployer txs r`: the calls `txs` all succeeded, in this order, after
`deployer` published the contract, and left the registry `r`. -/
inductive Run (deployer : Address) : List Tx → NetworkRegistry → Prop
  | init : Run deployer [] (init deployer)
  | call {txs : List Tx} {r r' : NetworkRegistry} {tx : Tx} :
      Run deployer txs r → exec r tx = .ok r' → Run deployer (txs ++ [tx]) r'

/-! ## Read functions -/

/-- The loop of `get_exit_nodes` and `pick_exit_node` over the ids still to
visit, with the vector built so far. -/
def collectActive (exitNodes : Table PeerId ExitNodeInfo) :
    List PeerId → List ExitNodeInfo → Except Abort (List ExitNodeInfo)
  | [], result => .ok result
  | peerId :: rest, result => do
    let node ← exitNodes.borrow peerId
    collectActive exitNodes rest (if node.isActive then result ++ [node] else result)

def getExitNodes (networkName : String) : Except Abort (List ExitNodeInfo) := do
  assert (r.networks.contains networkName) eNetworkNotFound
  let info ← r.networks.borrow networkName
  collectActive info.exitNodes info.exitNodePeerIds []

/-- The first three bytes of the hash, big endian; shorter hashes give less. -/
def randomValue : Bytes → Nat
  | [] => 0
  | [a] => a.toNat
  | [a, b] => a.toNat * 256 + b.toNat
  | a :: b :: c :: _ => (a.toNat * 256 + b.toNat) * 256 + c.toNat

def vectorBorrow {α : Type} (v : List α) (i : Nat) : Except Abort α :=
  match v[i]? with
  | some a => .ok a
  | none => .error .indexOutOfBounds

/-- `sha3` stands for the native `std::hash::sha3_256`. -/
def pickExitNode (sha3 : Bytes → Bytes) (r : NetworkRegistry) (networkName : String)
    (digest : Bytes) : Except Abort (Option ExitNodeInfo) := do
  assert (r.networks.contains networkName) eNetworkNotFound
  let info ← r.networks.borrow networkName
  let activeExitNodes ← collectActive info.exitNodes info.exitNodePeerIds []
  if activeExitNodes.length = 0 then
    return none
  else
    let selectedIndex := randomValue (sha3 digest) % activeExitNodes.length
    return some (← vectorBorrow activeExitNodes selectedIndex)

/-- `address::to_string`: 32 bytes as 64 hexadecimal digits. -/
def addressToString (a : Address) : String :=
  let digits := Nat.toDigits 16 a
  String.ofList (List.replicate (64 - digits.length) '0' ++ digits)

def NetworkInfo.summary : NetworkSummary :=
  { networkName := info.networkName, admin := addressToString info.admin,
    createdAt := info.createdAt, description := info.description, maxPeers := info.maxPeers }

/-- The loop of `get_active_networks`. -/
def collectNetworks (networks : Table String NetworkInfo) :
    List String → List NetworkSummary → Except Abort (List NetworkSummary)
  | [], result => .ok result
  | networkName :: rest, result => do
    let info ← networks.borrow networkName
    collectNetworks networks rest (if info.isActive then result ++ [info.summary] else result)

def getActiveNetworks : Except Abort (List NetworkSummary) :=
  collectNetworks r.networks r.networkNames []

def getNetworkInfo (networkName : String) :
    Except Abort (String × Address × Nat × Bool × String × Nat × Nat) := do
  assert (r.networks.contains networkName) eNetworkNotFound
  let info ← r.networks.borrow networkName
  return (info.networkName, info.admin, info.createdAt, info.isActive, info.description,
    info.maxPeers, info.exitNodePeerIds.length)

def getNetworkSecret (networkName : String) : Except Abort Bytes := do
  assert (r.networks.contains networkName) eNetworkNotFound
  let info ← r.networks.borrow networkName
  assert info.isActive eNetworkExpired
  return info.networkSecret

def getExitNodeByPeerId (networkName : String) (peerId : PeerId) :
    Except Abort (Option ExitNodeInfo) := do
  if !r.networks.contains networkName then
    return none
  else
    let info ← r.networks.borrow networkName
    if info.exitNodes.contains peerId then
      return some (← info.exitNodes.borrow peerId)
    else
      return none

def getExitNodePeerIds (networkName : String) : Except Abort (List PeerId) := do
  assert (r.networks.contains networkName) eNetworkNotFound
  let info ← r.networks.borrow networkName
  return info.exitNodePeerIds

/-! ## What a successful call did -/

variable {r r' : NetworkRegistry} {n : String} {p : PeerId} {ctx : TxContext}

variable {secret : Bytes} {description : String} {maxPeers : Nat} {info info' : NetworkInfo}
  {isActive : Bool}

theorem createNetwork_ok (h : createNetwork r n secret description maxPeers ctx = .ok r') :
    r.networks n = none ∧
    r' = { r with
      networks := r.networks.set n
        { networkName := n, networkSecret := secret, admin := ctx.sender,
          createdAt := ctx.timestampMs, isActive := true, description, maxPeers,
          exitNodes := .empty, exitNodePeerIds := [] }
      networkNames := r.networkNames ++ [n] } := by
  simp only [createNetwork, bind_ok, assert_ok, Table.add_ok, pure_ok] at h
  obtain ⟨_, _, _, _, networks, ⟨absent, rfl⟩, rfl⟩ := h
  exact ⟨absent, rfl⟩

/-- The shape shared by every call that edits one existing network. -/
def Edits (r r' : NetworkRegistry) (n : String) (info info' : NetworkInfo) : Prop :=
  r.networks n = some info ∧ r' = { r with networks := r.networks.set n info' }

theorem updateNetwork_ok (h : updateNetwork r n secret description maxPeers ctx = .ok r') :
    ∃ info, info.admin = ctx.sender ∧ Edits r r' n info
      { info with networkSecret := secret, description, maxPeers } := by
  simp only [updateNetwork, bind_ok, assert_ok, Table.borrow_ok, pure_ok, beq_iff_eq] at h
  obtain ⟨_, _, info, present, _, owner, rfl⟩ := h
  exact ⟨info, owner, present, rfl⟩

/-- The two outcomes of adding an exit node: a fresh peer id goes to the end of
the list, a known one keeps its place. -/
theorem putExitNode_ok {node : ExitNodeInfo} (h : info.putExitNode p node = .ok info') :
    (info.exitNodes p = none ∧ info' = { info with
      exitNodes := info.exitNodes.set p node
      exitNodePeerIds := info.exitNodePeerIds ++ [p] }) ∨
    ((∃ old, info.exitNodes p = some old) ∧
      info' = { info with exitNodes := info.exitNodes.set p node }) := by
  unfold NetworkInfo.putExitNode at h
  split_ifs at h with known
  · simp only [pure_ok] at h
    exact .inr ⟨Table.contains_iff.mp known, h.symm⟩
  · simp only [bind_ok, Table.add_ok, pure_ok] at h
    obtain ⟨exitNodes, ⟨absent, rfl⟩, rfl⟩ := h
    exact .inl ⟨absent, rfl⟩

theorem addExitNode_ok {uris : List String} {hostname : String}
    (h : addExitNode r n p uris hostname ctx = .ok r') :
    ∃ info info', info.admin = ctx.sender ∧ Edits r r' n info info' ∧
      info.putExitNode p ⟨p, uris, hostname, true, ctx.timestampMs⟩ = .ok info' := by
  simp only [addExitNode, bind_ok, assert_ok, Table.borrow_ok, pure_ok, beq_iff_eq] at h
  obtain ⟨_, _, info, present, _, owner, info', put, rfl⟩ := h
  exact ⟨info, info', owner, ⟨present, rfl⟩, put⟩

/-- The outcomes of dropping an exit node; the list loses its first occurrence. -/
theorem dropExitNode_ok (h : info.dropExitNode p = .ok info') :
    (info.exitNodes p = none ∧ info' = info) ∨
    ((∃ old, info.exitNodes p = some old) ∧ info' = { info with
      exitNodes := Function.update info.exitNodes p none
      exitNodePeerIds := info.exitNodePeerIds.erase p }) := by
  unfold NetworkInfo.dropExitNode at h
  split_ifs at h with known
  · simp only [bind_ok, Table.remove_ok] at h
    obtain ⟨exitNodes, ⟨_, rfl⟩, h⟩ := h
    refine .inr ⟨Table.contains_iff.mp known, ?_⟩
    by_cases listed : p ∈ info.exitNodePeerIds
    · simp only [indexOf, listed, ↓reduceIte, pure_ok] at h
      rw [← h, ← List.erase_eq_eraseIdx_of_idxOf rfl]
    · simp only [indexOf, listed, ↓reduceIte, Bool.false_eq_true, pure_ok] at h
      rw [← h, List.erase_of_not_mem listed]
  · simp only [pure_ok] at h
    refine .inl ⟨?_, h.symm⟩
    simpa [Table.contains] using known

theorem removeExitNode_ok (h : removeExitNode r n p ctx = .ok r') :
    ∃ info info', info.admin = ctx.sender ∧ Edits r r' n info info' ∧
      info.dropExitNode p = .ok info' := by
  simp only [removeExitNode, bind_ok, assert_ok, Table.borrow_ok, pure_ok, beq_iff_eq] at h
  obtain ⟨_, _, info, present, _, owner, info', drop, rfl⟩ := h
  exact ⟨info, info', owner, ⟨present, rfl⟩, drop⟩

theorem setActive_ok (h : setActive isActive r n ctx = .ok r') :
    ∃ info, info.admin = ctx.sender ∧ Edits r r' n info { info with isActive } := by
  simp only [setActive, bind_ok, assert_ok, Table.borrow_ok, pure_ok, beq_iff_eq] at h
  obtain ⟨_, _, info, present, _, owner, rfl⟩ := h
  exact ⟨info, owner, present, rfl⟩

theorem updateExitNodeStatus_ok (h : updateExitNodeStatus r n p isActive ctx = .ok r') :
    ∃ info node, info.exitNodes p = some node ∧ Edits r r' n info
      { info with exitNodes := info.exitNodes.set p { node with isActive } } := by
  simp only [updateExitNodeStatus, bind_ok, assert_ok, Table.borrow_ok, pure_ok] at h
  obtain ⟨_, _, info, present, _, _, node, known, rfl⟩ := h
  exact ⟨info, node, known, present, rfl⟩

end PeerLink.Registry
