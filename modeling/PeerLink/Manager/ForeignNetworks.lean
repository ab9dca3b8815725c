import PeerLink.Route.Table
import PeerLink.Schedule.Pool

/-!
# The books of the foreign network manager

For every foreign network the manager has an entry with the peers of that network. Beside the
entries by name it keeps the networks of every peer and the time of the last change of every
network. A call of `add_peer_conn` writes into these books first and adds the connection later; a
handler for each entry takes the events of its peers, and takes peers and empty networks out of
the books. Calls, handlers and the removal of peers take turns, one operation at a time.
-/

namespace PeerLink.Manager

open Schedule Best

open Route (PeerId)

/-- Two identities are equal if the names and the digests of the secrets are. -/
structure NetworkIdentity where
  networkName : String
  networkSecretDigest : List UInt8
  deriving DecidableEq

/-- A connection that is to be added. -/
structure ForeignConn where
  peerId : PeerId
  myPeerId : PeerId
  networkIdentity : NetworkIdentity
  isHolePunched : Bool

inductive PeerEvent where
  | peerAdded (peerId : PeerId)
  | peerRemoved (peerId : PeerId)

/-- The task that handles the events of an entry. -/
inductive HandlerPhase where
  | absent
  /-- waits for the next event -/
  | idle
  /-- `network_peer_last_update.insert`, after `remove_peer` -/
  | stamp
  | ended
  deriving DecidableEq

/-- A connection of the peer map is the call that has added it, and whether it is hole punched. -/
structure ForeignNetworkEntry where
  myPeerId : PeerId
  network : NetworkIdentity
  peerMap : AList fun _ : PeerId => List (Nat × Bool)
  locked : Bool
  handler : HandlerPhase
  events : List PeerEvent

namespace ForeignNetworkEntry

variable (entry : ForeignNetworkEntry)

/-- The handler gets the events that are issued now. -/
def listens : Bool :=
  entry.handler = .idle ∨ entry.handler = .stamp

def issueEvent (event : PeerEvent) : ForeignNetworkEntry :=
  if entry.listens then { entry with events := entry.events ++ [event] } else entry

/-- The listener of the `Peer` takes out the connection of call `i`, which is closed. -/
def removeConn (peerId : PeerId) (i : Nat) : ForeignNetworkEntry :=
  match entry.peerMap.lookup peerId with
  | some conns =>
    { entry with peerMap := entry.peerMap.insert peerId (conns.filter fun conn => conn.1 ≠ i) }
  | none => entry

def directConns (peerId : PeerId) : Option Nat :=
  (entry.peerMap.lookup peerId).map fun conns => (conns.filter fun conn => !conn.2).length

end ForeignNetworkEntry

/-- `ForeignNetworkManagerData`. A set of names that is empty is not kept, so the networks of the
peers are a set of pairs. An entry is known by its place in the list. -/
structure ForeignData where
  networkPeerMaps : AList fun _ : String => Nat
  peerNetworkMap : Finset (PeerId × String)
  networkPeerLastUpdate : AList fun _ : String => Nat
  entries : List ForeignNetworkEntry

namespace ForeignData

def new : ForeignData := ⟨∅, ∅, ∅, []⟩

def modify (data : ForeignData) (e : Nat) (f : ForeignNetworkEntry → ForeignNetworkEntry) :
    ForeignData :=
  { data with entries := data.entries.modify e f }

variable (data : ForeignData)

def stamp (name : String) (now : Nat) : ForeignData :=
  { data with networkPeerLastUpdate := data.networkPeerLastUpdate.insert name now }

def removePeer (peerId : PeerId) (name : String) : ForeignData :=
  let data := { data with peerNetworkMap := data.peerNetworkMap.erase (peerId, name) }
  match data.networkPeerMaps.lookup name with
  | none => data
  | some e =>
    if (data.entries[e]?).any fun entry => entry.peerMap.keys.isEmpty then
      { data with
        networkPeerMaps := data.networkPeerMaps.erase name
        networkPeerLastUpdate := data.networkPeerLastUpdate.erase name }
    else
      data

def removeNetwork (name : String) : ForeignData :=
  { data with
    peerNetworkMap := data.peerNetworkMap.filter fun pair => pair.2 ≠ name
    networkPeerMaps := data.networkPeerMaps.erase name
    networkPeerLastUpdate := data.networkPeerLastUpdate.erase name }

/-- `get_or_insert_entry` up to the end of the lock: the entry, and whether it is new. -/
def getOrInsertEntry (conn : ForeignConn) (now : Nat) : ForeignData × Nat × Bool :=
  let name := conn.networkIdentity.networkName
  let book (data : ForeignData) : ForeignData :=
    { data with
      peerNetworkMap := insert (conn.peerId, name) data.peerNetworkMap
      networkPeerLastUpdate := data.networkPeerLastUpdate.insert name now }
  match data.networkPeerMaps.lookup name with
  | some e => (book data, e, false)
  | none =>
    let entry : ForeignNetworkEntry := ⟨conn.myPeerId, conn.networkIdentity, ∅, false, .absent, []⟩
    (book
      { data with
        networkPeerMaps := data.networkPeerMaps.insert name data.entries.length
        entries := data.entries ++ [entry] }, data.entries.length, true)

end ForeignData

inductive AddError where
  | notInWhitelist
  | myPeerIdNotMatch
  | networkSecretNotMatch
  | tooManyDirectConns
  deriving DecidableEq

/-- Where a call of `add_peer_conn` is, by the operation that comes next. -/
inductive ForeignPhase where
  /-- `check_network_in_whitelist` -/
  | start
  /-- `get_or_insert_entry` -/
  | register
  /-- `entry.prepare` -/
  | prepare (e : Nat)
  /-- `entry.lock.lock()` -/
  | lock (e : Nat) (newAdded : Bool)
  /-- the identity, then `start_event_handler` or the number of connections -/
  | inspect (e : Nat) (newAdded : Bool)
  /-- the operations of `add_new_peer_conn` -/
  | look (e : Nat)
  | insert (e : Nat)
  | get (e : Nat)
  | join (e : Nat)
  | done
  | failed (error : AddError)
  | panicked
  deriving DecidableEq

/-- The entry that the call works on. -/
def ForeignPhase.entry : ForeignPhase → Option Nat
  | .prepare e | .lock e _ | .inspect e _ | .look e | .insert e | .get e | .join e => some e
  | .start | .register | .done | .failed _ | .panicked => none

structure ForeignCall where
  conn : ForeignConn
  phase : ForeignPhase

/-- What a call meets: whether its network is in the whitelist, the flag `relay_all_peer_rpc`, the
number of connections that a peer may have, and the time. -/
structure ForeignEnv where
  whitelisted : Bool
  relayAllPeerRpc : Bool
  maxDirectConns : Nat
  now : Nat

namespace ForeignPhase

/-- The checks with the lock held. -/
def check (entry : ForeignNetworkEntry) (conn : ForeignConn) (newAdded : Bool) (env : ForeignEnv) :
    Option AddError :=
  if entry.network ≠ conn.networkIdentity ∨ entry.myPeerId ≠ conn.myPeerId then
    some (if entry.myPeerId ≠ conn.myPeerId then .myPeerIdNotMatch else .networkSecretNotMatch)
  else if !newAdded && (entry.directConns conn.peerId).any (env.maxDirectConns ≤ ·) then
    some .tooManyDirectConns
  else
    none

/-- One operation of call `i`. The lock of the entry is given back when the call ends. -/
def operate (data : ForeignData) (i : Nat) (conn : ForeignConn) (env : ForeignEnv) :
    ForeignPhase → ForeignData × ForeignPhase
  | .start =>
    if !env.whitelisted && !env.relayAllPeerRpc then (data, .failed .notInWhitelist)
    else (data, .register)
  | .register =>
    match data.getOrInsertEntry conn env.now with
    | (data, e, true) => (data, .prepare e)
    | (data, e, false) => (data, .lock e false)
  | .prepare e => (data, .lock e true)
  | .lock e newAdded =>
    if (data.entries[e]?).any (·.locked) then (data, .lock e newAdded)
    else (data.modify e fun entry => { entry with locked := true }, .inspect e newAdded)
  | .inspect e newAdded =>
    match data.entries[e]? with
    | none => (data, .panicked)
    | some entry =>
      match check entry conn newAdded env with
      | some .tooManyDirectConns =>
        (data.modify e fun entry => { entry with locked := false }, .failed .tooManyDirectConns)
      | some error =>
        let data := data.modify e fun entry => { entry with locked := false }
        (if newAdded then data.removeNetwork entry.network.networkName else data, .failed error)
      | none =>
        if newAdded then
          (data.modify e fun entry => { entry with handler := .idle }, .look e)
        else
          (data, .look e)
  | .look e =>
    if (data.entries[e]?).any fun entry => conn.peerId ∈ entry.peerMap then (data, .get e)
    else (data, .insert e)
  | .insert e =>
    (data.modify e fun entry =>
      { entry with
        peerMap := entry.peerMap.insert conn.peerId [(i, conn.isHolePunched)]
        locked := false }.issueEvent (.peerAdded conn.peerId), .done)
  | .get e =>
    if (data.entries[e]?).any fun entry => conn.peerId ∈ entry.peerMap then (data, .join e)
    else (data.modify e fun entry => { entry with locked := false }, .panicked)
  | .join e =>
    -- a `Peer` that has left the map in between takes the connection all the same
    (data.modify e fun entry =>
      { entry with
        peerMap :=
          match entry.peerMap.lookup conn.peerId with
          | some conns => entry.peerMap.insert conn.peerId ((i, conn.isHolePunched) :: conns)
          | none => entry.peerMap
        locked := false }, .done)
  | .done => (data, .done)
  | .failed error => (data, .failed error)
  | .panicked => (data, .panicked)

end ForeignPhase

/-- The events of the manager. A connection closes at any time. A peer leaves the map of an entry
by `close_peer`, when the clean-up has seen it without a connection; here, at any time. -/
inductive ForeignEvent where
  | addPeerConn (conn : ForeignConn)
  | turn (i : Nat) (env : ForeignEnv)
  | closeConn (e : Nat) (peerId : PeerId) (i : Nat)
  | closePeer (e : Nat) (peerId : PeerId)
  | handle (e : Nat) (now : Nat)
  /-- the handler has lagged behind, or there is nobody left to issue events -/
  | finish (e : Nat)

abbrev ForeignPool := Pool ForeignData ForeignCall

namespace ForeignPool

def new : ForeignPool := ⟨.new, []⟩

/-- The next operation of the handler of an entry. -/
def handle (data : ForeignData) (e now : Nat) : ForeignData :=
  match data.entries[e]? with
  | none => data
  | some entry =>
    let name := entry.network.networkName
    match entry.handler, entry.events with
    | .idle, .peerRemoved peerId :: events =>
      (data.modify e fun entry => { entry with handler := .stamp, events := events }).removePeer
        peerId name
    | .idle, .peerAdded _ :: events =>
      (data.modify e fun entry => { entry with events := events }).stamp name now
    | .stamp, _ => (data.modify e fun entry => { entry with handler := .idle }).stamp name now
    | _, _ => data

def finish (data : ForeignData) (e : Nat) : ForeignData :=
  match data.entries[e]? with
  | none => data
  | some entry =>
    if entry.handler = .idle then
      (data.modify e fun entry => { entry with handler := .ended }).removeNetwork
        entry.network.networkName
    else
      data

def step (pool : ForeignPool) : ForeignEvent → ForeignPool
  | .addPeerConn conn => pool.spawn pool.shared ⟨conn, .start⟩
  | .turn i env =>
    match pool.tasks[i]? with
    | none => pool
    | some call =>
      let (data, phase) := call.phase.operate pool.shared i call.conn env
      pool.turn i data { call with phase }
  | .closeConn e peerId i =>
    pool.change (pool.shared.modify e fun entry => entry.removeConn peerId i)
  | .closePeer e peerId =>
    pool.change (pool.shared.modify e fun entry =>
      { entry with peerMap := entry.peerMap.erase peerId }.issueEvent (.peerRemoved peerId))
  | .handle e now => pool.change (handle pool.shared e now)
  | .finish e => pool.change (finish pool.shared e)

def run (pool : ForeignPool) (events : List ForeignEvent) : ForeignPool := events.foldl step pool

end ForeignPool

end PeerLink.Manager
