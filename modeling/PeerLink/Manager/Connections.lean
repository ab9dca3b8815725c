import PeerLink.Route.Table
import PeerLink.Schedule.Pool

/-!
# The connections of the peer map

The peer map has a `Peer` for the id of a peer, and the `Peer` has the connections. A call of
`add_new_peer_conn` looks whether there is a `Peer` and then, in a step of its own, puts a new one
into the map or joins the one that is there; `clean_peer_without_conn` looks which peers have no
open connection and then, one by one, removes them. Calls take turns between any two of their
steps, and a connection can close at any time.
-/

namespace PeerLink.Manager

open Schedule Best

open Route (PeerId)

/-- A `Peer` with its connections. A connection is known by the call that adds it. -/
structure ConnPeer where
  peerNodeId : PeerId
  conns : List Nat
  deriving DecidableEq

/-- A `Peer` is known by its place in the list. -/
structure ConnMap where
  peerMap : AList fun _ : PeerId => Nat
  peers : List ConnPeer
  closed : List Nat

/-- Where a call of `add_new_peer_conn` is, by the step that comes next. -/
inductive AddPhase where
  /-- `peer_map.get(&peer_id).is_none()` -/
  | check
  /-- `peer_map.insert(peer_id, ..)` of a new `Peer`, to which the connection has been added while
  no other task knew of it -/
  | insert
  /-- `peer_map.get(&peer_id).unwrap().clone()` -/
  | get
  /-- `peer.add_peer_conn(peer_conn)` -/
  | join (peer : Nat)
  | done
  /-- `unwrap` has found nothing -/
  | panicked
  deriving DecidableEq

/-- Where a run of `clean_peer_without_conn` is. -/
inductive CleanPhase where
  /-- `list_peers` -/
  | list
  /-- `get_peer_by_id` of the next peer, and its connections -/
  | look (peers toRemove : List PeerId)
  /-- whether all of these connections are closed -/
  | judge (peer : PeerId) (conns : List Nat) (peers toRemove : List PeerId)
  /-- `close_peer` of the next peer -/
  | remove (toRemove : List PeerId)
  deriving DecidableEq

inductive MapTask where
  | add (peerId : PeerId) (phase : AddPhase)
  | clean (phase : CleanPhase)
  deriving DecidableEq

namespace ConnMap

def new : ConnMap := ⟨∅, [], []⟩

variable (map : ConnMap) (conn : Nat)

def insertNew (peerId : PeerId) : ConnMap :=
  { map with
    peerMap := map.peerMap.insert peerId map.peers.length
    peers := map.peers ++ [⟨peerId, [conn]⟩] }

def addPeerConn (peer : Nat) : ConnMap :=
  { map with peers := map.peers.modify peer fun p => { p with conns := conn :: p.conns } }

def closePeer (peerId : PeerId) : ConnMap :=
  { map with peerMap := map.peerMap.erase peerId }

/-- The listener of a `Peer` has got the id of a connection that is closed. -/
def listen (peer conn : Nat) : ConnMap :=
  if conn ∈ map.closed then
    { map with
      peers := map.peers.modify peer fun p => { p with conns := p.conns.filter (· ≠ conn) } }
  else
    map

def close : ConnMap := { map with closed := conn :: map.closed }

end ConnMap

def AddPhase.operate (map : ConnMap) (conn : Nat) (peerId : PeerId) :
    AddPhase → ConnMap × AddPhase
  | .check => (map, if (map.peerMap.lookup peerId).isNone then .insert else .get)
  | .insert => (map.insertNew conn peerId, .done)
  | .get =>
    match map.peerMap.lookup peerId with
    | none => (map, .panicked)
    | some peer => (map, .join peer)
  | .join peer => (map.addPeerConn conn peer, .done)
  | .done => (map, .done)
  | .panicked => (map, .panicked)

/-- The map may change while `list_peers` goes through it; `listed` is what it comes to. -/
def CleanPhase.operate (map : ConnMap) (listed : List PeerId) : CleanPhase → ConnMap × CleanPhase
  | .list => (map, .look listed [])
  | .look [] toRemove => (map, .remove toRemove)
  | .look (peerId :: peers) toRemove =>
    match map.peerMap.lookup peerId with
    | none => (map, .look peers (toRemove ++ [peerId]))
    | some peer => (map, .judge peerId ((map.peers[peer]?.map (·.conns)).getD []) peers toRemove)
  | .judge peerId conns peers toRemove =>
    if conns.all (· ∈ map.closed) then (map, .look peers (toRemove ++ [peerId]))
    else (map, .look peers toRemove)
  | .remove [] => (map, .remove [])
  | .remove (peerId :: toRemove) => (map.closePeer peerId, .remove toRemove)

inductive MapEvent where
  | add (peerId : PeerId)
  | clean
  | turn (i : Nat) (listed : List PeerId)
  | close (conn : Nat)
  | listen (peer conn : Nat)

abbrev ConnPool := Pool ConnMap MapTask

namespace ConnPool

def new : ConnPool := ⟨.new, []⟩

def step (pool : ConnPool) : MapEvent → ConnPool
  | .add peerId => pool.spawn pool.shared (.add peerId .check)
  | .clean => pool.spawn pool.shared (.clean .list)
  | .turn i listed =>
    match pool.tasks[i]? with
    | none => pool
    | some (.add peerId phase) =>
      let (map, phase) := phase.operate pool.shared i peerId
      pool.turn i map (.add peerId phase)
    | some (.clean phase) =>
      let (map, phase) := phase.operate pool.shared listed
      pool.turn i map (.clean phase)
  | .close conn => pool.change (pool.shared.close conn)
  | .listen peer conn => pool.change (pool.shared.listen peer conn)

def run (pool : ConnPool) (events : List MapEvent) : ConnPool := events.foldl step pool

end ConnPool

/-! ### What the operations do to the connections of the map -/

namespace ConnMap

/-- The connection is in the `Peer` that the map has for the id. -/
def Stored (map : ConnMap) (peerId : PeerId) (conn : Nat) : Prop :=
  ∃ peer p, map.peerMap.lookup peerId = some peer ∧ map.peers[peer]? = some p ∧ conn ∈ p.conns

/-- The `Peer` at the place was made for the id. -/
def Owns (map : ConnMap) (peer : Nat) (peerId : PeerId) : Prop :=
  ∃ p, map.peers[peer]? = some p ∧ p.peerNodeId = peerId

def Ok (map : ConnMap) : Prop :=
  ∀ peerId peer, map.peerMap.lookup peerId = some peer → map.Owns peer peerId

variable {map : ConnMap} {peerId other : PeerId} {conn i peer place : Nat}

theorem stored_modify {f : ConnPeer → ConnPeer} :
    Stored { map with peers := map.peers.modify place f } peerId conn ↔
      ∃ peer p, map.peerMap.lookup peerId = some peer ∧ map.peers[peer]? = some p ∧
        conn ∈ (if place = peer then f p else p).conns := by
  simp [Stored, List.getElem?_modify]

section
variable (owns : map.Owns peer peerId)
include owns

theorem Owns.same (owns' : map.Owns peer other) : peerId = other := by
  obtain ⟨p, here, mine⟩ := owns
  obtain ⟨q, here', yours⟩ := owns'
  cases here.symm.trans here'
  exact mine.symm.trans yours

theorem Owns.insertNew : (map.insertNew i other).Owns peer peerId := by
  obtain ⟨p, here, mine⟩ := owns
  exact ⟨p, (List.getElem?_append_left (List.getElem?_eq_some_iff.mp here).1).trans here, mine⟩

theorem Owns.modify {f : ConnPeer → ConnPeer} (keeps : ∀ p, (f p).peerNodeId = p.peerNodeId) :
    Owns { map with peers := map.peers.modify place f } peer peerId := by
  obtain ⟨p, here, mine⟩ := owns
  by_cases same : place = peer
  · exact ⟨f p, by simp [same, here], (keeps p).trans mine⟩
  · exact ⟨p, by simp [same, here], mine⟩

theorem Owns.addPeerConn : (map.addPeerConn i place).Owns peer peerId :=
  owns.modify fun _ => rfl

theorem Owns.listen : (map.listen place i).Owns peer peerId := by
  unfold ConnMap.listen
  split
  · exact owns.modify fun _ => rfl
  · exact owns

end

section
variable (ok : map.Ok)
include ok

theorem Ok.insertNew : (map.insertNew i other).Ok := by
  intro peerId peer found
  obtain old | ⟨rfl, rfl⟩ := lookup_insert_origin found
  · exact (ok peerId peer old).insertNew
  · exact ⟨⟨peerId, [i]⟩, List.getElem?_concat_length, rfl⟩

theorem Ok.addPeerConn : (map.addPeerConn i place).Ok :=
  fun peerId peer found => (ok peerId peer found).addPeerConn

theorem Ok.closePeer : (map.closePeer other).Ok :=
  fun peerId peer found => ok peerId peer (lookup_erase_origin found)

theorem Ok.listen : (map.listen place i).Ok := by
  refine fun peerId peer found => (ok peerId peer ?_).listen
  unfold ConnMap.listen at found
  split at found
  · exact found
  · exact found

theorem stored_insertNew :
    (map.insertNew i other).Stored peerId conn ↔
      if peerId = other then conn = i else map.Stored peerId conn := by
  unfold Stored insertNew
  split_ifs with same
  · rw [same]
    simp [AList.lookup_insert]
  · simp only [AList.lookup_insert_ne same]
    refine exists_congr fun peer => exists_congr fun p => and_congr_right fun found => ?_
    obtain ⟨_, here, -⟩ := ok peerId peer found
    rw [List.getElem?_append_left (List.getElem?_eq_some_iff.mp here).1]

theorem stored_addPeerConn :
    (map.addPeerConn i peer).Stored peerId conn ↔
      map.Stored peerId conn ∨ conn = i ∧ map.peerMap.lookup peerId = some peer := by
  rw [addPeerConn, stored_modify]
  constructor
  · rintro ⟨found, p, stored, here, mem⟩
    split_ifs at mem with same
    · rcases List.mem_cons.mp mem with new | known
      · exact .inr ⟨new, same ▸ stored⟩
      · exact .inl ⟨found, p, stored, here, known⟩
    · exact .inl ⟨found, p, stored, here, mem⟩
  · rintro (⟨found, p, stored, here, mem⟩ | ⟨rfl, stored⟩)
    · refine ⟨found, p, stored, here, ?_⟩
      split_ifs
      · exact List.mem_cons_of_mem i mem
      · exact mem
    · obtain ⟨p, here, -⟩ := ok peerId peer stored
      exact ⟨peer, p, stored, here, by simp⟩

end

theorem stored_closePeer :
    (map.closePeer other).Stored peerId conn ↔ peerId ≠ other ∧ map.Stored peerId conn := by
  simp only [Stored, closePeer, lookup_erase_iff, ← exists_and_left]
  grind

theorem stored_listen_of (stored : (map.listen place i).Stored peerId conn) :
    map.Stored peerId conn := by
  unfold listen at stored
  split at stored
  · obtain ⟨found, p, known, here, mem⟩ := stored_modify.mp stored
    refine ⟨found, p, known, here, ?_⟩
    split at mem
    · exact (List.mem_filter.mp mem).1
    · exact mem
  · exact stored

/-- The listener removes no connection that is open. -/
theorem stored_listen (opened : conn ∉ map.closed) (stored : map.Stored peerId conn) :
    (map.listen place i).Stored peerId conn := by
  unfold listen
  split_ifs with closed
  · obtain ⟨found, p, known, here, mem⟩ := stored
    have ne : conn ≠ i := fun same => opened (same ▸ closed)
    refine stored_modify.mpr ⟨found, p, known, here, ?_⟩
    split_ifs
    · exact List.mem_filter.mpr ⟨mem, by simpa using ne⟩
    · exact mem
  · exact stored

end ConnMap

/-- The part of a step that a call of `add_new_peer_conn` plays for the map. -/
theorem AddPhase.operate_cases (map : ConnMap) (conn : Nat) (peerId : PeerId) (phase : AddPhase) :
    (phase = .insert ∧ phase.operate map conn peerId = (map.insertNew conn peerId, .done)) ∨
      (∃ peer, phase = .join peer ∧
        phase.operate map conn peerId = (map.addPeerConn conn peer, .done)) ∨
      (phase ≠ .insert ∧ (∀ peer, phase ≠ .join peer) ∧ (phase.operate map conn peerId).1 = map ∧
        ((phase.operate map conn peerId).2 = .done ↔ phase = .done)) := by
  cases phase with
  | check =>
    refine .inr (.inr ⟨nofun, nofun, rfl, ?_⟩)
    simp only [operate]
    split <;> simp
  | insert => exact .inl ⟨rfl, rfl⟩
  | get =>
    refine .inr (.inr ⟨nofun, nofun, ?_⟩)
    simp only [operate]
    split <;> simp
  | join peer => exact .inr (.inl ⟨peer, rfl, rfl⟩)
  | done | panicked => exact .inr (.inr ⟨nofun, nofun, rfl, by simp [operate]⟩)

theorem CleanPhase.operate_cases (map : ConnMap) (listed : List PeerId) (phase : CleanPhase) :
    (∃ peerId toRemove, phase = .remove (peerId :: toRemove) ∧
        (phase.operate map listed).1 = map.closePeer peerId) ∨
      (∀ peerId toRemove, phase ≠ .remove (peerId :: toRemove)) ∧
        (phase.operate map listed).1 = map := by
  cases phase with
  | list => exact .inr ⟨nofun, rfl⟩
  | look peers toRemove =>
    refine .inr ⟨nofun, ?_⟩
    cases peers with
    | nil => rfl
    | cons peerId peers =>
      simp only [operate]
      split <;> rfl
  | judge peerId conns peers toRemove =>
    refine .inr ⟨nofun, ?_⟩
    simp only [operate]
    split <;> rfl
  | remove toRemove =>
    cases toRemove with
    | nil => exact .inr ⟨nofun, rfl⟩
    | cons peerId toRemove => exact .inl ⟨peerId, toRemove, rfl, rfl⟩

/-- A call joins only a `Peer` of its own id. -/
def MapTask.Asserts (map : ConnMap) : MapTask → Prop
  | .add peerId (.join peer) => map.Owns peer peerId
  | _ => True

theorem MapTask.Asserts.mono {map map' : ConnMap}
    (grows : ∀ peer peerId, map.Owns peer peerId → map'.Owns peer peerId) {task : MapTask}
    (asserts : task.Asserts map) : task.Asserts map' := by
  cases task with
  | clean phase => trivial
  | add peerId phase =>
    cases phase with
    | join peer => exact grows peer peerId asserts
    | check | insert | get | done | panicked => trivial

/-- A step of a call keeps the invariant of the map and all that calls know of it. -/
theorem AddPhase.operate_ok {map : ConnMap} (ok : map.Ok) (conn : Nat) (peerId : PeerId)
    (phase : AddPhase) :
    (phase.operate map conn peerId).1.Ok ∧
      (∀ peer owner, map.Owns peer owner → (phase.operate map conn peerId).1.Owns peer owner) ∧
      (MapTask.add peerId (phase.operate map conn peerId).2).Asserts
        (phase.operate map conn peerId).1 := by
  cases phase with
  | check =>
    refine ⟨ok, fun _ _ owns => owns, ?_⟩
    simp only [operate]
    split <;> trivial
  | insert => exact ⟨ok.insertNew, fun _ _ owns => owns.insertNew, trivial⟩
  | get =>
    simp only [operate]
    split
    · exact ⟨ok, fun _ _ owns => owns, trivial⟩
    · rename_i peer found
      exact ⟨ok, fun _ _ owns => owns, ok peerId peer found⟩
  | join peer => exact ⟨ok.addPeerConn, fun _ _ owns => owns.addPeerConn, trivial⟩
  | done | panicked => exact ⟨ok, fun _ _ owns => owns, trivial⟩

namespace ConnPool

/-- The invariant of every run. -/
def Ok (pool : ConnPool) : Prop := pool.Sound ConnMap.Ok MapTask.Asserts fun _ _ => True

theorem Ok.new : new.Ok := Pool.Sound.idle nofun

theorem Ok.step {pool : ConnPool} (ok : pool.Ok) (event : MapEvent) : (pool.step event).Ok := by
  have spawned (task : MapTask) (own : task.Asserts pool.shared) :
      Ok (pool.spawn pool.shared task) :=
    Pool.Sound.spawn ok (fun _ _ _ => trivial) ok.shared own fun j u found =>
      ⟨ok.each j u found, trivial⟩
  cases event with
  | add peerId | clean => exact spawned _ trivial
  | close conn => exact Pool.Sound.change ok ok.shared fun _ asserts => asserts.mono fun _ _ => id
  | listen peer conn =>
    exact Pool.Sound.change ok ok.shared.listen fun _ asserts =>
      asserts.mono fun _ _ owns => owns.listen
  | turn i listed =>
    simp only [ConnPool.step]
    split
    · exact ok
    · rename_i peerId phase here
      obtain ⟨shared, grows, own⟩ := phase.operate_ok ok.shared i peerId
      exact Pool.Sound.turn ok (fun _ _ _ => trivial) here shared own fun _ _ asserts =>
        ⟨asserts.mono grows, trivial⟩
    · rename_i phase here
      have kept : (phase.operate pool.shared listed).1.Ok ∧
          (phase.operate pool.shared listed).1.peers = pool.shared.peers := by
        obtain ⟨peerId, _, -, after⟩ | ⟨-, same⟩ := phase.operate_cases pool.shared listed
        · rw [after]
          exact ⟨ok.shared.closePeer, rfl⟩
        · rw [same]
          exact ⟨ok.shared, rfl⟩
      refine Pool.Sound.turn ok (fun _ _ _ => trivial) here kept.1 trivial fun _ _ asserts =>
        ⟨asserts.mono fun peer owner owns => ?_, trivial⟩
      unfold ConnMap.Owns
      rw [kept.2]
      exact owns

variable (pool : ConnPool) (peerId : PeerId) (conn : Nat)

/-- The step takes the `Peer` of the id out of the map: another call puts its own in the place, or
a run of the cleaner removes it. -/
def Replaces : MapEvent → Prop
  | .turn j _ =>
    j ≠ conn ∧ pool.tasks[j]? = some (.add peerId .insert) ∨
      ∃ toRemove, pool.tasks[j]? = some (.clean (.remove (peerId :: toRemove)))
  | _ => False

/-- The call adds its connection to a `Peer` that the map does not have any more. -/
def Misses : MapEvent → Prop
  | .turn j _ =>
    j = conn ∧ ∃ peer, pool.tasks[j]? = some (.add peerId (.join peer)) ∧
      pool.shared.peerMap.lookup peerId ≠ some peer
  | _ => False

/-- The call brings its connection into the map. -/
def Enters : MapEvent → Prop
  | .turn j _ =>
    j = conn ∧ (pool.tasks[j]? = some (.add peerId .insert) ∨
      ∃ peer, pool.tasks[j]? = some (.add peerId (.join peer)) ∧
        pool.shared.peerMap.lookup peerId = some peer)
  | _ => False

/-- The step by which the map loses the connection. -/
def Loses (event : MapEvent) : Prop :=
  pool.shared.Stored peerId conn ∧ pool.Replaces peerId conn event ∨
    pool.Misses peerId conn event

/-- No step of the run loses the connection. -/
def NeverLost (pool : ConnPool) (peerId : PeerId) (conn : Nat) : List MapEvent → Prop
  | [] => True
  | event :: events =>
    ¬ pool.Loses peerId conn event ∧ NeverLost (pool.step event) peerId conn events

variable {pool peerId conn} {event : MapEvent}

/-- All that the turn of a task can do to the map. -/
theorem turn_shared (pool : ConnPool) (j : Nat) (listed : List PeerId) :
    (∃ other, pool.tasks[j]? = some (.add other .insert) ∧
        (pool.step (.turn j listed)).shared = pool.shared.insertNew j other) ∨
      (∃ other peer, pool.tasks[j]? = some (.add other (.join peer)) ∧
        (pool.step (.turn j listed)).shared = pool.shared.addPeerConn j peer) ∨
      (∃ other toRemove, pool.tasks[j]? = some (.clean (.remove (other :: toRemove))) ∧
        (pool.step (.turn j listed)).shared = pool.shared.closePeer other) ∨
      (∀ other, pool.tasks[j]? ≠ some (.add other .insert)) ∧
        (∀ other toRemove, pool.tasks[j]? ≠ some (.clean (.remove (other :: toRemove)))) ∧
        (pool.step (.turn j listed)).shared = pool.shared := by
  simp only [step]
  cases here : pool.tasks[j]? with
  | none => exact .inr (.inr (.inr ⟨nofun, nofun, rfl⟩))
  | some task =>
    cases task with
    | add other phase =>
      obtain ⟨rfl, after⟩ | ⟨peer, rfl, after⟩ | ⟨notInsert, -, same, -⟩ :=
        phase.operate_cases pool.shared j other
      · exact .inl ⟨other, rfl, rfl⟩
      · exact .inr (.inl ⟨other, peer, rfl, rfl⟩)
      · refine .inr (.inr (.inr ⟨fun _ found => ?_, nofun, same⟩))
        cases found
        exact notInsert rfl
    | clean phase =>
      obtain ⟨other, toRemove, rfl, after⟩ | ⟨notRemove, same⟩ :=
        phase.operate_cases pool.shared listed
      · exact .inr (.inr (.inl ⟨other, toRemove, rfl, after⟩))
      · refine .inr (.inr (.inr ⟨nofun, fun other toRemove found => ?_, same⟩))
        cases found
        exact notRemove other toRemove rfl

/-- What the connections of the map come from. -/
theorem stored_step_of (ok : pool.Ok)
    (stored : (pool.step event).shared.Stored peerId conn) :
    pool.shared.Stored peerId conn ∧ ¬ pool.Replaces peerId conn event ∨
      pool.Enters peerId conn event := by
  cases event with
  | add other | clean | close other => exact .inl ⟨stored, id⟩
  | listen peer other => exact .inl ⟨ConnMap.stored_listen_of stored, id⟩
  | turn j listed =>
    obtain ⟨other, here, after⟩ | ⟨other, peer, here, after⟩ | ⟨other, toRemove, here, after⟩ |
      ⟨notInsert, notRemove, after⟩ := pool.turn_shared j listed <;> rw [after] at stored
    · have stored := (ConnMap.stored_insertNew ok.shared).mp stored
      split_ifs at stored with mine
      · exact .inr ⟨stored.symm, .inl (mine ▸ here)⟩
      · exact .inl ⟨stored, by simp [Replaces, here, Ne.symm mine]⟩
    · obtain known | ⟨rfl, found⟩ := (ConnMap.stored_addPeerConn ok.shared).mp stored
      · exact .inl ⟨known, by simp [Replaces, here]⟩
      · have mine : other = peerId :=
          ConnMap.Owns.same (ok.each conn _ here) (ok.shared peerId peer found)
        exact .inr ⟨rfl, .inr ⟨peer, mine ▸ here, found⟩⟩
    · obtain ⟨differ, known⟩ := ConnMap.stored_closePeer.mp stored
      exact .inl ⟨known, by simp [Replaces, here, Ne.symm differ]⟩
    · exact .inl ⟨stored, by simp [Replaces, notInsert, notRemove]⟩

theorem not_stored_step (ok : pool.Ok) (absent : ¬ pool.shared.Stored peerId conn)
    (other : ¬ pool.Enters peerId conn event) : ¬ (pool.step event).shared.Stored peerId conn :=
  fun stored => (stored_step_of ok stored).elim (absent ·.1) other

/-- An open connection stays unless its `Peer` is taken out of the map. -/
theorem stored_step (ok : pool.Ok) (opened : conn ∉ pool.shared.closed)
    (stored : pool.shared.Stored peerId conn) (kept : ¬ pool.Replaces peerId conn event) :
    (pool.step event).shared.Stored peerId conn := by
  cases event with
  | add other | clean | close other => exact stored
  | listen peer other => exact ConnMap.stored_listen opened stored
  | turn j listed =>
    obtain ⟨other, here, after⟩ | ⟨other, peer, here, after⟩ | ⟨other, toRemove, here, after⟩ |
      ⟨-, -, after⟩ := pool.turn_shared j listed <;> rw [after]
    · refine (ConnMap.stored_insertNew ok.shared).mpr ?_
      split_ifs with mine
      · by_contra ne
        exact kept (.inl ⟨Ne.symm ne, mine ▸ here⟩)
      · exact stored
    · exact (ConnMap.stored_addPeerConn ok.shared).mpr (.inl stored)
    · exact ConnMap.stored_closePeer.mpr
        ⟨fun mine => kept (.inr ⟨toRemove, mine ▸ here⟩), stored⟩
    · exact stored

theorem stored_of_enters (ok : pool.Ok) (enters : pool.Enters peerId conn event) :
    (pool.step event).shared.Stored peerId conn := by
  cases event with
  | add other | clean | close other | listen peer other => cases enters
  | turn j listed =>
    obtain ⟨rfl, here | ⟨peer, here, found⟩⟩ := enters
    · simp only [step, here]
      exact (ConnMap.stored_insertNew ok.shared).mpr (by simp)
    · simp only [step, here]
      exact (ConnMap.stored_addPeerConn ok.shared).mpr (.inr ⟨rfl, found⟩)

/-- A call is done when it has brought its connection into the map, or has missed it. -/
theorem done_step_of (finished : (pool.step event).tasks[conn]? = some (.add peerId .done)) :
    pool.tasks[conn]? = some (.add peerId .done) ∨ pool.Enters peerId conn event ∨
      pool.Misses peerId conn event := by
  cases event with
  | add other | clean =>
    obtain ⟨-, new⟩ | old := Pool.getElem?_spawn finished
    · cases new
    · exact .inl old
  | close other | listen peer other => exact .inl finished
  | turn j listed =>
    simp only [step] at finished
    split at finished
    · exact .inl finished
    · rename_i other phase here
      obtain ⟨rfl, new⟩ | ⟨-, old⟩ := Pool.getElem?_turn finished
      · obtain ⟨rfl, after⟩ | ⟨peer, rfl, after⟩ | ⟨-, -, -, doneIff⟩ :=
          phase.operate_cases pool.shared conn other
        · cases new
          exact .inr (.inl ⟨rfl, .inl here⟩)
        · cases new
          by_cases found : pool.shared.peerMap.lookup peerId = some peer
          · exact .inr (.inl ⟨rfl, .inr ⟨peer, here, found⟩⟩)
          · exact .inr (.inr ⟨rfl, peer, here, found⟩)
        · rw [MapTask.add.injEq] at new
          obtain ⟨rfl, done⟩ := new
          rw [doneIff.mp done.symm] at here
          exact .inl here
      · exact .inl old
    · obtain ⟨-, new⟩ | ⟨-, old⟩ := Pool.getElem?_turn finished
      · cases new
      · exact .inl old

theorem done_of_enters_or_misses
    (own : pool.Enters peerId conn event ∨ pool.Misses peerId conn event) :
    (pool.step event).tasks[conn]? = some (.add peerId .done) := by
  have last {j : Nat} {listed : List PeerId} {phase : AddPhase}
      (here : pool.tasks[j]? = some (.add peerId phase))
      (done : (phase.operate pool.shared j peerId).2 = .done) :
      (pool.step (.turn j listed)).tasks[j]? = some (.add peerId .done) := by
    simp only [step, here, done]
    exact Pool.turn_self here
  cases event with
  | add other | clean | close other | listen peer other => cases own <;> contradiction
  | turn j listed =>
    obtain ⟨rfl, here | ⟨peer, here, -⟩⟩ | ⟨rfl, peer, here, -⟩ := own
    · exact last here rfl
    · exact last here rfl
    · exact last here rfl

theorem not_enters_of_misses (misses : pool.Misses peerId conn event) :
    ¬ pool.Enters peerId conn event := by
  intro enters
  cases event with
  | add other | clean | close other | listen peer other => cases enters
  | turn j listed =>
    obtain ⟨-, peer, here, gone⟩ := misses
    obtain ⟨-, here' | ⟨peer', here', found⟩⟩ := enters
    · cases here.symm.trans here'
    · cases here.symm.trans here'
      exact gone found

theorem done_step (finished : pool.tasks[conn]? = some (.add peerId .done)) (event : MapEvent) :
    (pool.step event).tasks[conn]? = some (.add peerId .done) := by
  cases event with
  | add other | clean => exact Pool.spawn_other finished
  | close other | listen peer other => exact finished
  | turn j listed =>
    by_cases mine : j = conn
    · subst mine
      simp only [step, finished, AddPhase.operate]
      exact Pool.turn_self finished
    · simp only [step]
      split
      · exact finished
      · exact (Pool.turn_other mine).trans finished
      · exact (Pool.turn_other mine).trans finished

theorem not_enters_of_done (finished : pool.tasks[conn]? = some (.add peerId .done)) :
    ¬ pool.Enters peerId conn event ∧ ¬ pool.Misses peerId conn event := by
  cases event with
  | add other | clean | close other | listen peer other => exact ⟨id, id⟩
  | turn j listed =>
    constructor
    · rintro ⟨rfl, here | ⟨_, here, -⟩⟩ <;> cases finished.symm.trans here
    · rintro ⟨rfl, _, here, -⟩
      cases finished.symm.trans here

theorem closed_step (closed : conn ∈ pool.shared.closed) (event : MapEvent) :
    conn ∈ (pool.step event).shared.closed := by
  cases event with
  | add other | clean => exact closed
  | close other => exact List.mem_cons_of_mem other closed
  | listen peer other =>
    simp only [step, Pool.change, ConnMap.listen]
    split <;> exact closed
  | turn j listed =>
    obtain ⟨_, -, after⟩ | ⟨_, _, -, after⟩ | ⟨_, _, -, after⟩ | ⟨-, -, after⟩ :=
      pool.turn_shared j listed <;> rw [after] <;> exact closed

theorem closed_run (closed : conn ∈ pool.shared.closed) (events : List MapEvent) :
    conn ∈ (pool.run events).shared.closed := by
  induction events generalizing pool with
  | nil => exact closed
  | cons event events ih => exact ih (closed_step closed event)

/-- What the map has lost does not come back. -/
theorem gone_run (ok : pool.Ok) (finished : pool.tasks[conn]? = some (.add peerId .done))
    (gone : ¬ pool.shared.Stored peerId conn) (events : List MapEvent) :
    ¬ (pool.run events).shared.Stored peerId conn := by
  induction events generalizing pool with
  | nil => exact gone
  | cons event events ih =>
    exact ih (ok.step event) (done_step finished event)
      (not_stored_step ok gone (not_enters_of_done finished).1)

/-- From a state in which the call is done and the map has the connection. -/
theorem stored_run_iff (ok : pool.Ok) (finished : pool.tasks[conn]? = some (.add peerId .done))
    (stored : pool.shared.Stored peerId conn) {events : List MapEvent}
    (opened : conn ∉ (pool.run events).shared.closed) :
    (pool.run events).shared.Stored peerId conn ↔ pool.NeverLost peerId conn events := by
  induction events generalizing pool with
  | nil => exact iff_of_true stored trivial
  | cons event events ih =>
    have finished' := done_step finished event
    obtain ⟨notEnters, notMisses⟩ := @not_enters_of_done pool peerId conn event finished
    by_cases replaced : pool.Replaces peerId conn event
    · refine iff_of_false (gone_run (ok.step event) finished' (fun after => ?_) events)
        fun never => never.1 (.inl ⟨stored, replaced⟩)
      obtain ⟨-, kept⟩ | enters := stored_step_of ok after
      · exact kept replaced
      · exact notEnters enters
    · have live : conn ∉ pool.shared.closed := fun closed =>
        opened (closed_run (closed_step closed event) events)
      refine (ih (ok.step event) finished' (stored_step ok live stored replaced) opened).trans
        ⟨fun never => ⟨?_, never⟩, And.right⟩
      rintro (⟨-, gone⟩ | misses)
      · exact replaced gone
      · exact notMisses misses

/-- From a state in which the call is not done. -/
theorem pending_run_iff (ok : pool.Ok) (pending : pool.tasks[conn]? ≠ some (.add peerId .done))
    (absent : ¬ pool.shared.Stored peerId conn) {events : List MapEvent}
    (finished : (pool.run events).tasks[conn]? = some (.add peerId .done))
    (opened : conn ∉ (pool.run events).shared.closed) :
    (pool.run events).shared.Stored peerId conn ↔ pool.NeverLost peerId conn events := by
  induction events generalizing pool with
  | nil => exact absurd finished pending
  | cons event events ih =>
    by_cases misses : pool.Misses peerId conn event
    · -- the call is done, and the map does not have its connection
      have done := done_of_enters_or_misses (.inr misses)
      have gone := not_stored_step ok absent (not_enters_of_misses misses)
      exact iff_of_false (gone_run (ok.step event) done gone events)
        fun never => never.1 (.inr misses)
    · have never : pool.NeverLost peerId conn (event :: events) ↔
          (pool.step event).NeverLost peerId conn events := by
        refine ⟨And.right, fun never => ⟨?_, never⟩⟩
        rintro (⟨stored, -⟩ | missed)
        · exact absent stored
        · exact misses missed
      rw [never]
      by_cases done : (pool.step event).tasks[conn]? = some (.add peerId .done)
      · obtain before | enters | missed := done_step_of done
        · exact absurd before pending
        · exact stored_run_iff (ok.step event) done (stored_of_enters ok enters) opened
        · exact absurd missed misses
      · refine ih (ok.step event) done (not_stored_step ok absent fun enters => ?_) finished opened
        exact done (done_of_enters_or_misses (.inl enters))

end ConnPool

/-- **The map has every open connection just if no step has lost it.** After any run, and so when
all calls have finished: each connection whose call is done and which is open is in the `Peer` that
the map has for its id, just if in no step another call has put its `Peer` in the place of one that
had the connection, the cleaner has removed one that had it, or its own call has added it to a
`Peer` no longer in the map. -/
theorem connections_kept_iff (events : List MapEvent) :
    let pool := ConnPool.new.run events
    (∀ peerId conn, pool.tasks[conn]? = some (.add peerId .done) → conn ∉ pool.shared.closed →
        pool.shared.Stored peerId conn) ↔
      ∀ peerId conn, pool.tasks[conn]? = some (.add peerId .done) → conn ∉ pool.shared.closed →
        ConnPool.new.NeverLost peerId conn events := by
  have absent (peerId : PeerId) (conn : Nat) : ¬ ConnPool.new.shared.Stored peerId conn := by
    rintro ⟨_, _, found, -⟩
    cases found
  refine forall_congr' fun peerId => forall_congr' fun conn => forall_congr' fun finished =>
    forall_congr' fun opened => ?_
  exact ConnPool.pending_run_iff ConnPool.Ok.new nofun (absent peerId conn) finished opened

/-- Two connections of peer 7, one after the other. -/
def oneByOne : List MapEvent :=
  [.add 7, .turn 0 [], .turn 0 [], .add 7, .turn 1 [], .turn 1 [], .turn 1 []]

theorem one_by_one_kept :
    (ConnPool.new.run oneByOne).tasks = [.add 7 .done, .add 7 .done] ∧
      ConnPool.new.NeverLost 7 0 oneByOne ∧ ConnPool.new.NeverLost 7 1 oneByOne := by
  have tasks : (ConnPool.new.run oneByOne).tasks = [.add 7 .done, .add 7 .done] := by decide
  have found : (ConnPool.new.run oneByOne).shared.peerMap.lookup 7 = some 0 := by decide
  have here : (ConnPool.new.run oneByOne).shared.peers[0]? = some ⟨7, [1, 0]⟩ := by decide
  have stored : ∀ peerId conn,
      (ConnPool.new.run oneByOne).tasks[conn]? = some (.add peerId .done) →
        conn ∉ (ConnPool.new.run oneByOne).shared.closed →
          (ConnPool.new.run oneByOne).shared.Stored peerId conn := by
    intro peerId conn finished _
    rw [tasks] at finished
    match conn with
    | 0 | 1 => cases finished; exact ⟨0, _, found, here, by decide⟩
    | _ + 2 => cases finished
  have never := (connections_kept_iff oneByOne).mp stored
  exact ⟨tasks, never 7 0 (by decide) (by decide), never 7 1 (by decide) (by decide)⟩

/-- Two connections of peer 7 at once: both calls look before either puts a `Peer` into the map. -/
def atOnce : List MapEvent :=
  [.add 7, .add 7, .turn 0 [], .turn 1 [], .turn 0 [], .turn 1 []]

/-- The first connection of peer 7 closes and the cleaner finds no other; the second joins the
`Peer` before it is removed. -/
def joinedWhileCleaned : List MapEvent :=
  [.add 7, .turn 0 [], .turn 0 [], .close 0, .clean, .turn 1 [7], .turn 1 [], .turn 1 [],
    .turn 1 [], .add 7, .turn 2 [], .turn 2 [], .turn 2 [], .turn 1 []]

/-- In both runs all calls have finished, and an open connection is not in the map. -/
theorem open_connections_lost :
    ((ConnPool.new.run atOnce).tasks = [.add 7 .done, .add 7 .done] ∧
        (ConnPool.new.run atOnce).shared.closed = [] ∧
        ¬ (ConnPool.new.run atOnce).shared.Stored 7 0) ∧
      (ConnPool.new.run joinedWhileCleaned).tasks =
          [.add 7 .done, .clean (.remove []), .add 7 .done] ∧
        (ConnPool.new.run joinedWhileCleaned).shared.closed = [0] ∧
        ¬ (ConnPool.new.run joinedWhileCleaned).shared.Stored 7 2 := by
  refine ⟨⟨by decide, by decide, ?_⟩, by decide, by decide, ?_⟩
  · rintro ⟨peer, p, found, here, mem⟩
    have last : (ConnPool.new.run atOnce).shared.peerMap.lookup 7 = some 1 := by decide
    cases last.symm.trans found
    cases here
    exact absurd mem (by decide)
  · rintro ⟨peer, p, found, -⟩
    have removed : (ConnPool.new.run joinedWhileCleaned).shared.peerMap.lookup 7 = none := by
      decide
    cases removed.symm.trans found

end PeerLink.Manager
