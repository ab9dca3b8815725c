import PeerLink.Best.Keep
import PeerLink.Gateway.NicFilter
import PeerLink.Schedule.Along
import PeerLink.Schedule.Pool

/-!
# The NAT entries of the TCP proxy

A SYN puts an entry into `syn_map`, the accept loop moves it to `addr_conn_map` and `conn_map`,
and a task per connection takes it out again. All of them run at once, and so does the cleaner
of `syn_map`. A step is one operation on a map or on the state of an entry, or an assertion
together with the read that it is about; a step that fails its assertion has no result.
-/

namespace PeerLink.Gateway

open Packet Schedule

/-- `TcpProxyEntryState` -/
inductive NatDstEntryState where
  | unknown
  | synReceived
  | connectingDst
  | connected
  | closed
  | closingSrc
  | closingDst
  deriving DecidableEq

abbrev Uuid := BitVec 128

deriving instance DecidableEq for NatDstEntry

/-- What does not change of an entry. Its state is kept apart, under its id. -/
structure NatEntry extends NatDstEntry where
  id : Uuid
  startTime : Nat
  deriving DecidableEq

/-- What `try_handle_peer_packet` reads of a SYN; `realIp` is where the destination is. -/
structure SynPacket where
  src : SocketAddr
  dstIp : Ipv4Addr
  realIp : Ipv4Addr
  port : UInt16

/-- `NatDstEntry::new` -/
def SynPacket.entry (syn : SynPacket) (id : Uuid) (now : Nat) : NatEntry where
  src := syn.src
  realDst := (.v4 syn.realIp, syn.port)
  mappedDst := (.v4 syn.dstIp, syn.port)
  id := id
  startTime := now

/-- Where the accept loop is, by the operation that comes next. -/
inductive Accepting where
  | accept
  /-- `syn_map.remove_if` -/
  | removeSyn (addr : SocketAddr) (entry : NatEntry)
  /-- `entry.state.store(ConnectingDst)` -/
  | store (entry : NatEntry)
  /-- `addr_conn_map.insert` -/
  | insertAddr (entry : NatEntry)
  /-- `conn_map.insert`, whose result is asserted to be none -/
  | insertConn (entry : NatEntry)

/-- Where the task of a connection is, by the operation that comes next. -/
inductive ConnPhase where
  /-- the connect to the destination ends, after which the state is asserted -/
  | connect
  /-- `state.store(Connected)` -/
  | storeConnected
  /-- one side closes: `state.store(ClosingSrc)` -/
  | copy
  | shutdownSrc
  | shutdownDst
  /-- `conn_map.remove` -/
  | removeConn
  /-- `addr_conn_map.remove_if` -/
  | removeAddr
  | done
  deriving DecidableEq

structure ConnTask where
  entry : NatEntry
  phase : ConnPhase
  deriving DecidableEq

structure TcpNat where
  synMap : AList fun _ : SocketAddr => NatEntry
  connMap : AList fun _ : Uuid => NatEntry
  addrConnMap : AList fun _ : SocketAddr => NatEntry
  states : Uuid → NatDstEntryState
  acceptor : Accepting

/-- `remove_if` with a comparison of ids -/
def removeIf (m : AList fun _ : SocketAddr => NatEntry) (addr : SocketAddr) (id : Uuid) :
    AList fun _ : SocketAddr => NatEntry :=
  match m.lookup addr with
  | none => m
  | some entry => if entry.id = id then m.erase addr else m

/-- The address under which an accepted connection is looked up: the fake local address
stands for the node's own one. -/
def acceptedAddr (myIpInet : Option (Inet 32)) (addr : SocketAddr) : SocketAddr :=
  match myIpInet with
  | none => addr
  | some inet =>
    if addr.1 = .v4 (TcpProxy.getFakeLocalIpv4 inet) then (.v4 inet.address, addr.2) else addr

namespace TcpNat

def new : TcpNat := ⟨∅, ∅, ∅, fun _ => .unknown, .accept⟩

variable (nat : TcpNat)

def store (id : Uuid) (state : NatDstEntryState) : TcpNat :=
  { nat with states := Function.update nat.states id state }

def receiveSyn (entry : NatEntry) : TcpNat :=
  { nat with synMap := nat.synMap.insert entry.src entry }.store entry.id .synReceived

/-- How long a SYN is kept, in milliseconds. -/
def SYN_TIMEOUT : Nat := 30000

/-- The cleaner looks at one entry of `syn_map`. -/
def clean (now : Nat) (addr : SocketAddr) : TcpNat :=
  match nat.synMap.lookup addr with
  | none => nat
  | some entry =>
    if now - entry.startTime > SYN_TIMEOUT then
      { nat with synMap := nat.synMap.erase addr }.store entry.id .closed
    else
      nat

/-- A connection is accepted; the entry is looked at under the lock of the map. -/
def accept (addr : SocketAddr) : Option TcpNat :=
  match nat.acceptor with
  | .accept =>
    match nat.synMap.lookup addr with
    | none => some nat
    | some entry =>
      if nat.states entry.id = .synReceived then
        some { nat with acceptor := .removeSyn addr entry }
      else
        none
  | _ => some nat

end TcpNat

inductive TcpNatEvent where
  | syn (id : Uuid) (now : Nat) (syn : SynPacket)
  | accept (myIpInet : Option (Inet 32)) (addr : SocketAddr)
  /-- the next operation of the accept loop -/
  | proceed
  | clean (now : Nat) (addr : SocketAddr)
  /-- the next operation of a connection; `connects` is how the connect to its destination ends -/
  | task (i : Nat) (connects : Bool)

/-- The proxy with the tasks of its connections. -/
abbrev TcpNatPool := Pool TcpNat ConnTask

namespace TcpNatPool

variable (pool : TcpNatPool)

def proceed : Option TcpNatPool :=
  let nat := pool.shared
  match nat.acceptor with
  | .accept => some pool
  | .removeSyn addr entry =>
    some (pool.change
      { nat with synMap := removeIf nat.synMap addr entry.id, acceptor := .store entry })
  | .store entry =>
    some (pool.change { nat.store entry.id .connectingDst with acceptor := .insertAddr entry })
  | .insertAddr entry =>
    some (pool.change
      { nat with
        addrConnMap := nat.addrConnMap.insert entry.src entry
        acceptor := .insertConn entry })
  | .insertConn entry =>
    if (nat.connMap.lookup entry.id).isNone then
      some (pool.spawn
        { nat with connMap := nat.connMap.insert entry.id entry, acceptor := .accept }
        ⟨entry, .connect⟩)
    else
      none

/-- One operation of a connection's task, on the proxy and on where the task is. -/
def operate (nat : TcpNat) (entry : NatEntry) (connects : Bool) :
    ConnPhase → Option (TcpNat × ConnPhase)
  | .connect =>
    if connects then
      if nat.states entry.id = .connectingDst then some (nat, .storeConnected) else none
    else
      some (nat.store entry.id .closed, .removeConn)
  | .storeConnected => some (nat.store entry.id .connected, .copy)
  | .copy => some (nat.store entry.id .closingSrc, .shutdownSrc)
  | .shutdownSrc => some (nat.store entry.id .closingDst, .shutdownDst)
  | .shutdownDst => some (nat.store entry.id .closed, .removeConn)
  | .removeConn => some ({ nat with connMap := nat.connMap.erase entry.id }, .removeAddr)
  | .removeAddr =>
    some ({ nat with addrConnMap := removeIf nat.addrConnMap entry.src entry.id }, .done)
  | .done => some (nat, .done)

def runTask (i : Nat) (connects : Bool) : Option TcpNatPool :=
  match pool.tasks[i]? with
  | none => some pool
  | some task =>
    (operate pool.shared task.entry connects task.phase).map fun (nat, phase) =>
      pool.turn i nat ⟨task.entry, phase⟩

def step : TcpNatEvent → Option TcpNatPool
  | .syn id now syn => some (pool.change (pool.shared.receiveSyn (syn.entry id now)))
  | .accept myIpInet addr => (pool.shared.accept (acceptedAddr myIpInet addr)).map pool.change
  | .proceed => pool.proceed
  | .clean now addr => some (pool.change (pool.shared.clean now addr))
  | .task i connects => pool.runTask i connects

def new : TcpNatPool := ⟨.new, []⟩

end TcpNatPool

/-- The entries that the SYNs among the events open. -/
def opened (events : List TcpNatEvent) : List NatEntry :=
  events.filterMap fun
    | .syn id now syn => some (syn.entry id now)
    | _ => none

/-! ## What always holds -/

/-- The entry that the accept loop is busy with. -/
def Accepting.entry? : Accepting → Option NatEntry
  | .accept => none
  | .removeSyn _ entry | .store entry | .insertAddr entry | .insertConn entry => some entry

/-- No entry of `syn_map` has this one's id. -/
def TcpNat.NotListed (nat : TcpNat) (entry : NatEntry) : Prop :=
  ∀ addr other, nat.synMap.lookup addr = some other → other.id ≠ entry.id

/-- From the removal on the entry is not in `syn_map`, so nobody else changes its state. -/
def Accepting.Ok (entries : List NatEntry) (nat : TcpNat) : Accepting → Prop
  | .accept => True
  | .removeSyn addr entry => entry ∈ entries ∧ entry.src = addr
  | .store entry => entry ∈ entries ∧ nat.NotListed entry
  | .insertAddr entry | .insertConn entry =>
    entry ∈ entries ∧ nat.NotListed entry ∧ nat.states entry.id = .connectingDst

structure TcpNat.Ok (entries : List NatEntry) (nat : TcpNat) : Prop where
  syn : ∀ addr entry, nat.synMap.lookup addr = some entry →
    entry ∈ entries ∧ entry.src = addr ∧ nat.states entry.id = .synReceived
  conn : ∀ addr entry, nat.addrConnMap.lookup addr = some entry →
    entry ∈ entries ∧ entry.src = addr
  acceptor : nat.acceptor.Ok entries nat

/-- What the task of a connection relies on. -/
structure ConnTask.Asserts (entries : List NatEntry) (nat : TcpNat) (task : ConnTask) : Prop where
  opened : task.entry ∈ entries
  unlisted : nat.NotListed task.entry
  accepted : ∀ entry, nat.acceptor.entry? = some entry → entry.id ≠ task.entry.id
  connecting : task.phase = .connect → nat.states task.entry.id = .connectingDst

def ConnTask.Apart (task other : ConnTask) : Prop := task.entry.id ≠ other.entry.id

structure TcpNatPool.Ok (entries : List NatEntry) (pool : TcpNatPool) : Prop where
  sound : pool.Sound (TcpNat.Ok entries) (ConnTask.Asserts entries) ConnTask.Apart
  conn : ∀ id entry, pool.shared.connMap.lookup id = some entry →
    ∃ (i : Nat) (task : ConnTask), pool.tasks[i]? = some task ∧ task.entry.id = id

section

variable {entries : List NatEntry} {nat nat' : TcpNat} {entry other : NatEntry} {task : ConnTask}

variable {m synMap : AList fun _ : SocketAddr => NatEntry} {addr key : SocketAddr} {id : Uuid}

theorem removeIf_origin (found : (removeIf m addr id).lookup key = some entry) :
    m.lookup key = some entry := by
  unfold removeIf at found
  split at found
  · exact found
  · split at found
    · exact Best.lookup_erase_origin found
    · exact found

theorem removeIf_self
    (found : m.lookup addr = some entry) : removeIf m addr entry.id = m.erase addr := by
  simp [removeIf, found]

theorem removeIf_other (found : m.lookup key = some entry) (other : entry.id ≠ id) :
    (removeIf m addr id).lookup key = some entry := by
  unfold removeIf
  split
  · exact found
  · rename_i old here
    split_ifs with same
    · have ne : key ≠ addr := by
        rintro rfl
        cases here.symm.trans found
        exact other same
      rw [AList.lookup_erase_ne ne]
      exact found
    · exact found

/-- Distinct ids make an entry and its id the same thing. -/
theorem eq_of_id (distinct : (entries.map NatEntry.id).Nodup) (mem : entry ∈ entries)
    (mem' : other ∈ entries) (same : entry.id = other.id) : entry = other :=
  List.inj_on_of_nodup_map distinct mem mem' same

theorem TcpNat.states_store_ne {state : NatDstEntryState} (ne : entry.id ≠ id) :
    (nat.store id state).states entry.id = nat.states entry.id :=
  Function.update_of_ne ne _ _

/-- The accept loop relies on its entry alone: that it is known, that `syn_map` does not have it,
and, once it is marked, on its state. -/
theorem Accepting.Ok.mono {acceptor : Accepting} {entries' : List NatEntry}
    (ok : acceptor.Ok entries nat) (later : ∀ entry ∈ entries, entry ∈ entries')
    (unlisted : ∀ entry ∈ entries, nat.NotListed entry → nat'.NotListed entry)
    (states : ∀ entry ∈ entries, acceptor = .insertAddr entry ∨ acceptor = .insertConn entry →
      nat'.states entry.id = nat.states entry.id) : acceptor.Ok entries' nat' := by
  cases acceptor with
  | accept => trivial
  | removeSyn addr entry => exact ⟨later entry ok.1, ok.2⟩
  | store entry => exact ⟨later entry ok.1, unlisted entry ok.1 ok.2⟩
  | insertAddr entry =>
    obtain ⟨mem, absent, state⟩ := ok
    exact ⟨later entry mem, unlisted entry mem absent, (states entry mem (.inl rfl)).trans state⟩
  | insertConn entry =>
    obtain ⟨mem, absent, state⟩ := ok
    exact ⟨later entry mem, unlisted entry mem absent, (states entry mem (.inr rfl)).trans state⟩

/-- A state can be stored under an id that `syn_map` does not have and that the accept loop has
not marked. -/
theorem TcpNat.Ok.store (ok : nat.Ok entries)
    (unlisted : ∀ addr other, nat.synMap.lookup addr = some other → other.id ≠ id)
    (unmarked : ∀ entry, nat.acceptor = .insertAddr entry ∨ nat.acceptor = .insertConn entry →
      entry.id ≠ id)
    (state : NatDstEntryState) : (nat.store id state).Ok entries := by
  refine ⟨fun addr entry found => ?_, ok.conn, ?_⟩
  · rw [states_store_ne (unlisted addr entry found)]
    exact ok.syn addr entry found
  · exact ok.acceptor.mono (fun _ mem => mem) (fun _ _ absent => absent)
      fun entry _ marked => states_store_ne (unmarked entry marked)

section
variable (fewer : ∀ addr other, synMap.lookup addr = some other →
  nat.synMap.lookup addr = some other)
include fewer

theorem TcpNat.NotListed.shrink (unlisted : nat.NotListed entry) :
    TcpNat.NotListed { nat with synMap } entry :=
  fun addr other found => unlisted addr other (fewer addr other found)

/-- Entries can leave `syn_map`. -/
theorem TcpNat.Ok.shrink (ok : nat.Ok entries) : TcpNat.Ok entries { nat with synMap } := by
  refine ⟨fun addr entry found => ok.syn addr entry (fewer addr entry found), ok.conn, ?_⟩
  exact ok.acceptor.mono (fun _ mem => mem) (fun _ _ => .shrink fewer) fun _ _ _ => rfl

theorem ConnTask.Asserts.shrink (asserts : task.Asserts entries nat) :
    task.Asserts entries { nat with synMap } :=
  ⟨asserts.opened, asserts.unlisted.shrink fewer, asserts.accepted, asserts.connecting⟩

end

theorem ConnTask.Asserts.store (asserts : task.Asserts entries nat)
    (ne : task.entry.id ≠ id) (state : NatDstEntryState) :
    task.Asserts entries (nat.store id state) :=
  ⟨asserts.opened, asserts.unlisted, asserts.accepted, fun connecting =>
    (TcpNat.states_store_ne ne).trans (asserts.connecting connecting)⟩

theorem ConnTask.Apart.symm (task other : ConnTask) (apart : task.Apart other) :
    other.Apart task := Ne.symm apart

/-! ### A SYN -/

theorem TcpNat.NotListed.receiveSyn (unlisted : nat.NotListed other) (ne : entry.id ≠ other.id) :
    (nat.receiveSyn entry).NotListed other := by
  intro addr found here
  obtain old | ⟨-, rfl⟩ := Best.lookup_insert_origin here
  · exact unlisted addr found old
  · exact ne

theorem TcpNat.Ok.receiveSyn (ok : nat.Ok entries)
    (fresh : ∀ other ∈ entries, other.id ≠ entry.id) :
    (nat.receiveSyn entry).Ok (entries ++ [entry]) := by
  have later {other : NatEntry} (mem : other ∈ entries) : other ∈ entries ++ [entry] :=
    List.mem_append_left _ mem
  refine ⟨fun addr found here => ?_, fun addr found here => ?_, ?_⟩
  · obtain old | ⟨rfl, rfl⟩ := Best.lookup_insert_origin here
    · obtain ⟨mem, src, state⟩ := ok.syn addr found old
      exact ⟨later mem, src, (states_store_ne (fresh found mem)).trans state⟩
    · exact ⟨List.mem_append_right _ List.mem_cons_self, rfl, Function.update_self _ _ _⟩
  · exact (ok.conn addr found here).imp_left later
  · exact ok.acceptor.mono (fun _ mem => later mem)
      (fun other mem absent => absent.receiveSyn (fresh other mem).symm)
      fun other mem _ => states_store_ne (fresh other mem)

theorem ConnTask.Asserts.receiveSyn (asserts : task.Asserts entries nat)
    (fresh : ∀ other ∈ entries, other.id ≠ entry.id) :
    task.Asserts (entries ++ [entry]) (nat.receiveSyn entry) := by
  have ne := fresh task.entry asserts.opened
  exact ⟨List.mem_append_left _ asserts.opened, asserts.unlisted.receiveSyn ne.symm,
    asserts.accepted, fun connecting =>
      (TcpNat.states_store_ne ne).trans (asserts.connecting connecting)⟩

/-! ### The cleaner -/

/-- An entry is in `syn_map` only once. -/
theorem TcpNat.Ok.erase_notListed (ok : nat.Ok entries)
    (distinct : (entries.map NatEntry.id).Nodup)
    (listed : nat.synMap.lookup addr = some entry) :
    TcpNat.NotListed { nat with synMap := nat.synMap.erase addr } entry := by
  intro key found here same
  have old := Best.lookup_erase_origin here
  obtain ⟨mem, src, -⟩ := ok.syn key found old
  obtain ⟨mem', src', -⟩ := ok.syn addr entry listed
  obtain rfl := eq_of_id distinct mem mem' same
  obtain rfl : key = addr := src.symm.trans src'
  rw [AList.lookup_erase] at here
  cases here

theorem TcpNat.Ok.clean (ok : nat.Ok entries) (distinct : (entries.map NatEntry.id).Nodup)
    (now : Nat) (addr : SocketAddr) : (nat.clean now addr).Ok entries := by
  unfold TcpNat.clean
  split
  · exact ok
  · rename_i entry listed
    split
    · refine (ok.shrink fun _ _ => Best.lookup_erase_origin).store
        (ok.erase_notListed distinct listed) ?_ .closed
      intro marked here same
      have old := ok.acceptor
      obtain here | here : nat.acceptor = .insertAddr marked ∨ nat.acceptor = .insertConn marked :=
        here
      all_goals
        rw [here] at old
        exact old.2.1 addr entry listed same.symm
    · exact ok

theorem ConnTask.Asserts.clean (asserts : task.Asserts entries nat) (now : Nat)
    (addr : SocketAddr) : task.Asserts entries (nat.clean now addr) := by
  unfold TcpNat.clean
  split
  · exact asserts
  · rename_i entry listed
    split
    · exact (asserts.shrink fun _ _ => Best.lookup_erase_origin).store
        (asserts.unlisted addr entry listed).symm .closed
    · exact asserts

/-! ### The accept loop -/

/-- The state of an entry in `syn_map` is what `accept` asserts. -/
theorem TcpNat.Ok.accept (ok : nat.Ok entries) (addr : SocketAddr) :
    nat.accept addr = some nat ∨ ∃ entry, nat.synMap.lookup addr = some entry ∧
      nat.accept addr = some { nat with acceptor := .removeSyn addr entry } := by
  unfold TcpNat.accept
  split
  · cases listed : nat.synMap.lookup addr with
    | none => exact .inl rfl
    | some entry => exact .inr ⟨entry, rfl, if_pos (ok.syn addr entry listed).2.2⟩
  · exact .inl rfl

namespace TcpNatPool

variable {pool : TcpNatPool}

variable {pool' : TcpNatPool} {event : TcpNatEvent}

section
variable (ok : pool.Ok entries)
include ok

/-- A change of the shared state that leaves `conn_map` alone. -/
theorem Ok.change {more : List NatEntry} (shared : nat.Ok more)
    (same : nat.connMap = pool.shared.connMap)
    (others : ∀ task : ConnTask, task.Asserts entries pool.shared → task.Asserts more nat) :
    Ok more (pool.change nat) :=
  ⟨ok.sound.change shared others, fun id entry found => ok.conn id entry (same ▸ found)⟩

theorem Ok.accept (addr : SocketAddr) :
    ∃ nat, pool.shared.accept addr = some nat ∧ Ok entries (pool.change nat) := by
  have shared := ok.sound.shared
  obtain same | ⟨entry, listed, accepted⟩ := shared.accept addr
  · exact ⟨_, same, ok.change shared rfl fun _ asserts => asserts⟩
  · obtain ⟨mem, src, -⟩ := shared.syn addr entry listed
    refine ⟨_, accepted, ok.change ⟨shared.syn, shared.conn, mem, src⟩ rfl ?_⟩
    intro task asserts
    refine ⟨asserts.opened, asserts.unlisted, fun other here => ?_, asserts.connecting⟩
    cases here
    exact asserts.unlisted addr entry listed

/-- `conn_map` has entries of tasks only, and the accept loop is not busy with one of those. -/
theorem Ok.fresh (here : pool.shared.acceptor.entry? = some entry) :
    pool.shared.connMap.lookup entry.id = none := by
  cases found : pool.shared.connMap.lookup entry.id with
  | none => rfl
  | some old =>
    obtain ⟨i, task, running, same⟩ := ok.conn entry.id old found
    exact absurd same.symm ((ok.sound.each i task running).accepted entry here)

theorem Ok.proceed (distinct : (entries.map NatEntry.id).Nodup) :
    ∃ pool', pool.proceed = some pool' ∧ Ok entries pool' := by
  have shared := ok.sound.shared
  have old := shared.acceptor
  have busy {task : ConnTask} (asserts : task.Asserts entries pool.shared) := asserts.accepted
  unfold TcpNatPool.proceed
  dsimp only
  generalize here : pool.shared.acceptor = acceptor at old busy ⊢
  cases acceptor with
  | accept => exact ⟨pool, rfl, ok⟩
  | removeSyn addr entry =>
    obtain ⟨mem, src⟩ := old
    refine ⟨_, rfl, ok.change ⟨?_, shared.conn, mem, ?_⟩ rfl fun task asserts => ?_⟩
    · exact fun key other found => shared.syn key other (removeIf_origin found)
    · -- whatever is left of the id in the map would be this entry, under its own address
      intro key other found same
      have listed := removeIf_origin found
      obtain ⟨mem', src', -⟩ := shared.syn key other listed
      obtain rfl := eq_of_id distinct mem' mem same
      obtain rfl : key = addr := src'.symm.trans src
      rw [removeIf_self listed, AList.lookup_erase] at found
      cases found
    · exact ⟨asserts.opened, asserts.unlisted.shrink fun _ _ => removeIf_origin,
        busy asserts, asserts.connecting⟩
  | store entry =>
    obtain ⟨mem, unlisted⟩ := old
    have stored := shared.store unlisted (by simp [here]) .connectingDst
    refine ⟨_, rfl, ok.change ⟨stored.syn, stored.conn, mem, unlisted, ?_⟩ rfl
      fun task asserts => ?_⟩
    · exact Function.update_self _ _ _
    · have after := asserts.store (busy asserts entry rfl).symm .connectingDst
      exact ⟨after.opened, after.unlisted, busy asserts, after.connecting⟩
  | insertAddr entry =>
    refine ⟨_, rfl, ok.change ⟨shared.syn, fun addr other found => ?_, old⟩ rfl
      fun task asserts => ?_⟩
    · obtain found | ⟨rfl, rfl⟩ := Best.lookup_insert_origin found
      · exact shared.conn addr other found
      · exact ⟨old.1, rfl⟩
    · exact ⟨asserts.opened, asserts.unlisted, busy asserts, asserts.connecting⟩
  | insertConn entry =>
    dsimp only
    rw [ok.fresh (congrArg _ here), Option.isNone_none, if_pos rfl]
    refine ⟨_, rfl, ok.sound.spawn ConnTask.Apart.symm ⟨shared.syn, shared.conn, trivial⟩
      ⟨old.1, old.2.1, nofun, fun _ => old.2.2⟩ fun i task running => ?_, ?_⟩
    · have asserts := ok.sound.each i task running
      exact ⟨⟨asserts.opened, asserts.unlisted, nofun, asserts.connecting⟩,
        busy asserts entry rfl⟩
    · intro id other found
      obtain found | ⟨rfl, -⟩ := Best.lookup_insert_origin found
      · obtain ⟨i, task, running, same⟩ := ok.conn id other found
        have within := (List.getElem?_eq_some_iff.mp running).1
        refine ⟨i, task, ?_, same⟩
        change (pool.tasks ++ [_])[i]? = some task
        rw [List.getElem?_append_left within, running]
      · exact ⟨pool.tasks.length, ⟨entry, .connect⟩, by simp [Pool.spawn], rfl⟩

end

/-! ### The connections -/

/-- The operation keeps what the task relies on, and does not touch what the others rely on. -/
structure Operated (entries : List NatEntry) (task : ConnTask) (nat nat' : TcpNat)
    (phase : ConnPhase) : Prop where
  shared : nat'.Ok entries
  own : ConnTask.Asserts entries nat' ⟨task.entry, phase⟩
  others : ∀ other : ConnTask, task.Apart other → other.Asserts entries nat →
    other.Asserts entries nat'
  fewer : ∀ id entry, nat'.connMap.lookup id = some entry → nat.connMap.lookup id = some entry

/-- A task stores the state of its own entry. -/
theorem operate_store (shared : nat.Ok entries) (asserts : task.Asserts entries nat)
    (state : NatDstEntryState) {phase : ConnPhase} (later : phase ≠ .connect) :
    Operated entries task nat (nat.store task.entry.id state) phase := by
  refine ⟨shared.store asserts.unlisted ?_ state,
    { asserts with connecting := fun connecting => absurd connecting later },
    fun other apart others => others.store apart.symm state, fun _ _ found => found⟩
  rintro entry (here | here)
  · exact asserts.accepted entry (congrArg _ here)
  · exact asserts.accepted entry (congrArg _ here)

/-- A task's operation does not fail. -/
theorem operate_ok (shared : nat.Ok entries) (asserts : task.Asserts entries nat)
    (connects : Bool) :
    ∃ nat' phase, operate nat task.entry connects task.phase = some (nat', phase) ∧
      Operated entries task nat nat' phase := by
  have stores (state : NatDstEntryState) {phase : ConnPhase} (later : phase ≠ .connect) :=
    operate_store shared asserts state later
  have moves {phase : ConnPhase} (later : phase ≠ .connect) :
      Operated entries task nat nat phase :=
    ⟨shared, { asserts with connecting := fun connecting => absurd connecting later },
      fun _ _ others => others, fun _ _ found => found⟩
  cases here : task.phase with
  | connect =>
    simp only [operate]
    cases connects with
    | false => exact ⟨_, _, rfl, stores .closed nofun⟩
    | true =>
      rw [if_pos rfl, if_pos (asserts.connecting here)]
      exact ⟨nat, _, rfl, moves nofun⟩
  | storeConnected => exact ⟨_, _, rfl, stores .connected nofun⟩
  | copy => exact ⟨_, _, rfl, stores .closingSrc nofun⟩
  | shutdownSrc => exact ⟨_, _, rfl, stores .closingDst nofun⟩
  | shutdownDst => exact ⟨_, _, rfl, stores .closed nofun⟩
  | removeConn =>
    exact ⟨_, _, rfl, { shared with }, { (@moves .removeAddr nofun).own with },
      fun _ _ others => { others with }, fun _ _ => Best.lookup_erase_origin⟩
  | removeAddr =>
    exact ⟨_, _, rfl,
      { shared with
        conn := fun addr entry found => shared.conn addr entry (removeIf_origin found) },
      { (@moves .done nofun).own with }, fun _ _ others => { others with }, fun _ _ found => found⟩
  | done => exact ⟨nat, _, rfl, moves nofun⟩

theorem Ok.runTask (ok : pool.Ok entries) (i : Nat) (connects : Bool) :
    ∃ pool', pool.runTask i connects = some pool' ∧ Ok entries pool' := by
  unfold TcpNatPool.runTask
  cases running : pool.tasks[i]? with
  | none => exact ⟨pool, rfl, ok⟩
  | some task =>
    obtain ⟨nat, phase, operated, after⟩ :=
      operate_ok ok.sound.shared (ok.sound.each i task running) connects
    dsimp only
    rw [operated, Option.map_some]
    refine ⟨_, rfl, ok.sound.turn ConnTask.Apart.symm running after.shared after.own
      fun other apart asserts => ⟨after.others other apart asserts, apart⟩,
      fun id entry found => ?_⟩
    obtain ⟨j, other, here, same⟩ := ok.conn id entry (after.fewer id entry found)
    by_cases moved : j = i
    · subst moved
      cases here.symm.trans running
      exact ⟨j, ⟨task.entry, phase⟩, Pool.turn_self running, same⟩
    · exact ⟨j, other, (Pool.turn_other (Ne.symm moved)).trans here, same⟩

/-! ### Runs -/

theorem Ok.new : Ok [] TcpNatPool.new :=
  ⟨Pool.Sound.idle ⟨nofun, nofun, trivial⟩, nofun⟩

/-- One step: no assertion fails, and a SYN adds its entry. -/
theorem Ok.step (ok : pool.Ok entries) (event : TcpNatEvent)
    (distinct : ((entries ++ opened [event]).map NatEntry.id).Nodup) :
    ∃ pool', pool.step event = some pool' ∧ Ok (entries ++ opened [event]) pool' := by
  rw [List.map_append] at distinct
  have distinct' := distinct.of_append_left
  cases event with
  | syn id now syn =>
    have fresh : ∀ other ∈ entries, other.id ≠ (syn.entry id now).id := by
      intro other mem same
      exact (List.nodup_append.mp distinct).2.2 _ (List.mem_map_of_mem mem) _
        (List.mem_map_of_mem List.mem_cons_self) same
    exact ⟨_, rfl, ok.change (ok.sound.shared.receiveSyn fresh) rfl
      fun task asserts => asserts.receiveSyn fresh⟩
  | accept myIpInet addr =>
    obtain ⟨nat, accepted, after⟩ := ok.accept (acceptedAddr myIpInet addr)
    refine ⟨pool.change nat, ?_, by simpa [opened] using after⟩
    simp [TcpNatPool.step, accepted]
  | proceed =>
    obtain ⟨pool', proceeded, after⟩ := ok.proceed distinct'
    exact ⟨pool', proceeded, by simpa [opened] using after⟩
  | clean now addr =>
    refine ⟨_, rfl, ?_⟩
    simp only [opened, List.filterMap_cons, List.filterMap_nil, List.append_nil]
    exact ok.change (ok.sound.shared.clean distinct' now addr) (by
      unfold TcpNat.clean
      repeat' split
      all_goals rfl) fun task asserts => asserts.clean now addr
  | task i connects =>
    obtain ⟨pool', ran, after⟩ := ok.runTask i connects
    exact ⟨pool', ran, by simpa [opened] using after⟩

theorem Ok.run (ok : pool.Ok entries) (events : List TcpNatEvent)
    (distinct : ((entries ++ opened events).map NatEntry.id).Nodup) :
    ∃ pool', final TcpNatPool.step pool events = some pool' ∧
      Ok (entries ++ opened events) pool' := by
  induction events generalizing pool entries with
  | nil => exact ⟨pool, rfl, by simpa [opened] using ok⟩
  | cons event events ih =>
    have split : opened (event :: events) = opened [event] ++ opened events :=
      List.filterMap_append (l := [event])
    rw [split, ← List.append_assoc] at distinct ⊢
    have first : ((entries ++ opened [event]).map NatEntry.id).Nodup := by
      rw [List.map_append] at distinct
      exact distinct.of_append_left
    obtain ⟨mid, stepped, after⟩ := ok.step event first
    obtain ⟨last, ran, after⟩ := ih after distinct
    exact ⟨last, by rw [final, stepped, Option.bind_some, ran], after⟩

/-! ### What leaves `addr_conn_map` -/

theorem runTask_addrConnMap {i : Nat} {connects : Bool}
    (ran : pool.runTask i connects = some pool') :
    pool'.shared.addrConnMap = pool.shared.addrConnMap ∨
      ∃ entry, pool.tasks[i]? = some ⟨entry, .removeAddr⟩ ∧ pool'.shared.addrConnMap =
        removeIf pool.shared.addrConnMap entry.src entry.id := by
  unfold TcpNatPool.runTask at ran
  split at ran
  · cases ran
    exact .inl rfl
  · rename_i task running
    obtain ⟨⟨nat, phase⟩, operated, same⟩ := Option.map_eq_some_iff.mp ran
    cases same
    obtain ⟨entry, place⟩ := task
    cases place with
    | connect =>
      simp only [operate] at operated
      repeat' split at operated
      all_goals first
        | cases operated; exact .inl rfl
        | cases operated
    | removeAddr =>
      cases operated
      exact .inr ⟨entry, running, rfl⟩
    | storeConnected | copy | shutdownSrc | shutdownDst | removeConn | done =>
      cases operated
      exact .inl rfl

/-- The accept loop inserts into `addr_conn_map`, a task takes its own entry out of it, and
nothing else changes it. -/
theorem step_addrConnMap (stepped : pool.step event = some pool') :
    pool'.shared.addrConnMap = pool.shared.addrConnMap ∨
      (∃ entry, pool.shared.acceptor = .insertAddr entry ∧ pool'.shared.addrConnMap =
        pool.shared.addrConnMap.insert entry.src entry) ∨
      ∃ i connects entry, event = .task i connects ∧
        pool.tasks[i]? = some ⟨entry, .removeAddr⟩ ∧ pool'.shared.addrConnMap =
          removeIf pool.shared.addrConnMap entry.src entry.id := by
  cases event with
  | syn id now syn =>
    cases stepped
    exact .inl rfl
  | accept myIpInet addr =>
    obtain ⟨nat, accepted, rfl⟩ := Option.map_eq_some_iff.mp stepped
    unfold TcpNat.accept at accepted
    repeat' split at accepted
    all_goals first
      | cases accepted; exact .inl rfl
      | cases accepted
  | proceed =>
    simp only [TcpNatPool.step, TcpNatPool.proceed] at stepped
    split at stepped
    · cases stepped
      exact .inl rfl
    · cases stepped
      exact .inl rfl
    · cases stepped
      exact .inl rfl
    · rename_i entry here
      cases stepped
      exact .inr (.inl ⟨entry, here, rfl⟩)
    · split at stepped
      · cases stepped
        exact .inl rfl
      · cases stepped
  | clean now addr =>
    cases stepped
    left
    unfold TcpNat.clean
    repeat' split
    all_goals rfl
  | task i connects =>
    obtain same | ⟨entry, running, removed⟩ := runTask_addrConnMap stepped
    · exact .inl same
    · exact .inr (.inr ⟨i, connects, entry, rfl, running, removed⟩)

theorem Ok.removes_own (ok : pool.Ok entries) (distinct : (entries.map NatEntry.id).Nodup)
    (stepped : pool.step event = some pool')
    (before : pool.shared.addrConnMap.lookup addr = some entry)
    (after : pool'.shared.addrConnMap.lookup addr = none) :
    ∃ i connects, event = .task i connects ∧ pool.tasks[i]? = some ⟨entry, .removeAddr⟩ := by
  obtain same | ⟨other, -, inserted⟩ | ⟨i, connects, other, rfl, running, removed⟩ :=
    step_addrConnMap stepped
  · rw [same, before] at after
    cases after
  · rw [inserted] at after
    by_cases here : addr = other.src
    · rw [here, AList.lookup_insert] at after
      cases after
    · rw [AList.lookup_insert_ne here, before] at after
      cases after
  · rw [removed] at after
    have same : entry.id = other.id := by
      by_contra ne
      rw [removeIf_other before ne] at after
      cases after
    have opened := (ok.sound.each i _ running).opened
    obtain rfl := eq_of_id distinct (ok.sound.shared.conn addr entry before).1 opened same
    exact ⟨i, connects, rfl, running⟩

/-- **The NAT state machine is safe.** Let SYNs, accepted connections, the cleaner, connects
that succeed or fail and closing connections come in any order, operation by operation, where
the entries of all SYNs have ids of their own. Then no assertion fails, every entry of
`syn_map` is in state `SynReceived` under its own source address, and an entry leaves
`addr_conn_map` only when the task of that same entry removes it. -/
theorem tcp_nat_safe {events : List TcpNatEvent}
    (distinct : ((opened events).map NatEntry.id).Nodup) :
    ∃ pool, final TcpNatPool.step .new events = some pool ∧
      (∀ addr entry, pool.shared.synMap.lookup addr = some entry →
        entry.src = addr ∧ pool.shared.states entry.id = .synReceived) ∧
      ∀ event pool', pool.step event = some pool' → ∀ addr entry,
        pool.shared.addrConnMap.lookup addr = some entry →
        pool'.shared.addrConnMap.lookup addr = none →
        ∃ i connects, event = .task i connects ∧
          pool.tasks[i]? = some ⟨entry, .removeAddr⟩ := by
  obtain ⟨pool, ran, ok⟩ := Ok.new.run events distinct
  exact ⟨pool, ran, fun addr entry listed => (ok.sound.shared.syn addr entry listed).2,
    fun event pool' stepped addr entry before after => ok.removes_own distinct stepped before after⟩

end TcpNatPool

end

/-! ## A source port used again -/

def webSyn (dstIp : Ipv4Addr) : SynPacket := ⟨(.v4 0x0a000002, 1000), dstIp, dstIp, 80⟩

/-- A connection is accepted, connected and closed, and before its entry is removed the client
connects again from the same port; the second connection is accepted, and then the first entry
is removed. -/
def portReused : List TcpNatEvent :=
  [.syn 1 0 (webSyn 0x0a010001), .accept none (.v4 0x0a000002, 1000),
    .proceed, .proceed, .proceed, .proceed, .task 0 true, .task 0 true, .task 0 true, .task 0 true,
    .task 0 true, .syn 2 50 (webSyn 0x0a010002), .accept none (.v4 0x0a000002, 1000),
    .proceed, .proceed, .proceed, .proceed, .task 0 true, .task 0 true]

theorem portReused_safe :
    ∃ pool, final TcpNatPool.step .new portReused = some pool ∧
      pool.shared.addrConnMap.lookup (.v4 0x0a000002, 1000) =
        some ((webSyn 0x0a010002).entry 2 50) := by
  have distinct : ((opened portReused).map NatEntry.id).Nodup := by decide +kernel
  obtain ⟨pool, ran, -⟩ := TcpNatPool.tcp_nat_safe distinct
  have found : (final TcpNatPool.step .new portReused).map
      (fun pool => pool.shared.addrConnMap.lookup (.v4 0x0a000002, 1000)) =
        some (some ((webSyn 0x0a010002).entry 2 50)) := by decide +kernel
  rw [ran] at found
  exact ⟨pool, ran, Option.some.inj found⟩

end PeerLink.Gateway
