import PeerLink.Best.Keep
import PeerLink.Gateway.NicFilter
import PeerLink.Schedule.Pool

/-!
# The connections of a UDP listener

A SYN packet makes a connection, which the listener keeps in a map under the remote address. When
the forwarding task of a connection ends it puts the remote address into a channel, and a handler
takes the addresses out and removes what the map has for them. A second SYN from the same address
makes a new connection in the place of the first, and the handler cannot tell for which of the two
an address in the channel was meant.
-/

namespace PeerLink.Tunnel

open Packet Schedule Best

open Gateway (SocketAddr)

inductive UdpPacketType where
  | invalid
  | syn
  | sack
  | data
  | fin
  | holePunch
  | v6HolePunch

def UdpPacketType.code : UdpPacketType → UInt8
  | .invalid => 0
  | .syn => 1
  | .sack => 2
  | .data => 3
  | .fin => 4
  | .holePunch => 5
  | .v6HolePunch => 6

/-- A packet with its tunnel header. -/
structure UdpTunnelPacket where
  connId : UInt32
  msgType : UInt8
  padding : UInt8
  len : UInt16
  udpPayload : Bytes
  deriving DecidableEq

/-- The magic cookie stands where the header has the type, the padding and the length. -/
def UdpTunnelPacket.isStunPacket (packet : UdpTunnelPacket) : Bool :=
  packet.msgType == 0x21 && packet.padding == 0x12 && packet.len == 0x42a4 &&
    packet.connId &&& 0xc0 == 0

/-- Where a call of `handle_new_connect` is. -/
inductive ConnectPhase where
  /-- the length of the payload, and `socket.send_to` of the SACK -/
  | sack
  /-- `sock_map.insert`; the connection has been made, and its forwarding task runs -/
  | insert
  | established
  | refused
  deriving DecidableEq

/-- A call of `handle_new_connect` with the connection that it makes. The connection is known by
the call. -/
structure Connect where
  dstAddr : SocketAddr
  syn : UdpTunnelPacket
  phase : ConnectPhase
  /-- what its ring has taken -/
  ring : List Bytes
  /-- the forwarding task has sent its event -/
  closed : Bool
  deriving DecidableEq

/-- `order` are the connections as they came into the map. An event in the channel is an address;
the connection that it is of stands beside it. No code reads either. -/
structure UdpListener where
  sockMap : AList fun _ : SocketAddr => Nat
  order : List Nat
  closeEvents : List (Nat × SocketAddr)

/-- A connection that has left the map has its task aborted, but a task in the middle of a poll
goes on to its next wait: it may still send its event. -/
inductive ListenerEvent where
  /-- `taken` is whether the ring keeps the packet, if it comes to one -/
  | packet (addr : SocketAddr) (packet : UdpTunnelPacket) (taken : Bool)
  /-- `sent` is whether the SACK can be sent -/
  | connect (i : Nat) (sent : Bool)
  | close (i : Nat)
  | handle

abbrev ListenerPool := Pool UdpListener Connect

namespace ListenerPool

def new : ListenerPool := ⟨⟨∅, [], []⟩, []⟩

variable (pool : ListenerPool) (i : Nat)

/-- `handle_packet_from_remote` -/
def handlePacketFromRemote (packet : UdpTunnelPacket) (taken : Bool) : ListenerPool :=
  match pool.tasks[i]? with
  | none => pool
  | some conn =>
    if packet.msgType ≠ UdpPacketType.data.code ∨ conn.syn.connId ≠ packet.connId then
      pool
    else if taken then
      pool.turn i pool.shared { conn with ring := conn.ring ++ [packet.udpPayload] }
    else
      pool

/-- `do_forward_one_packet_to_conn` -/
def forwardPacket (addr : SocketAddr) (packet : UdpTunnelPacket) (taken : Bool) : ListenerPool :=
  if packet.msgType = UdpPacketType.syn.code then
    pool.spawn pool.shared ⟨addr, packet, .sack, [], false⟩
  else if packet.isStunPacket ∨ packet.msgType = UdpPacketType.v6HolePunch.code ∨
      packet.msgType = UdpPacketType.holePunch.code then
    pool
  else
    match pool.shared.sockMap.lookup addr with
    | none => pool
    | some i => pool.handlePacketFromRemote i packet taken

/-- The next step of `handle_new_connect`. -/
def connect (sent : Bool) : ListenerPool :=
  match pool.tasks[i]? with
  | none => pool
  | some conn =>
    match conn.phase with
    | .sack =>
      if conn.syn.udpPayload.length ≠ 8 ∨ !sent then
        pool.turn i pool.shared { conn with phase := .refused }
      else
        pool.turn i pool.shared { conn with phase := .insert }
    | .insert =>
      pool.turn i
        { pool.shared with
          sockMap := pool.shared.sockMap.insert conn.dstAddr i
          order := pool.shared.order ++ [i] }
        { conn with phase := .established }
    | .established | .refused => pool

/-- `forward_from_ring_to_udp` has returned, and the task sends its event. -/
def close : ListenerPool :=
  match pool.tasks[i]? with
  | none => pool
  | some conn =>
    if !conn.closed ∧ (conn.phase = .insert ∨ conn.phase = .established) then
      pool.turn i
        { pool.shared with closeEvents := pool.shared.closeEvents ++ [(i, conn.dstAddr)] }
        { conn with closed := true }
    else
      pool

/-- The handler takes the next event. -/
def handle : ListenerPool :=
  match pool.shared.closeEvents with
  | [] => pool
  | (_, dstAddr) :: closeEvents =>
    pool.change
      { pool.shared with sockMap := pool.shared.sockMap.erase dstAddr, closeEvents := closeEvents }

def step : ListenerEvent → ListenerPool
  | .packet addr packet taken => pool.forwardPacket addr packet taken
  | .connect i sent => pool.connect i sent
  | .close i => pool.close i
  | .handle => pool.handle

def run (events : List ListenerEvent) : ListenerPool := events.foldl step pool

/-! ### What a step can do -/

/-- The call of the connection, with its address. -/
def Addressed (addr : SocketAddr) : Prop :=
  ∃ conn, pool.tasks[i]? = some conn ∧ conn.dstAddr = addr

def Established : Prop :=
  ∃ conn, pool.tasks[i]? = some conn ∧ conn.phase = .established

/-- The calls keep their addresses, and those that have ended do not begin again. -/
structure Grows (pool' : ListenerPool) : Prop where
  addressed : ∀ i addr, pool.Addressed i addr → pool'.Addressed i addr
  established : ∀ i, pool.Established i → pool'.Established i

variable {pool : ListenerPool} {i : Nat} {conn conn' : Connect} {shared : UdpListener}

theorem Grows.refl (pool : ListenerPool) : pool.Grows pool := ⟨fun _ _ h => h, fun _ h => h⟩

theorem Grows.spawn : pool.Grows (pool.spawn shared conn) := by
  constructor
  · rintro j addr ⟨u, found, mine⟩
    exact ⟨u, Pool.spawn_other found, mine⟩
  · rintro j ⟨u, found, done⟩
    exact ⟨u, Pool.spawn_other found, done⟩

theorem Grows.turn (here : pool.tasks[i]? = some conn) (same : conn'.dstAddr = conn.dstAddr)
    (kept : conn.phase = .established → conn'.phase = .established) :
    pool.Grows (pool.turn i shared conn') := by
  have own : (pool.turn i shared conn').tasks[i]? = some conn' := Pool.turn_self here
  have other {j : Nat} (ne : i ≠ j) : (pool.turn i shared conn').tasks[j]? = pool.tasks[j]? :=
    Pool.turn_other ne
  constructor
  · rintro j addr ⟨u, found, mine⟩
    by_cases ne : i = j
    · subst ne
      cases here.symm.trans found
      exact ⟨conn', own, same.trans mine⟩
    · exact ⟨u, (other ne).trans found, mine⟩
  · rintro j ⟨u, found, done⟩
    by_cases ne : i = j
    · subst ne
      cases here.symm.trans found
      exact ⟨conn', own, kept done⟩
    · exact ⟨u, (other ne).trans found, done⟩

/-- A packet changes nothing that the listener keeps beside its calls. -/
theorem forwardPacket_shared (pool : ListenerPool) (addr : SocketAddr) (packet : UdpTunnelPacket)
    (taken : Bool) :
    (pool.forwardPacket addr packet taken).shared = pool.shared ∧
      pool.Grows (pool.forwardPacket addr packet taken) := by
  unfold forwardPacket
  split
  · exact ⟨rfl, .spawn⟩
  · split
    · exact ⟨rfl, .refl pool⟩
    · split
      · exact ⟨rfl, .refl pool⟩
      · unfold handlePacketFromRemote
        split
        · exact ⟨rfl, .refl pool⟩
        · rename_i conn here
          split
          · exact ⟨rfl, .refl pool⟩
          · split
            · exact ⟨rfl, .turn here rfl id⟩
            · exact ⟨rfl, .refl pool⟩

/-- The connection comes into the map. -/
def entering (pool : ListenerPool) (i : Nat) (conn : Connect) : ListenerPool :=
  pool.turn i
    { pool.shared with
      sockMap := pool.shared.sockMap.insert conn.dstAddr i
      order := pool.shared.order ++ [i] }
    { conn with phase := .established }

theorem connect_cases (pool : ListenerPool) (i : Nat) (sent : Bool) :
    ((pool.connect i sent).shared = pool.shared ∧ pool.Grows (pool.connect i sent)) ∨
      ∃ conn, pool.tasks[i]? = some conn ∧ conn.phase = .insert ∧
        pool.connect i sent = pool.entering i conn := by
  unfold connect
  cases here : pool.tasks[i]? with
  | none => exact .inl ⟨rfl, .refl pool⟩
  | some conn =>
    dsimp only
    cases phase : conn.phase with
    | sack =>
      have fresh : conn.phase ≠ .established := by rw [phase]; nofun
      dsimp only
      split
      · exact .inl ⟨rfl, .turn here rfl fun done => absurd done fresh⟩
      · exact .inl ⟨rfl, .turn here rfl fun done => absurd done fresh⟩
    | insert => exact .inr ⟨conn, rfl, phase, rfl⟩
    | established | refused => exact .inl ⟨rfl, .refl pool⟩

theorem close_cases (pool : ListenerPool) (i : Nat) :
    ((pool.close i).shared = pool.shared ∧ pool.Grows (pool.close i)) ∨
      ∃ addr, pool.Addressed i addr ∧ pool.Grows (pool.close i) ∧
        (pool.close i).shared =
          { pool.shared with closeEvents := pool.shared.closeEvents ++ [(i, addr)] } := by
  unfold close
  cases here : pool.tasks[i]? with
  | none => exact .inl ⟨rfl, .refl pool⟩
  | some conn =>
    dsimp only
    split
    · exact .inr ⟨conn.dstAddr, ⟨conn, here, rfl⟩, .turn here rfl id, rfl⟩
    · exact .inl ⟨rfl, .refl pool⟩

/-! ### The connection in the map is the last one of its address -/

/-- `d` has come into the map after `c`. -/
def Later (pool : ListenerPool) (c d : Nat) : Prop := [c, d].Sublist pool.shared.order

structure Ok (pool : ListenerPool) : Prop where
  stored : ∀ addr d, pool.shared.sockMap.lookup addr = some d →
    d ∈ pool.shared.order ∧ pool.Addressed d addr ∧
      ∀ c ∈ pool.shared.order, pool.Addressed c addr → c = d ∨ pool.Later c d
  once : pool.shared.order.Nodup
  entered : ∀ c ∈ pool.shared.order, pool.Established c
  events : ∀ c addr, (c, addr) ∈ pool.shared.closeEvents → pool.Addressed c addr

theorem Addressed.same {a b : SocketAddr} (one : pool.Addressed i a) (two : pool.Addressed i b) :
    a = b := by
  obtain ⟨u, found, rfl⟩ := one
  obtain ⟨v, found', rfl⟩ := two
  cases found.symm.trans found'
  rfl

theorem Ok.new : new.Ok := ⟨nofun, List.nodup_nil, nofun, nofun⟩

variable (ok : pool.Ok)
include ok

/-- A step that brings no connection into the map. -/
theorem Ok.grow {pool' : ListenerPool} (grows : pool.Grows pool')
    (order : pool'.shared.order = pool.shared.order)
    (fewer : ∀ addr d, pool'.shared.sockMap.lookup addr = some d →
      pool.shared.sockMap.lookup addr = some d)
    (events : ∀ c addr, (c, addr) ∈ pool'.shared.closeEvents → pool.Addressed c addr) :
    pool'.Ok where
  stored addr d found := by
    obtain ⟨mem, mine, last⟩ := ok.stored addr d (fewer addr d found)
    unfold Later
    rw [order]
    refine ⟨mem, grows.addressed d addr mine, fun c before addressed => ?_⟩
    obtain ⟨conn, here, -⟩ := ok.entered c before
    have known : pool.Addressed c conn.dstAddr := ⟨conn, here, rfl⟩
    have same := (grows.addressed c _ known).same addressed
    exact last c before (same ▸ known)
  once := order ▸ ok.once
  entered c mem := grows.established c (ok.entered c (order ▸ mem))
  events c addr mem := grows.addressed c addr (events c addr mem)

theorem Ok.same {pool' : ListenerPool} (grows : pool.Grows pool')
    (shared : pool'.shared = pool.shared) : pool'.Ok := by
  refine ok.grow grows (congrArg UdpListener.order shared) ?_ ?_ <;> rw [shared]
  · exact fun _ _ found => found
  · exact ok.events

theorem Ok.insert (here : pool.tasks[i]? = some conn) (phase : conn.phase = .insert) :
    (pool.entering i conn).Ok := by
  have grows : pool.Grows (pool.entering i conn) := .turn here rfl fun _ => rfl
  have fresh : i ∉ pool.shared.order := by
    intro mem
    obtain ⟨u, found, done⟩ := ok.entered i mem
    cases here.symm.trans found
    cases phase.symm.trans done
  have own : pool.Addressed i conn.dstAddr := ⟨conn, here, rfl⟩
  have after : ∀ c ∈ pool.shared.order, [c, i].Sublist (pool.shared.order ++ [i]) :=
    fun c mem => (List.singleton_sublist.mpr mem).append (List.Sublist.refl [i])
  constructor
  · intro addr d found
    by_cases mine : addr = conn.dstAddr
    · subst mine
      cases (AList.lookup_insert _).symm.trans found
      refine ⟨List.mem_append_right _ List.mem_cons_self, grows.addressed i _ own,
        fun c mem _ => ?_⟩
      rcases List.mem_append.mp mem with old | new
      · exact .inr (after c old)
      · exact .inl (List.mem_singleton.mp new)
    · obtain ⟨mem, addressed, last⟩ :=
        ok.stored addr d ((AList.lookup_insert_ne mine).symm.trans found)
      refine ⟨List.mem_append_left _ mem, grows.addressed d addr addressed, fun c among seen => ?_⟩
      rcases List.mem_append.mp among with old | new
      · obtain ⟨u, there, -⟩ := ok.entered c old
        have known : pool.Addressed c u.dstAddr := ⟨u, there, rfl⟩
        have same := (grows.addressed c _ known).same seen
        exact (last c old (same ▸ known)).imp_right fun later =>
          later.trans (List.sublist_append_left _ _)
      · rw [List.mem_singleton.mp new] at seen
        exact absurd (seen.same (grows.addressed i _ own)) mine
  · exact List.nodup_append.mpr ⟨ok.once, List.nodup_singleton i, fun a mem b single same =>
      fresh (List.mem_singleton.mp single ▸ same ▸ mem)⟩
  · intro c mem
    rcases List.mem_append.mp mem with old | new
    · exact grows.established c (ok.entered c old)
    · rw [List.mem_singleton.mp new]
      exact ⟨_, Pool.turn_self here, rfl⟩
  · exact fun c addr mem => grows.addressed c addr (ok.events c addr mem)

theorem Ok.step (event : ListenerEvent) : (pool.step event).Ok := by
  cases event with
  | packet addr packet taken =>
    obtain ⟨shared, grows⟩ := pool.forwardPacket_shared addr packet taken
    exact ok.same grows shared
  | connect i sent =>
    obtain ⟨shared, grows⟩ | ⟨conn, here, phase, after⟩ := pool.connect_cases i sent
    · exact ok.same grows shared
    · simp only [ListenerPool.step, after]
      exact ok.insert here phase
  | close i =>
    obtain ⟨shared, grows⟩ | ⟨addr, own, grows, shared⟩ := pool.close_cases i
    · exact ok.same grows shared
    · refine ok.grow grows ?_ ?_ ?_ <;> simp only [ListenerPool.step, shared]
      · exact fun _ _ found => found
      · intro c addr' mem
        rcases List.mem_append.mp mem with old | new
        · exact ok.events c addr' old
        · cases List.mem_singleton.mp new
          exact own
  | handle =>
    simp only [ListenerPool.step, ListenerPool.handle]
    split
    · exact ok
    · rename_i c addr rest queue
      refine ok.grow ⟨fun _ _ h => h, fun _ h => h⟩ rfl (fun _ _ => lookup_erase_origin)
        fun d addr' mem => ?_
      exact ok.events d addr' (queue ▸ List.mem_cons_of_mem _ mem)

theorem Ok.run (events : List ListenerEvent) : (pool.run events).Ok := by
  induction events generalizing pool with
  | nil => exact ok
  | cons event events ih => exact ih (ok.step event)

end ListenerPool

/-- **A close event removes no later connection just if the map has its own.** Whatever has come
before, when the handler takes the event of connection `c`: no connection that has come into the
map after `c` is removed, just if the map has `c` itself or nothing under the address, or `c` has
not come into the map yet. -/
theorem close_event_specific_iff {events : List ListenerEvent} {c : Nat} {addr : SocketAddr}
    {rest : List (Nat × SocketAddr)}
    (next : (ListenerPool.new.run events).shared.closeEvents = (c, addr) :: rest) :
    let pool := ListenerPool.new.run events
    (∀ other d, pool.shared.sockMap.lookup other = some d →
        (pool.step .handle).shared.sockMap.lookup other ≠ some d → ¬ pool.Later c d) ↔
      ∀ d, pool.shared.sockMap.lookup addr = some d → d = c ∨ c ∉ pool.shared.order := by
  have ok := ListenerPool.Ok.new.run events
  generalize ListenerPool.new.run events = pool at next ok ⊢
  have after : (pool.step .handle).shared.sockMap = pool.shared.sockMap.erase addr := by
    simp [ListenerPool.step, ListenerPool.handle, next, Pool.change]
  have own : pool.Addressed c addr := ok.events c addr (next ▸ List.mem_cons_self)
  dsimp only
  rw [after]
  constructor
  · intro spares d found
    by_contra both
    obtain ⟨differ, entered⟩ := not_or.mp both
    obtain same | later := (ok.stored addr d found).2.2 c (not_not.mp entered) own
    · exact differ same.symm
    · refine spares addr d found ?_ later
      rw [AList.lookup_erase]
      nofun
  · intro own other d found removed later
    by_cases here : other = addr
    · subst here
      obtain rfl | absent := own d found
      · -- a connection comes into the map only once
        exact absurd ok.once fun once => by
          have twice := later.nodup once
          simp at twice
      · exact absent (later.subset List.mem_cons_self)
    · rw [AList.lookup_erase_ne here] at removed
      exact removed found

/-- The address 203.0.113.9:4000, and SYN packets from it with two connection ids. -/
def remote : SocketAddr := (.v4 0xcb007109, 4000)

def synOf (connId : UInt32) : UdpTunnelPacket :=
  ⟨connId, UdpPacketType.syn.code, 0, 8, [1, 2, 3, 4, 5, 6, 7, 8]⟩

/-- A connection is made, and closes; its event is in the channel. -/
def closedOnce : List ListenerEvent :=
  [.packet remote (synOf 1) true, .connect 0 true, .connect 0 true, .close 0]

theorem close_event_of_own :
    (ListenerPool.new.run closedOnce).shared.closeEvents = [(0, remote)] ∧
      ∀ other d, (ListenerPool.new.run closedOnce).shared.sockMap.lookup other = some d →
        ((ListenerPool.new.run closedOnce).step .handle).shared.sockMap.lookup other ≠ some d →
          ¬ (ListenerPool.new.run closedOnce).Later 0 d := by
  have next : (ListenerPool.new.run closedOnce).shared.closeEvents = [(0, remote)] := by decide
  have stored : (ListenerPool.new.run closedOnce).shared.sockMap.lookup remote = some 0 := by
    decide
  refine ⟨next, (close_event_specific_iff next).mpr fun d found => .inl ?_⟩
  cases stored.symm.trans found
  rfl

/-- Before the handler takes the event, the same address connects again. -/
def reconnected : List ListenerEvent :=
  closedOnce ++ [.packet remote (synOf 2) true, .connect 1 true, .connect 1 true]

/-- The event of the first connection removes the second, which is open. -/
theorem close_event_removes_later :
    (ListenerPool.new.run reconnected).shared.closeEvents = [(0, remote)] ∧
      (ListenerPool.new.run reconnected).Later 0 1 ∧
      (ListenerPool.new.run reconnected).tasks[1]? =
        some ⟨remote, synOf 2, .established, [], false⟩ ∧
      (ListenerPool.new.run reconnected).shared.sockMap.lookup remote = some 1 ∧
      ((ListenerPool.new.run reconnected).step .handle).shared.sockMap.lookup remote = none := by
  refine ⟨by decide, ?_, by decide, by decide, by decide⟩
  have order : (ListenerPool.new.run reconnected).shared.order = [0, 1] := by decide
  unfold ListenerPool.Later
  rw [order]

end PeerLink.Tunnel
