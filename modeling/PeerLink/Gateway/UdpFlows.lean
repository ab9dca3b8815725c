import PeerLink.Gateway.UdpNat
import PeerLink.Schedule.Along

/-!
# What a client sees of its UDP flows

Two questions about the entries of the UDP proxy. From which address does a reply come: the
forwarding task translates one address only, that of the datagram which has started it. And does
a reply come at all: the task ends when nothing comes for a while, but the entry stays and keeps
its handle, so that no later datagram starts another task.
-/

namespace PeerLink.Gateway

open Packet Schedule Best

/-! ### The source of a reply -/

/-- The address by which the client has last addressed `ip`. -/
def UdpNat.lastMapped (nat : UdpNat) (client : SocketAddr) (ip : Ipv4Addr) : Option Ipv4Addr :=
  (nat.sends.reverse.find? fun out => out.client = client ∧ out.dst.1 = .v4 ip).map (·.dstIp)

theorem UdpNat.markActive_entry {nat : UdpNat} {id : Nat} {entry : UdpNatEntry}
    (found : nat.entries[id]? = some entry) (now : Nat) :
    (nat.markActive id now).entries[id]? = some { entry with lastActiveTime := now } := by
  simp [markActive, modify, found]

namespace UdpNatPool

theorem step_sends {pool : UdpNatPool} (ok : pool.Ok) {i : Nat} {task : ForwardTask}
    (here : pool.tasks[i]? = some (.forward task)) (sending : task.sending = true)
    {ip : Ipv4Addr} {port : UInt16} {queue : List SocketAddr}
    (next : task.queue = (.v4 ip, port) :: queue) (now : Nat) :
    ∃ reply, (pool.step (.forward i (.forward now .sent))).shared.replies =
        pool.shared.replies ++ [reply] ∧
      reply.src = (.v4 (task.translate ip), port) ∧ reply.dst = task.first.src := by
  obtain ⟨entry, found, mine, -⟩ := ok.each i _ here
  have marked := UdpNat.markActive_entry found now
  refine ⟨⟨entry.myPeerId, entry.srcPeerId, (.v4 (task.translate ip), port), entry.srcSocket⟩,
    ?_, rfl, mine⟩
  simp only [step, here, ForwardTask.operate, sending, if_true, ForwardTask.sendNext, next,
    marked, Option.map_some, Option.toList_some]
  rfl

end UdpNatPool

/-- What the translation makes of an address, by the datagram that has started the task. -/
theorem ForwardTask.translate_eq_iff (task : ForwardTask) (ip mapped : Ipv4Addr) :
    task.translate ip = mapped ↔
      (let seen := if isLoopback ip then task.virtualIpv4 else ip
      seen = task.first.realDstIp ∧ mapped = task.first.dstIp ∨
        seen ≠ task.first.realDstIp ∧ mapped = seen) := by
  unfold translate
  generalize (if isLoopback ip = true then task.virtualIpv4 else ip) = seen
  by_cases same : seen = task.first.realDstIp
  · simp only [same, if_true, true_and, ne_eq, not_true_eq_false, false_and, or_false]
    exact eq_comm
  · simp only [same, if_false, false_and, false_or, ne_eq, not_false_eq_true, true_and]
    exact eq_comm

/-- **A reply has the client's address for its source only if the first datagram gives it.**
A reply from `ip` goes to the client. Its source is the address by which the client has last
addressed `ip` just if the task has been started by a datagram through that very address, or if
`ip` is not the one that the task translates and the client has addressed it by itself. -/
theorem udp_reply_source_iff {events : List UdpNatEvent} {i : Nat} {task : ForwardTask}
    (here : (UdpNatPool.new.run events).tasks[i]? = some (.forward task))
    (sending : task.sending = true) {ip : Ipv4Addr} {port : UInt16} {queue : List SocketAddr}
    (next : task.queue = (.v4 ip, port) :: queue) {mapped : Ipv4Addr}
    (last : (UdpNatPool.new.run events).shared.lastMapped task.first.src ip = some mapped)
    (now : Nat) :
    let pool := UdpNatPool.new.run events
    let seen := if isLoopback ip then task.virtualIpv4 else ip
    ∃ reply, (pool.step (.forward i (.forward now .sent))).shared.replies =
        pool.shared.replies ++ [reply] ∧
      reply.dst = task.first.src ∧
      (some reply.src.1 = (pool.shared.lastMapped task.first.src ip).map .v4 ↔
        seen = task.first.realDstIp ∧ mapped = task.first.dstIp ∨
          seen ≠ task.first.realDstIp ∧ mapped = seen) := by
  obtain ⟨reply, sent, src, dst⟩ :=
    UdpNatPool.step_sends (UdpNatPool.Ok.new.run events) here sending next now
  refine ⟨reply, sent, dst, ?_⟩
  rw [last, src, ← task.translate_eq_iff ip mapped]
  simp

/-- Two networks behind the node, 192.168.1.0/24 and 192.168.2.0/24, which the others know as
10.1.0.0/24 and 10.2.0.0/24. -/
def twoMapped : ProxyConfig where
  cidrSet :=
    { cidrSet := [⟨0x0a010000, 24⟩, ⟨0x0a020000, 24⟩]
      mappedToReal := (AList.insert ⟨0x0a010000, 24⟩ ⟨0xc0a80100, 24⟩ ∅).insert
        ⟨0x0a020000, 24⟩ ⟨0xc0a80200, 24⟩ }
  enableExitNode := false
  noTun := false

/-- A datagram of 10.0.0.2:5000 for port 53 of `dstIp`. -/
def queryTo (dstIp : Ipv4Addr) : ClientDatagram where
  fromPeerId := 2
  toPeerId := 1
  src := (.v4 0x0a000002, 5000)
  dstIp := dstIp
  realDstIp := twoMapped.realDstIp dstIp
  dstPort := 53

/-- The node has the address 10.0.0.1. -/
def callAt (now : Nat) : CallEnv := ⟨true, now, some 0x0a000001, true⟩

/-- The first datagram, for 10.1.0.5, with the task that its call starts. -/
def firstQuery : List UdpNatEvent :=
  .packet (queryTo 0x0a010005) :: List.replicate 5 (.call 0 (callAt 0))

def forwardOf (queue : List SocketAddr) : ForwardTask :=
  ⟨0, 0x0a000001, queryTo 0x0a010005, .check, queue, true, false⟩

/-- The reply of 192.168.1.5 to the first datagram. -/
def firstAnswer : List UdpNatEvent :=
  firstQuery ++ [.forward 1 .check, .forward 1 (.receive (.v4 0xc0a80105, 53))]

theorem first_answer_from_mapped :
    (UdpNatPool.new.run firstAnswer).tasks[1]? =
      some (.forward (forwardOf [(.v4 0xc0a80105, 53)])) ∧
      (UdpNatPool.new.run firstAnswer).shared.lastMapped (.v4 0x0a000002, 5000) 0xc0a80105 =
        some 0x0a010005 ∧
      ∃ reply, ((UdpNatPool.new.run firstAnswer).step
          (.forward 1 (.forward 20 .sent))).shared.replies =
          (UdpNatPool.new.run firstAnswer).shared.replies ++ [reply] ∧
        some reply.src.1 = ((UdpNatPool.new.run firstAnswer).shared.lastMapped
          (.v4 0x0a000002, 5000) 0xc0a80105).map .v4 := by
  have here : (UdpNatPool.new.run firstAnswer).tasks[1]? =
      some (.forward (forwardOf [(.v4 0xc0a80105, 53)])) := by decide +kernel
  have last : (UdpNatPool.new.run firstAnswer).shared.lastMapped (.v4 0x0a000002, 5000)
      0xc0a80105 = some 0x0a010005 := by decide +kernel
  obtain ⟨reply, sent, -, source⟩ := udp_reply_source_iff here rfl rfl last 20
  exact ⟨here, last, reply, sent, source.mpr (by decide +kernel)⟩

/-- The same client then addresses 10.2.0.7, whose answer is from 192.168.2.7. -/
def secondAnswer : List UdpNatEvent :=
  firstAnswer ++ .forward 1 (.forward 20 .sent) :: .packet (queryTo 0x0a020007) ::
    (List.replicate 4 (.call 2 (callAt 30)) ++
      [.forward 1 .check, .forward 1 (.receive (.v4 0xc0a80207, 53)),
        .forward 1 (.forward 40 .sent)])

/-- The answer to the second datagram comes from the real address, which the client does not
know. -/
theorem second_answer_from_real :
    (UdpNatPool.new.run secondAnswer).shared.lastMapped (.v4 0x0a000002, 5000) 0xc0a80207 =
        some 0x0a020007 ∧
      (UdpNatPool.new.run secondAnswer).shared.replies.map (·.src) =
        [(.v4 0x0a010005, 53), (.v4 0xc0a80207, 53)] := by
  constructor <;> decide +kernel

/-! ### Whether a reply comes at all -/

namespace ForwardTask

/-- `forward_task` has not returned. -/
def running (task : ForwardTask) : Bool := !task.returned

/-- Both halves are at work, so that a reply that comes now is passed on. -/
def forwarding (task : ForwardTask) : Bool := task.recv ≠ .ended && task.sending

end ForwardTask

/-- The entry that a call has in hand. -/
def CallPhase.entry : CallPhase → Option Nat
  | .check entry | .spawn entry | .mark entry _ | .send entry _ => some entry
  | .lookup | .done => none

def UdpTask.holds (id : Nat) : UdpTask → Bool
  | .call _ phase => phase.entry = some id
  | .forward _ => false

def UdpTask.serves (alive : ForwardTask → Bool) (id : Nat) : UdpTask → Bool
  | .call _ _ => false
  | .forward task => task.entry = id && alive task

namespace UdpNatPool

variable (alive : ForwardTask → Bool) (pool : UdpNatPool) (id : Nat)

/-- The table has the entry, or a call has it in hand. -/
def held : Bool :=
  pool.shared.natTable.entries.any (·.2 = id) || pool.tasks.any (·.holds id)

/-- The entry has a living task. -/
def has : Bool := pool.tasks.any (·.serves alive id)

/-- No forwarding task ends while its entry is held. -/
def keepsTask : UdpNatEvent → Bool
  | .forward i op =>
    match pool.tasks[i]? with
    | some (.forward task) =>
      !alive task || alive (task.operate pool.shared op).2 || !pool.held task.entry
    | _ => true
  | _ => true

/-- What is held and has had a task has a living one. -/
def Served : Prop :=
  ∀ id, pool.held id = true → pool.shared.handle id = true → pool.has alive id = true

variable {alive pool id}

theorem held_iff : pool.held id = true ↔
    (∃ client, pool.shared.natTable.lookup client = some id) ∨
      ∃ u ∈ pool.tasks, u.holds id = true := by
  simp only [held, Bool.or_eq_true, List.any_eq_true, decide_eq_true_eq]
  refine or_congr_left ⟨?_, ?_⟩
  · rintro ⟨⟨client, _⟩, mem, rfl⟩
    exact ⟨client, AList.mem_lookup_iff.mpr mem⟩
  · rintro ⟨client, found⟩
    exact ⟨⟨client, id⟩, AList.mem_lookup_iff.mp found, rfl⟩

theorem has_iff : pool.has alive id = true ↔
    ∃ u ∈ pool.tasks, u.serves alive id = true := List.any_eq_true

end UdpNatPool

/-- A new entry has no handle. -/
theorem UdpNat.handle_append {nat : UdpNat} {entry : UdpNatEntry}
    (table : AList fun _ : SocketAddr => Nat) (bare : entry.forwardTask = false) :
    UdpNat.handle { nat with natTable := table, entries := nat.entries ++ [entry] } =
      nat.handle := by
  funext id
  simp only [handle, List.getElem?_append, List.getElem?_singleton]
  split_ifs with old last
  · rfl
  · simp [bare, List.getElem?_eq_none (Nat.not_lt.mp old)]
  · simp [List.getElem?_eq_none (Nat.not_lt.mp old)]

theorem UdpNat.handle_length {nat : UdpNat} : nat.handle nat.entries.length = false := by
  simp [handle]

/-- What an operation of a call does to the entries that are held and to the handles: what it holds
is held already or is new and has no handle, and only the task that it starts gives a handle. -/
theorem CallPhase.operate_holds {nat nat' : UdpNat} {datagram : ClientDatagram} {env : CallEnv}
    {phase phase' : CallPhase} {started : Option ForwardTask}
    (done : phase.operate nat datagram env = (nat', phase', started)) (id : Nat) :
    ((∃ client, nat'.natTable.lookup client = some id) ∨ phase'.entry = some id →
      ((∃ client, nat.natTable.lookup client = some id) ∨ phase.entry = some id) ∨
        nat'.handle id = false) ∧
      (nat'.handle id = true → nat.handle id = true ∨
        ∃ ipv4, started = some ⟨id, ipv4, datagram, .check, [], true, false⟩) := by
  cases phase with
  | lookup =>
    simp only [operate] at done
    split at done
    · rename_i entry found
      cases done
      refine ⟨?_, .inl⟩
      rintro (held | ⟨⟨⟩⟩)
      · exact .inl (.inl held)
      · exact .inl (.inl ⟨_, found⟩)
    · split at done
      · cases done
        rw [UdpNat.handle_append _ rfl]
        refine ⟨?_, .inl⟩
        rintro (⟨client, found⟩ | ⟨⟨⟩⟩)
        · obtain old | ⟨-, rfl⟩ := lookup_insert_origin found
          · exact .inl (.inl ⟨client, old⟩)
          · exact .inr UdpNat.handle_length
        · exact .inr UdpNat.handle_length
      · cases done
        exact ⟨fun held => .inl (held.imp_right fun none => by cases none), .inl⟩
  | check entry =>
    simp only [operate] at done
    split_ifs at done <;> cases done <;> exact ⟨.inl, .inl⟩
  | spawn entry =>
    simp only [operate] at done
    split at done
    · cases done
      exact ⟨fun held => .inl (held.imp_right fun none => by cases none), .inl⟩
    · cases done
      refine ⟨.inl, fun handle => ?_⟩
      by_cases here : id = entry
      · exact .inr ⟨_, by rw [here]⟩
      · left
        simpa [UdpNat.handle, UdpNat.modify, List.getElem?_modify, Ne.symm here] using handle
  | mark entry started =>
    cases done
    refine ⟨.inl, fun handle => .inl ?_⟩
    rwa [UdpNat.handle_markActive] at handle
  | send entry started | done =>
    cases done
    exact ⟨fun held => .inl (held.imp_right fun none => by cases none), .inl⟩

namespace UdpNatPool

variable {alive : ForwardTask → Bool} {pool : UdpNatPool}

/-- Whoever holds an entry after a call's operation, the entry was held before or is the new one. -/
theorem held_turn {i : Nat} {datagram : ClientDatagram} {phase phase' : CallPhase} {env : CallEnv}
    {nat : UdpNat} {started : Option ForwardTask} {id : Nat}
    (here : pool.tasks[i]? = some (.call datagram phase))
    (done : phase.operate pool.shared datagram env = (nat, phase', started))
    (held : UdpNatPool.held (pool.turn i nat (.call datagram phase')) id = true)
    (handle : nat.handle id = true) : pool.held id = true := by
  have known := (CallPhase.operate_holds done id).1
  have before (mine : (∃ client, nat.natTable.lookup client = some id) ∨ phase'.entry = some id) :
      pool.held id = true := by
    obtain ⟨client, found⟩ | mine := (known mine).resolve_right (by simp [handle])
    · exact held_iff.mpr (.inl ⟨client, found⟩)
    · exact held_iff.mpr (.inr ⟨_, List.mem_of_getElem? here, decide_eq_true mine⟩)
  obtain table | ⟨u, mem, holds⟩ := held_iff.mp held
  · exact before (.inl table)
  · obtain old | rfl := List.mem_or_eq_of_mem_set mem
    · exact held_iff.mpr (.inr ⟨u, old, holds⟩)
    · exact before (.inr (of_decide_eq_true holds))

theorem Served.call
    (fresh : ∀ entry ipv4 first, alive ⟨entry, ipv4, first, .check, [], true, false⟩)
    (served : pool.Served alive) (i : Nat) (env : CallEnv) :
    (pool.step (.call i env)).Served alive := by
  simp only [step]
  split
  · rename_i datagram phase here
    rcases done : phase.operate pool.shared datagram env with ⟨nat, phase', started⟩
    have kept {u : UdpTask} {id : Nat} (mem : u ∈ pool.tasks) (serves : u.serves alive id = true) :
        u ∈ (pool.turn i nat (.call datagram phase')).tasks := by
      refine Pool.mem_turn here mem ?_
      rintro rfl
      cases serves
    have step {id : Nat}
        (held : UdpNatPool.held (pool.turn i nat (.call datagram phase')) id = true)
        (handle : nat.handle id = true) :
        (∃ u ∈ (pool.turn i nat (.call datagram phase')).tasks, u.serves alive id = true) ∨
          ∃ ipv4, started = some ⟨id, ipv4, datagram, .check, [], true, false⟩ := by
      refine ((CallPhase.operate_holds done id).2 handle).imp_left fun before => ?_
      obtain ⟨u, mem, serves⟩ := has_iff.mp (served id (held_turn here done held handle) before)
      exact ⟨u, kept mem serves, serves⟩
    cases started with
    | none =>
      intro id held handle
      exact has_iff.mpr ((step held handle).resolve_right (by rintro ⟨_, ⟨⟩⟩))
    | some task =>
      intro id held handle
      have held : UdpNatPool.held (pool.turn i nat (.call datagram phase')) id = true := by
        simpa [UdpNatPool.held, Pool.spawn, Pool.turn, UdpTask.holds] using held
      obtain ⟨u, mem, serves⟩ | ⟨ipv4, started⟩ := step held handle
      · exact has_iff.mpr ⟨u, List.mem_append_left _ mem, serves⟩
      · refine has_iff.mpr ⟨.forward task, List.mem_append_right _ (.head _), ?_⟩
        cases started
        simp [UdpTask.serves, fresh]
  · exact served

theorem Served.forward (served : pool.Served alive) {i : Nat} {op : ForwardOp}
    (kept : pool.keepsTask alive (.forward i op) = true) :
    (pool.step (.forward i op)).Served alive := by
  simp only [step]
  split
  · rename_i task here
    have steps := task.operate_steps pool.shared op
    simp only [keepsTask, here] at kept
    generalize task.operate pool.shared op = after at kept steps ⊢
    intro id held handle
    have held : pool.held id = true := by
      obtain ⟨client, found⟩ | ⟨u, mem, holds⟩ := held_iff.mp held
      · rw [Pool.turn, steps.table] at found
        exact held_iff.mpr (.inl ⟨client, found⟩)
      · obtain old | rfl := List.mem_or_eq_of_mem_set mem
        · exact held_iff.mpr (.inr ⟨u, old, holds⟩)
        · cases holds
    rw [Pool.turn, steps.handle] at handle
    obtain ⟨u, mem, serves⟩ := has_iff.mp (served id held handle)
    by_cases other : u = .forward task
    · cases other
      obtain ⟨mine, lives⟩ : task.entry = id ∧ alive task = true := by
        simpa [UdpTask.serves] using serves
      have lives : alive after.2 = true := by simpa [lives, mine, held] using kept
      refine has_iff.mpr ⟨_, List.mem_of_getElem? (Pool.turn_self here), ?_⟩
      simp [UdpTask.serves, steps.entry, mine, lives]
    · exact has_iff.mpr ⟨u, Pool.mem_turn here mem other, serves⟩
  · exact served

theorem Served.step
    (fresh : ∀ entry ipv4 first, alive ⟨entry, ipv4, first, .check, [], true, false⟩)
    (served : pool.Served alive) {event : UdpNatEvent} (kept : pool.keepsTask alive event = true) :
    (pool.step event).Served alive := by
  cases event with
  | packet datagram =>
    intro id held handle
    have held : pool.held id = true := by
      simpa [UdpNatPool.held, UdpNatPool.step, Pool.spawn, UdpTask.holds,
        CallPhase.entry] using held
    obtain ⟨u, mem, serves⟩ := has_iff.mp (served id held handle)
    exact has_iff.mpr ⟨u, List.mem_append_left _ mem, serves⟩
  | call i env => exact served.call fresh i env
  | forward i op => exact served.forward kept
  | clean now client =>
    intro id held handle
    obtain same | ⟨other, removed⟩ := UdpNat.clean_cases pool.shared now client
    · simp only [UdpNatPool.step, same] at held handle ⊢
      exact served id held handle
    · simp only [UdpNatPool.step, removed] at held handle ⊢
      rw [Pool.change, UdpNat.handle_stop] at handle
      refine served id (held_iff.mpr ((held_iff.mp held).imp_left ?_)) handle
      rintro ⟨owner, found⟩
      exact ⟨owner, lookup_erase_origin found⟩

end UdpNatPool

/-- **Every datagram that is sent has a task for its replies** in runs in which no forwarding
task of an entry ends while the table has the entry or a call has it in hand. Whether a task lives
may mean that it has not returned or that both of its halves are at work. -/
theorem datagram_served {alive : ForwardTask → Bool}
    (reading : alive = ForwardTask.running ∨ alive = ForwardTask.forwarding)
    {events : List UdpNatEvent}
    (kept : Throughout UdpNatPool.step (fun pool event => pool.keepsTask alive event = true)
      .new events)
    {i : Nat} {datagram : ClientDatagram} {id : Nat} {started : Bool}
    (sending : (UdpNatPool.new.run events).tasks[i]? = some (.call datagram (.send id started))) :
    (UdpNatPool.new.run events).has alive id = true := by
  have fresh (entry : Nat) (ipv4 : Ipv4Addr) (first : ClientDatagram) :
      alive ⟨entry, ipv4, first, .check, [], true, false⟩ = true := by
    obtain rfl | rfl := reading <;> rfl
  have served : (UdpNatPool.new.run events).Served alive :=
    Throughout.foldl (fun _ _ served kept => UdpNatPool.Served.step fresh served kept) nofun kept
  obtain ⟨entry, found, -, handle⟩ := (UdpNatPool.Ok.new.run events).each i _ sending
  refine served id (UdpNatPool.held_iff.mpr (.inr ⟨_, List.mem_of_getElem? sending, ?_⟩)) ?_
  · simp [UdpTask.holds, CallPhase.entry]
  · simp [UdpNat.handle, found, handle]

/-- The entry of the first datagram is removed when nothing has come for three minutes, and its task
ends. The client sends two more, which have a new entry. -/
def cleanedThenAgain : List UdpNatEvent :=
  firstQuery ++ [.clean 180000 (queryTo 0x0a010005).src, .forward 1 .check, .forward 1 .drained,
    .forward 1 .join, .packet (queryTo 0x0a010005)] ++ List.replicate 5 (.call 2 (callAt 200000)) ++
    .packet (queryTo 0x0a010005) :: List.replicate 3 (.call 4 (callAt 210000))

theorem second_query_served :
    (UdpNatPool.new.run cleanedThenAgain).tasks[4]? =
        some (.call (queryTo 0x0a010005) (.send 1 false)) ∧
      (UdpNatPool.new.run cleanedThenAgain).has ForwardTask.running 1 = true := by
  have sending : (UdpNatPool.new.run cleanedThenAgain).tasks[4]? =
      some (.call (queryTo 0x0a010005) (.send 1 false)) := by decide +kernel
  exact ⟨sending, datagram_served (.inl rfl) (by decide +kernel) sending⟩

/-- Nothing comes for two minutes, and the task of the first datagram ends; after two and a half
the client sends again. -/
def quietThenAgain : List UdpNatEvent :=
  firstQuery ++ [.forward 1 .check, .forward 1 .recvEnds, .forward 1 .drained, .forward 1 .join,
    .packet (queryTo 0x0a010005)] ++ List.replicate 3 (.call 2 (callAt 150000))

theorem query_after_quiet_unserved :
    (UdpNatPool.new.run quietThenAgain).tasks[2]? =
        some (.call (queryTo 0x0a010005) (.send 0 false)) ∧
      (UdpNatPool.new.run quietThenAgain).shared.natTable.lookup
        (queryTo 0x0a010005).src = some 0 ∧
      (UdpNatPool.new.run quietThenAgain).has ForwardTask.running 0 = false := by
  refine ⟨?_, ?_, ?_⟩ <;> decide +kernel

end PeerLink.Gateway
