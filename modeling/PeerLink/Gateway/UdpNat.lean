import PeerLink.Gateway.Fragments
import PeerLink.Schedule.Pool

/-!
# The NAT entries of the UDP proxy

An entry stands for the socket of a client. It has a socket of its own, which datagrams of the
client leave by, and a task that forwards what comes back. The task is started by the first
datagram and keeps the addresses of that one; the entry keeps a handle of the task, and the
handle stays when the task ends. Calls of `try_handle_packet`, the two halves of a forwarding
task and the cleaner take turns, one operation at a time.
-/

namespace PeerLink.Gateway

open Packet Schedule Best

open Route (PeerId)

/-- What `try_handle_packet` knows of a datagram when it comes to the table. -/
structure ClientDatagram where
  fromPeerId : PeerId
  toPeerId : PeerId
  src : SocketAddr
  dstIp : Ipv4Addr
  realDstIp : Ipv4Addr
  dstPort : UInt16
  deriving DecidableEq

def LOCALHOST : Ipv4Addr := 0x7f000001

def isLoopback (ip : Ipv4Addr) : Bool := ip >>> 24 == 127

/-- Where the datagram goes to; `ipv4` is the node's own address. -/
def ClientDatagram.dstSocket (datagram : ClientDatagram) (ipv4 : Option Ipv4Addr) : SocketAddr :=
  if some datagram.dstIp = ipv4 then (.v4 LOCALHOST, datagram.dstPort)
  else (.v4 datagram.realDstIp, datagram.dstPort)

/-- Times are in milliseconds. -/
structure UdpNatEntry where
  srcPeerId : PeerId
  myPeerId : PeerId
  srcSocket : SocketAddr
  /-- `forward_task` has a handle -/
  forwardTask : Bool
  stopped : Bool
  lastActiveTime : Nat

/-- A call of `send_to` on the socket of an entry. An error is logged, and that is all. -/
structure SendTo where
  client : SocketAddr
  dstIp : Ipv4Addr
  dst : SocketAddr
  sent : Bool

/-- A reply for the client, from `src`, as it is given to the peers. One too long for a packet
goes in fragments, which have the same addresses. -/
structure SentReply where
  fromPeerId : PeerId
  toPeerId : PeerId
  src : SocketAddr
  dst : SocketAddr

/-- The table and the entries, with what has been sent both ways. An entry is known by its
place in the list. -/
structure UdpNat where
  natTable : AList fun _ : SocketAddr => Nat
  entries : List UdpNatEntry
  sends : List SendTo
  replies : List SentReply

/-- Where a call of `try_handle_packet` is, by the operation that comes next. -/
inductive CallPhase where
  /-- `nat_table.entry(..).or_try_insert_with(..)` -/
  | lookup
  /-- `forward_task.lock().await.is_none()` -/
  | check (entry : Nat)
  /-- `forward_task.lock().await.replace(tokio::spawn(..))` -/
  | spawn (entry : Nat)
  /-- `mark_active` -/
  | mark (entry : Nat) (started : Bool)
  /-- `socket.send_to` -/
  | send (entry : Nat) (started : Bool)
  | done
  deriving DecidableEq

/-- The receiving half of a forwarding task. -/
inductive RecvPhase where
  /-- looks at `stopped` -/
  | check
  | wait
  | ended
  deriving DecidableEq

/-- A forwarding task with the channel between its halves. `first` is the datagram whose call
has started it. -/
structure ForwardTask where
  entry : Nat
  virtualIpv4 : Ipv4Addr
  first : ClientDatagram
  recv : RecvPhase
  queue : List SocketAddr
  sending : Bool
  returned : Bool
  deriving DecidableEq

inductive UdpTask where
  | call (datagram : ClientDatagram) (phase : CallPhase)
  | forward (task : ForwardTask)
  deriving DecidableEq

/-- What a call meets: whether a socket opens, the time, the node's own address, and whether the
datagram can be sent. -/
structure CallEnv where
  opens : Bool
  now : Nat
  ipv4 : Option Ipv4Addr
  sends : Bool

/-- How the channel to the peers takes a packet: when it is full the packet is dropped. -/
inductive TrySend where
  | sent
  | full
  | closed

inductive ForwardOp where
  | check
  | receive (src : SocketAddr)
  /-- a timeout or an error -/
  | recvEnds
  | forward (now : Nat) (result : TrySend)
  | drained
  | join

inductive UdpNatEvent where
  | packet (datagram : ClientDatagram)
  | call (i : Nat) (env : CallEnv)
  | forward (i : Nat) (op : ForwardOp)
  | clean (now : Nat) (client : SocketAddr)

namespace UdpNat

def new : UdpNat := ⟨∅, [], [], []⟩

def modify (nat : UdpNat) (entry : Nat) (f : UdpNatEntry → UdpNatEntry) : UdpNat :=
  { nat with entries := nat.entries.modify entry f }

def markActive (nat : UdpNat) (entry : Nat) (now : Nat) : UdpNat :=
  nat.modify entry fun e => { e with lastActiveTime := now }

def stop (nat : UdpNat) (entry : Nat) : UdpNat :=
  nat.modify entry fun e => { e with stopped := true }

/-- The entry has the handle of a task. -/
def handle (nat : UdpNat) (entry : Nat) : Bool := (nat.entries[entry]?).any (·.forwardTask)

/-- How long an entry lives without traffic, in seconds. -/
def ACTIVE_SECS : Nat := 180

/-- The cleaner looks at one entry of the table. -/
def clean (nat : UdpNat) (now : Nat) (client : SocketAddr) : UdpNat :=
  match nat.natTable.lookup client with
  | none => nat
  | some id =>
    match nat.entries[id]? with
    | none => nat
    | some entry =>
      if (now - entry.lastActiveTime) / 1000 < ACTIVE_SECS then
        nat
      else
        { nat with natTable := nat.natTable.erase client }.stop id

end UdpNat

/-- One operation of a call: the state, where the call is, and a task that it starts. -/
def CallPhase.operate (nat : UdpNat) (datagram : ClientDatagram) (env : CallEnv) :
    CallPhase → UdpNat × CallPhase × Option ForwardTask
  | .lookup =>
    match nat.natTable.lookup datagram.src with
    | some entry => (nat, .check entry, none)
    | none =>
      if env.opens then
        let entry : UdpNatEntry :=
          { srcPeerId := datagram.fromPeerId
            myPeerId := datagram.toPeerId
            srcSocket := datagram.src
            forwardTask := false
            stopped := false
            lastActiveTime := env.now }
        ({ nat with
            natTable := nat.natTable.insert datagram.src nat.entries.length
            entries := nat.entries ++ [entry] }, .check nat.entries.length, none)
      else
        (nat, .done, none)
  | .check entry =>
    if nat.handle entry then (nat, .mark entry false, none)
    else (nat, .spawn entry, none)
  | .spawn entry =>
    match env.ipv4 with
    | none => (nat, .done, none)
    | some virtualIpv4 =>
      (nat.modify entry fun e => { e with forwardTask := true }, .mark entry true,
        some ⟨entry, virtualIpv4, datagram, .check, [], true, false⟩)
  | .mark entry started => (nat.markActive entry env.now, .send entry started, none)
  | .send _ _ =>
    let out : SendTo := ⟨datagram.src, datagram.dstIp, datagram.dstSocket env.ipv4, env.sends⟩
    ({ nat with sends := nat.sends ++ [out] }, .done, none)
  | .done => (nat, .done, none)

namespace ForwardTask

/-- The source that the client sees. -/
def translate (task : ForwardTask) (ip : Ipv4Addr) : Ipv4Addr :=
  let ip := if isLoopback ip then task.virtualIpv4 else ip
  if ip = task.first.realDstIp then task.first.dstIp else ip

/-- The sending half takes the first reply of the channel. -/
def sendNext (nat : UdpNat) (task : ForwardTask) (now : Nat) (result : TrySend) :
    UdpNat × ForwardTask :=
  match task.queue with
  | [] => (nat, task)
  | (.v6 _, _) :: queue => (nat, { task with queue })
  | (.v4 ip, port) :: queue =>
    let nat := nat.markActive task.entry now
    match result with
    | .sent =>
      let reply (entry : UdpNatEntry) : SentReply :=
        ⟨entry.myPeerId, entry.srcPeerId, (.v4 (task.translate ip), port), entry.srcSocket⟩
      ({ nat with replies := nat.replies ++ (nat.entries[task.entry]?.map reply).toList },
        { task with queue })
    | .full => (nat, { task with queue })
    | .closed => (nat, { task with queue, sending := false })

def operate (nat : UdpNat) (task : ForwardTask) : ForwardOp → UdpNat × ForwardTask
  | .check =>
    if task.recv = .check then
      (nat, { task with
        recv := if (nat.entries[task.entry]?).any (·.stopped) then .ended else .wait })
    else
      (nat, task)
  | .receive src =>
    if task.recv = .wait then
      -- without the other half the channel is closed, and unwrapping ends this half
      if task.sending then (nat, { task with queue := task.queue ++ [src], recv := .check })
      else (nat, { task with recv := .ended })
    else
      (nat, task)
  | .recvEnds => if task.recv = .wait then (nat, { task with recv := .ended }) else (nat, task)
  | .forward now result =>
    if task.sending then task.sendNext nat now result else (nat, task)
  | .drained =>
    if task.recv = .ended ∧ task.queue = [] then (nat, { task with sending := false })
    else (nat, task)
  | .join =>
    if task.recv = .ended ∧ task.sending = false then
      (nat.stop task.entry, { task with returned := true })
    else
      (nat, task)

end ForwardTask

abbrev UdpNatPool := Pool UdpNat UdpTask

namespace UdpNatPool

def new : UdpNatPool := ⟨.new, []⟩

def step (pool : UdpNatPool) : UdpNatEvent → UdpNatPool
  | .packet datagram => pool.spawn pool.shared (.call datagram .lookup)
  | .call i env =>
    match pool.tasks[i]? with
    | some (.call datagram phase) =>
      match phase.operate pool.shared datagram env with
      | (nat, phase, none) => pool.turn i nat (.call datagram phase)
      | (nat, phase, some task) =>
        (pool.turn i nat (.call datagram phase)).spawn nat (.forward task)
    | _ => pool
  | .forward i op =>
    match pool.tasks[i]? with
    | some (.forward task) =>
      let (nat, task) := task.operate pool.shared op
      pool.turn i nat (.forward task)
    | _ => pool
  | .clean now client => pool.change (pool.shared.clean now client)

def run (pool : UdpNatPool) (events : List UdpNatEvent) : UdpNatPool := events.foldl step pool

end UdpNatPool

/-! ### What the tasks know of their entries -/

/-- The entry belongs to the client and, if `started`, has the handle of a task. -/
def UdpNat.Knows (nat : UdpNat) (id : Nat) (client : SocketAddr) (started : Bool) : Prop :=
  ∃ entry, nat.entries[id]? = some entry ∧ entry.srcSocket = client ∧
    (started = true → entry.forwardTask = true)

def UdpNat.Grows (nat nat' : UdpNat) : Prop :=
  ∀ id client started, nat.Knows id client started → nat'.Knows id client started

def UdpNat.Ok (nat : UdpNat) : Prop :=
  ∀ client id, nat.natTable.lookup client = some id → nat.Knows id client false

def UdpTask.Asserts (nat : UdpNat) : UdpTask → Prop
  | .call datagram (.check id) | .call datagram (.spawn id) => nat.Knows id datagram.src false
  | .call datagram (.mark id _) | .call datagram (.send id _) => nat.Knows id datagram.src true
  | .call _ .lookup | .call _ .done => True
  | .forward task => nat.Knows task.entry task.first.src true

namespace UdpNat

variable {nat nat' : UdpNat} {id : Nat} {client : SocketAddr}

theorem Grows.refl (nat : UdpNat) : nat.Grows nat := fun _ _ _ knows => knows

/-- All that a task knows of an entry stays true when it is changed by `f`. -/
theorem grows_modify (id : Nat) {f : UdpNatEntry → UdpNatEntry}
    (same : ∀ e, (f e).srcSocket = e.srcSocket)
    (kept : ∀ e, e.forwardTask = true → (f e).forwardTask = true) :
    nat.Grows (nat.modify id f) := by
  rintro other client started ⟨entry, found, mine, handle⟩
  by_cases here : id = other
  · refine ⟨f entry, ?_, (same entry).trans mine, fun given => kept entry (handle given)⟩
    simp [modify, here, found]
  · refine ⟨entry, ?_, mine, handle⟩
    simp [modify, here, found]

theorem handle_modify (id : Nat) {f : UdpNatEntry → UdpNatEntry}
    (same : ∀ e, (f e).forwardTask = e.forwardTask) : (nat.modify id f).handle = nat.handle := by
  funext other
  simp only [handle, modify, List.getElem?_modify]
  cases nat.entries[other]? with
  | none => rfl
  | some entry => by_cases here : id = other <;> simp [here, same]

theorem grows_markActive (id now : Nat) : nat.Grows (nat.markActive id now) :=
  grows_modify id (fun _ => rfl) (fun _ given => given)

theorem grows_stop (id : Nat) : nat.Grows (nat.stop id) :=
  grows_modify id (fun _ => rfl) (fun _ given => given)

theorem handle_markActive (id now : Nat) : (nat.markActive id now).handle = nat.handle :=
  handle_modify id fun _ => rfl

theorem handle_stop (id : Nat) : (nat.stop id).handle = nat.handle := handle_modify id fun _ => rfl

theorem Ok.grow (ok : nat.Ok) (grows : nat.Grows nat')
    (fewer : ∀ client id, nat'.natTable.lookup client = some id →
      nat.natTable.lookup client = some id) : nat'.Ok :=
  fun client id found => grows id client false (ok client id (fewer client id found))

theorem clean_cases (nat : UdpNat) (now : Nat) (client : SocketAddr) :
    nat.clean now client = nat ∨
      ∃ id, nat.clean now client = { nat with natTable := nat.natTable.erase client }.stop id := by
  unfold clean
  split
  · exact .inl rfl
  · split
    · exact .inl rfl
    · split
      · exact .inl rfl
      · exact .inr ⟨_, rfl⟩

theorem grows_clean (now : Nat) (client : SocketAddr) : nat.Grows (nat.clean now client) := by
  obtain same | ⟨id, removed⟩ := clean_cases nat now client
  · rw [same]
    exact .refl nat
  · rw [removed]
    exact fun other owner started knows => grows_stop id other owner started knows

theorem Ok.clean (ok : nat.Ok) (now : Nat) (client : SocketAddr) : (nat.clean now client).Ok := by
  refine ok.grow (grows_clean now client) fun other id found => ?_
  obtain same | ⟨_, removed⟩ := clean_cases nat now client
  · rwa [same] at found
  · rw [removed] at found
    exact lookup_erase_origin found

/-- The entry that a call opens. -/
theorem knows_append {entry : UdpNatEntry} {table : AList fun _ : SocketAddr => Nat} :
    nat.Grows { nat with natTable := table, entries := nat.entries ++ [entry] } ∧
      Knows { nat with natTable := table, entries := nat.entries ++ [entry] }
        nat.entries.length entry.srcSocket false := by
  refine ⟨?_, entry, List.getElem?_concat_length, rfl, nofun⟩
  rintro id client started ⟨old, found, mine, handle⟩
  exact ⟨old, List.getElem?_append_left (List.getElem?_eq_some_iff.mp found).1 ▸ found,
    mine, handle⟩

end UdpNat

/-- What an operation of a call does: the entries keep what tasks know of them, and the call and
the task that it starts know what they rely on. -/
theorem CallPhase.operate_ok {nat : UdpNat} (ok : nat.Ok) {datagram : ClientDatagram}
    {phase : CallPhase} (asserts : (UdpTask.call datagram phase).Asserts nat) (env : CallEnv)
    {nat' : UdpNat} {phase' : CallPhase} {started : Option ForwardTask}
    (done : phase.operate nat datagram env = (nat', phase', started)) :
    nat'.Ok ∧ nat.Grows nat' ∧ (UdpTask.call datagram phase').Asserts nat' ∧
      ∀ task ∈ started, (UdpTask.forward task).Asserts nat' := by
  cases phase with
  | lookup =>
    simp only [operate] at done
    split at done
    · rename_i id found
      cases done
      exact ⟨ok, .refl nat, ok datagram.src id found, nofun⟩
    · split at done
      · cases done
        obtain ⟨grows, knows⟩ := UdpNat.knows_append
        refine ⟨fun client id found => ?_, grows, knows, nofun⟩
        obtain old | ⟨rfl, rfl⟩ := lookup_insert_origin found
        · exact grows id client false (ok client id old)
        · exact knows
      · cases done
        exact ⟨ok, .refl nat, trivial, nofun⟩
  | check id =>
    simp only [operate] at done
    obtain ⟨entry, found, mine, -⟩ := asserts
    split_ifs at done with handle
    · cases done
      rw [UdpNat.handle, found] at handle
      exact ⟨ok, .refl nat, ⟨entry, found, mine, fun _ => handle⟩, nofun⟩
    · cases done
      exact ⟨ok, .refl nat, ⟨entry, found, mine, nofun⟩, nofun⟩
  | spawn id =>
    simp only [operate] at done
    split at done
    · cases done
      exact ⟨ok, .refl nat, trivial, nofun⟩
    · cases done
      have grows : nat.Grows (nat.modify id fun e => { e with forwardTask := true }) :=
        UdpNat.grows_modify id (fun _ => rfl) (fun _ _ => rfl)
      obtain ⟨entry, found, mine, -⟩ := asserts
      have knows : (nat.modify id fun e => { e with forwardTask := true }).Knows id
          datagram.src true :=
        ⟨{ entry with forwardTask := true }, by simp [UdpNat.modify, found], mine, fun _ => rfl⟩
      refine ⟨ok.grow grows fun _ _ found => found, grows, knows, fun task new => ?_⟩
      cases new
      exact knows
  | mark id started =>
    cases done
    have grows := @UdpNat.grows_markActive nat id env.now
    exact ⟨ok.grow grows fun _ _ found => found, grows, grows _ _ _ asserts, nofun⟩
  | send id started =>
    cases done
    exact ⟨ok, fun _ _ _ knows => knows, trivial, nofun⟩
  | done =>
    cases done
    exact ⟨ok, .refl nat, trivial, nofun⟩

namespace ForwardTask

/-- What one operation may do: it is still the task of the same datagram for the same entry, and
the table and the handles are left alone. -/
structure Steps (nat : UdpNat) (task : ForwardTask) (after : UdpNat × ForwardTask) : Prop where
  table : after.1.natTable = nat.natTable
  grows : nat.Grows after.1
  entry : after.2.entry = task.entry
  first : after.2.first = task.first
  handle : after.1.handle = nat.handle

variable (nat : UdpNat) (task : ForwardTask)

theorem Steps.refl : task.Steps nat (nat, task) := ⟨rfl, .refl nat, rfl, rfl, rfl⟩

theorem Steps.same {task' : ForwardTask} (entry : task'.entry = task.entry)
    (first : task'.first = task.first) : task.Steps nat (nat, task') :=
  ⟨rfl, .refl nat, entry, first, rfl⟩

theorem sendNext_steps (now : Nat) (result : TrySend) :
    task.Steps nat (task.sendNext nat now result) := by
  have marked := @UdpNat.grows_markActive nat task.entry now
  have handle := @UdpNat.handle_markActive nat task.entry now
  unfold sendNext
  split
  · exact .refl nat task
  · exact .same nat task rfl rfl
  · cases result with
    | sent | full | closed => exact ⟨rfl, marked, rfl, rfl, handle⟩

theorem operate_steps (op : ForwardOp) : task.Steps nat (task.operate nat op) := by
  cases op with
  | check | recvEnds | drained =>
    simp only [operate]
    split
    · exact .same nat task rfl rfl
    · exact .refl nat task
  | receive src =>
    simp only [operate]
    split
    · split <;> exact .same nat task rfl rfl
    · exact .refl nat task
  | forward now result =>
    simp only [operate]
    split
    · exact sendNext_steps nat task now result
    · exact .refl nat task
  | join =>
    simp only [operate]
    split
    · exact ⟨rfl, UdpNat.grows_stop task.entry, rfl, rfl, UdpNat.handle_stop task.entry⟩
    · exact .refl nat task

end ForwardTask

namespace UdpNatPool

/-- The invariant of every run. -/
def Ok (pool : UdpNatPool) : Prop :=
  pool.Sound UdpNat.Ok UdpTask.Asserts fun _ _ => True

variable {nat : UdpNat} {task : UdpTask} {pool : UdpNatPool}

theorem Asserts.grow {nat' : UdpNat} (grows : nat.Grows nat')
    (asserts : task.Asserts nat) : task.Asserts nat' := by
  cases task with
  | call datagram phase =>
    cases phase with
    | lookup | done => trivial
    | check id | spawn id | mark id started | send id started => exact grows _ _ _ asserts
  | forward task => exact grows _ _ _ asserts

theorem Ok.new : new.Ok := Pool.Sound.idle nofun

theorem Ok.turn (ok : pool.Ok) {i : Nat} {before : UdpTask} (here : pool.tasks[i]? = some before)
    (shared : nat.Ok)
    (grows : pool.shared.Grows nat) (own : task.Asserts nat) :
    Ok (pool.turn i nat task) :=
  Pool.Sound.turn ok (fun _ _ _ => trivial) here shared own fun _ _ asserts =>
    ⟨Asserts.grow grows asserts, trivial⟩

theorem Ok.step (ok : pool.Ok) (event : UdpNatEvent) :
    (pool.step event).Ok := by
  cases event with
  | packet datagram =>
    exact Pool.Sound.spawn ok (fun _ _ _ => trivial) ok.shared trivial fun j u found =>
      ⟨ok.each j u found, trivial⟩
  | call i env =>
    simp only [UdpNatPool.step]
    split
    · rename_i datagram phase here
      rcases done : phase.operate pool.shared datagram env with ⟨nat, phase', started⟩
      obtain ⟨shared, grows, own, task⟩ :=
        CallPhase.operate_ok ok.shared (ok.each i _ here) env done
      have turned := ok.turn here shared grows own
      cases started with
      | none => exact turned
      | some new =>
        exact Pool.Sound.spawn turned (fun _ _ _ => trivial) shared (task new rfl)
          fun j u found => ⟨turned.each j u found, trivial⟩
    · exact ok
  | forward i op =>
    simp only [UdpNatPool.step]
    split
    · rename_i task here
      have steps := task.operate_steps pool.shared op
      refine ok.turn here (ok.shared.grow steps.grows ?_) steps.grows ?_
      · rw [steps.table]
        exact fun _ _ found => found
      · have known : pool.shared.Knows task.entry task.first.src true := ok.each i _ here
        rw [← steps.entry, ← steps.first] at known
        exact steps.grows _ _ _ known
    · exact ok
  | clean now client =>
    exact Pool.Sound.change ok (ok.shared.clean now client) fun _ asserts =>
      Asserts.grow (UdpNat.grows_clean now client) asserts

theorem Ok.run (ok : pool.Ok) (events : List UdpNatEvent) :
    (pool.run events).Ok := by
  induction events generalizing pool with
  | nil => exact ok
  | cons event events ih => exact ih (ok.step event)

end UdpNatPool

end PeerLink.Gateway
