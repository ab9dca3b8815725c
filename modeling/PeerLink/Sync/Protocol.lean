import PeerLink.Schedule.Along
import PeerLink.Sync.Handlers

/-!
# Two nodes that sync

`S` sends its route infos to `D` and leaves out what it has saved as known to `D`. A message
that was sent once may be delivered at any time later, any number of times or never, so losses,
retries and reorderings are runs of this system. The tasks of both nodes take turns in any order,
and `D` may restart with an empty state.
-/

namespace PeerLink.Sync

open Route Schedule

/-! ## The system -/

/-- The requests that one node has sent to its partner, and the answers. -/
structure Channel where
  calls : List Call
  answers : List Answer

/-- One of the two nodes, with the requests it has sent and those of its partner. -/
structure Side where
  pool : Pool Host Task
  out : Channel
  back : Channel

inductive Job where
  /-- the updates of the own info and row, `remove_peer`, and what requests of other peers store -/
  | store (updates : List StoreWrite)
  | refresh
  /-- `maintain_sessions` drops, opens and initiates the session -/
  | stop
  | start (randomId : SessionId)
  | initiate (flag : Bool)
  | send (asInitiator : Bool)
  /-- the `k`th request of the partner arrives -/
  | serve (k : Nat) (randomId : SessionId)
  /-- an answer arrives, or the `k`th call fails -/
  | hear (k : Nat)
  | fail (k : Nat)

inductive HostEvent where
  | start (job : Job)
  | turn (i : Nat) (env : Surroundings)

namespace Side

variable (side : Side)

def task : Job → Option Task
  | .store updates => some { todo := updates.map .store }
  | .refresh => some { todo := [.refresh .loadVersion] }
  | .stop => some { todo := [.closeSession] }
  | .start randomId => some { todo := [.openSession randomId] }
  | .initiate flag => side.pool.shared.session.map (.initiate · flag)
  | .send asInitiator => side.pool.shared.session.map (.send · asInitiator)
  | .serve k randomId => side.back.calls[k]?.map (.serve ·.request k randomId)
  | .hear k => do
    let answer ← side.out.answers[k]?
    let call ← side.out.calls[answer.call]?
    some (.hear call answer.response)
  | .fail k => side.out.calls[k]?.map .fail

def deliver : Option Message → Side
  | none => side
  | some (.call call) => { side with out.calls := side.out.calls ++ [call] }
  | some (.answer answer) => { side with back.answers := side.back.answers ++ [answer] }

def step : HostEvent → Option Side
  | .start job => (side.task job).map fun task =>
    { side with pool := side.pool.spawn side.pool.shared task }
  | .turn i env => side.pool.tasks[i]?.map fun task =>
    let result := side.pool.shared.turn task env
    { side with pool := side.pool.turn i result.1 result.2.1 }.deliver result.2.2

end Side

/-- The objects of before are out of reach. -/
def Host.restart (host : Host) (routeId : Nat) : Host :=
  { new host.myPeerId routeId host.partner with objects := host.objects }

structure System where
  s : Pool Host Task
  d : Pool Host Task
  toD : Channel
  toS : Channel
  /-- how many session objects `D` had when it started last -/
  started : Nat

inductive Event where
  | s (event : HostEvent)
  | d (event : HostEvent)
  | dRestarts (routeId : Nat)

namespace System

def init (s d : PeerId) (sRouteId dRouteId : Nat) : System where
  s := ⟨.new s sRouteId d, []⟩
  d := ⟨.new d dRouteId s, []⟩
  toD := ⟨[], []⟩
  toS := ⟨[], []⟩
  started := 0

variable (sys : System)

def sSide : Side := ⟨sys.s, sys.toD, sys.toS⟩

def dSide : Side := ⟨sys.d, sys.toS, sys.toD⟩

def step : Event → Option System
  | .s event => (sys.sSide.step event).map fun side =>
    { sys with s := side.pool, toD := side.out, toS := side.back }
  | .d event => (sys.dSide.step event).map fun side =>
    { sys with d := side.pool, toS := side.out, toD := side.back }
  | .dRestarts routeId =>
    some { sys with
      d := ⟨sys.d.shared.restart routeId, []⟩, started := sys.d.shared.objects.length }

end System

/-! ## When the handlers do not get in each other's way -/

/-- A save goes to a session that still records the id that the task found or stored there, and
a request carries no older infos than its sender notes down. -/
def Host.orderly (host : Host) (task : Task) : Bool :=
  match task.todo with
  | .session change :: _ =>
    change.item.isNone || (host.object task.session).all (·.dstSessionId = task.id)
  | .build .encode :: _ => host.SendsFresh task.draft
  | _ => true

/-- This holds of the tasks of `S`. `D` never draws an id twice and expires no peer, and its own
versions do not wrap. -/
def System.orderly (sys : System) : Event → Bool
  | .s (.turn i _) => sys.s.tasks[i]?.all sys.s.shared.orderly
  | .d (.turn i _) => sys.d.tasks[i]?.all sys.d.shared.steady
  | _ => true

/-! ## New tasks -/

/-- What a task that starts is about to do: it stores what it owes to the call that it serves,
and saves what a request of the partner announced or an acknowledged call had chosen. -/
structure Side.Begun (side : Side) (task : Task) : Prop where
  draft : task.draft = ⟨none, none, none⟩
  refresh : ∀ stage, .refresh stage ∈ task.todo → stage = .loadVersion
  serving : ∀ k, task.serving = some k → ∃ call, side.back.calls[k]? = some call ∧
    ∀ item ∈ call.request.items, ∃ update, .store update ∈ task.todo ∧ update.item = some item
  saves : ∀ change item, .session change ∈ task.todo → change.item = some item →
    (∃ call ∈ side.back.calls, task.id = call.request.mySessionId ∧ item ∈ call.request.items) ∨
      ∃ answer ∈ side.out.answers, ∃ call, side.out.calls[answer.call]? = some call ∧
        answer.response.error = none ∧ task.id = answer.response.sessionId ∧
        item ∈ call.draft.items

section
variable {item : Item} {request : SyncRouteInfoRequest} {k : Nat} {randomId : SessionId}
  {call : Call} {response : SyncRouteInfoResponse}

theorem serve_actions :
    (∀ change item, .session change ∈ (Task.serve request k randomId).todo →
      change.item = some item → item ∈ request.items) ∧
      ∀ stage, .refresh stage ∈ (Task.serve request k randomId).todo → stage = .loadVersion := by
  simp only [SyncRouteInfoRequest.items, mem_announced]
  obtain ⟨me, id, isInitiator, infos, rows, items⟩ := request
  cases infos <;> cases rows <;> cases items <;>
    simp [Task.serve, Task.takePeerInfos, Task.takeConnBitmap, Task.takeForeignNetwork] <;>
    grind [SessionWrite.item]

theorem serve_updates (mem : item ∈ request.items) :
    ∃ update, .store update ∈ (Task.serve request k randomId).todo ∧
      update.item = some item := by
  obtain ⟨me, id, isInitiator, infos, rows, items⟩ := request
  obtain ⟨info, listed, rfl⟩ | ⟨row, listed, rfl⟩ := mem_announced.mp mem
  · cases infos with
    | none => cases listed
    | some raws =>
      obtain ⟨raw, there, rfl⟩ := List.mem_map.mp listed
      exact ⟨.info me raw, by grind [Task.serve, Task.takePeerInfos], rfl⟩
  · cases rows with
    | none => cases listed
    | some rows =>
      obtain ⟨idx, there⟩ := List.mem_iff_getElem?.mp listed
      have indexed := List.mk_mem_zipIdx_iff_getElem?.mpr there
      exact ⟨.row rows (row, idx), by grind [Task.serve, Task.takeConnBitmap], rfl⟩

theorem hear_actions :
    (∀ change item, .session change ∈ (Task.hear call response).todo → change.item = some item →
      response.error = none ∧ item ∈ call.draft.items) ∧
      ∀ stage, .refresh stage ∉ (Task.hear call response).todo := by
  simp only [Draft.items, mem_announced, Task.hear]
  split
  · grind [SessionWrite.item]
  · simp
  · simp +contextual [SessionWrite.item]

variable {side : Side} {task : Task} {job : Job}

theorem Side.task_begun (started : side.task job = some task) : side.Begun task := by
  cases job with
  | store updates | refresh | stop | start randomId =>
    cases started
    exact ⟨rfl, by simp, by simp, by simp⟩
  | initiate flag | send flag | fail k =>
    obtain ⟨_, -, rfl⟩ := Option.map_eq_some_iff.mp started
    refine ⟨rfl, by simp [Task.initiate, Task.send, Task.fail], by rintro _ ⟨⟩, ?_⟩
    simp +contextual [Task.initiate, Task.send, Task.fail, or_imp, SessionWrite.item]
  | serve k randomId =>
    obtain ⟨call, found, rfl⟩ := Option.map_eq_some_iff.mp started
    refine ⟨rfl, serve_actions.2, ?_, fun change item mem saves => .inl ?_⟩
    · rintro _ ⟨⟩
      exact ⟨call, found, fun _ => serve_updates⟩
    · exact ⟨call, List.mem_of_getElem? found, rfl, serve_actions.1 change item mem saves⟩
  | hear k =>
    obtain ⟨answer, given, started⟩ := Option.bind_eq_some_iff.mp started
    obtain ⟨call, found, started⟩ := Option.bind_eq_some_iff.mp started
    cases started
    refine ⟨rfl, fun stage mem => absurd mem (hear_actions.2 stage), by rintro _ ⟨⟩,
      fun change item mem saves => .inr ?_⟩
    obtain ⟨ok, listed⟩ := hear_actions.1 change item mem saves
    exact ⟨answer, List.mem_of_getElem? given, call, found, ok, rfl, listed⟩

end

/-! ## The invariant -/

/-- The items that may be saved while a session records a given id. -/
abbrev Ledger := SessionId → Item → Prop

/-- Under an id of its present life, `D` stores what may be saved. Ids of an earlier life will
not come back, and under an id it never used nothing is saved. -/
def System.ledger (sys : System) : Ledger := fun id item =>
  id ∈ sys.d.shared.ids ∧
    (id ∈ sys.d.shared.ids.drop sys.started → item.HeldBy sys.d.shared.syncedRouteInfo)

/-- What a task of `S` saves is allowed. -/
def Task.Allowed (L : Ledger) (task : Task) : Prop :=
  ∀ change item, .session change ∈ task.todo → change.item = some item → L task.id item

structure SSound (L : Ledger) (pool : Pool Host Task) : Prop where
  tasks : ∀ task ∈ pool.tasks, task.Allowed L
  objects : ∀ (k : Nat) session, pool.shared.objects[k]? = some session → ∀ item,
    session.Saved item → L session.dstSessionId item ∨
      ∃ task ∈ pool.tasks, task.session = some k ∧ task.clears item = true

/-- A task of `D` backs what it announces, and owes to a call what its request announced. -/
def Task.Answers (calls : List Call) (s : SyncedRouteInfo) (task : Task) : Prop :=
  ∃ owed, task.Backed s owed ∧ ∀ k, task.serving = some k →
    ∃ call, calls[k]? = some call ∧ call.request.items = owed

structure DSound (calls : List Call) (started : Nat) (pool : Pool Host Task) : Prop where
  begun : started ≤ pool.shared.ids.length
  session : ∀ k, pool.shared.session = some k → started ≤ k
  stocked : pool.shared.Stocked
  tasks : ∀ task ∈ pool.tasks, task.Answers calls pool.shared.syncedRouteInfo

/-- Whoever holds what the call announces holds what its sender will save. -/
def Call.Covers (call : Call) : Prop := ∀ s : SyncedRouteInfo,
  (∀ item ∈ call.request.items, item.HeldBy s) → ∀ item ∈ call.draft.items, item.HeldBy s

structure Invariant (sys : System) : Prop where
  s : SSound sys.ledger sys.s
  d : DSound sys.toD.calls sys.started sys.d
  toD : ∀ call ∈ sys.toD.calls, call.Covers
  answers : ∀ answer ∈ sys.toD.answers, answer.response.error = none →
    ∃ call, sys.toD.calls[answer.call]? = some call ∧
      ∀ item ∈ call.draft.items, sys.ledger answer.response.sessionId item
  toS : ∀ call ∈ sys.toS.calls, ∀ item ∈ call.request.items,
    sys.ledger call.request.mySessionId item

section
variable {L L' : Ledger} {pool : Pool Host Task} {task : Task} {i started : Nat}
  {sys sys' : System}

theorem getElem?_append_some {α : Type} {l more : List α} {k : Nat} {a : α}
    (found : l[k]? = some a) : (l ++ more)[k]? = some a :=
  (List.getElem?_append_left (List.getElem?_eq_some_iff.mp found).1).trans found

/-! ### Steps of `S` -/

theorem SSound.mono (sound : SSound L pool) (le : ∀ id item, L id item → L' id item) :
    SSound L' pool where
  tasks task mem change item here saves := le _ _ (sound.tasks task mem change item here saves)
  objects k session found item saved :=
    (sound.objects k session found item saved).imp_left (le _ _)

theorem SSound.turn (sound : SSound L pool) (here : pool.tasks[i]? = some task)
    (orderly : pool.shared.orderly task = true) (env : Surroundings) :
    let result := pool.shared.turn task env
    SSound L (pool.turn i result.1 result.2.1) := by
  intro result
  have allowed := sound.tasks task (List.mem_of_getElem? here)
  obtain ⟨id, -, todo⟩ := pool.shared.turn_task task env
  refine ⟨fun other mem => ?_, fun k session' found item saved => ?_⟩
  · obtain before | rfl := List.mem_or_eq_of_mem_set mem
    · exact sound.tasks other before
    · intro change item mem saves
      rw [id]
      obtain old | extra := todo _ mem
      · exact allowed change item old saves
      · simp [Action.isExtra, saves] at extra
  · have stays {session : SyncRouteSession} (before : pool.shared.objects[k]? = some session)
        (old : session.Saved item) (idle : task.session = some k → task.clears item = false) :
        L session.dstSessionId item ∨ ∃ other ∈ (pool.turn i result.1 result.2.1).tasks,
          other.session = some k ∧ other.clears item = true := by
      refine (sound.objects k session before item old).imp_right ?_
      rintro ⟨other, mem, there, clears⟩
      refine ⟨other, Pool.mem_turn here mem ?_, there, clears⟩
      rintro rfl
      exact absurd clears (by simp [idle there])
    change result.1.objects[k]? = some session' at found
    obtain ⟨randomId, rest, left, opened⟩ | ⟨change, rest, left, written⟩ | ⟨same, -, idle⟩ :=
      pool.shared.turn_objects task env
    · have origin : pool.shared.objects[k]? = some session' ∨
          session' = .new pool.shared.myPeerId pool.shared.partner randomId := by
        grind [Host.addSession]
      obtain before | rfl := origin
      · exact stays before saved fun _ => by rw [Task.clears, left]
      · exact absurd saved (new_not_saved _ _ _)
    · rw [written] at found
      obtain ⟨session, before, ⟨other, rfl⟩ | ⟨mine, rfl⟩⟩ := Host.modify_object found
      · exact stays before saved fun mine => absurd mine other
      · obtain later | ⟨same, idle, old | saves⟩ := SessionWrite.saved saved
        · obtain ⟨kept, clears⟩ := pool.shared.turn_next task env left later
          exact .inr ⟨_, List.mem_of_getElem? (Pool.turn_self here), kept.trans mine, clears⟩
        · rw [same]
          exact stays before old fun _ => by rwa [Task.clears, left]
        · -- the session still records the id of the task
          simp only [Host.orderly, left, saves, Host.object, mine, Option.bind_some, before,
            Option.isNone_some, Bool.false_or, Option.all_some, decide_eq_true_eq] at orderly
          rw [same, orderly]
          exact .inl (allowed change item (left ▸ List.mem_cons_self) saves)
    · exact stays (same ▸ found) saved fun _ => idle item

theorem Invariant.sStart (inv : Invariant sys) (begun : sys.sSide.Begun task) :
    Invariant { sys with s := sys.s.spawn sys.s.shared task } := by
  refine { inv with
    s := {
      tasks := List.forall_mem_append.mpr ⟨inv.s.tasks, List.forall_mem_singleton.mpr ?_⟩
      objects := fun k session found item saved => ?_ } }
  · intro change item mem saves
    obtain ⟨call, sent, same, listed⟩ | ⟨answer, given, call, found, ok, same, listed⟩ :=
      begun.saves change item mem saves
    · exact same ▸ inv.toS call sent item listed
    · obtain ⟨call', found', allowed⟩ := inv.answers answer given ok
      cases found.symm.trans found'
      exact same ▸ allowed item listed
  · refine (inv.s.objects k session found item saved).imp_right ?_
    rintro ⟨other, mem, clears⟩
    exact ⟨other, List.mem_append_left _ mem, clears⟩

theorem Invariant.sTurn (inv : Invariant sys) (here : sys.s.tasks[i]? = some task)
    (orderly : sys.s.shared.orderly task = true) (env : Surroundings) :
    let result := sys.s.shared.turn task env
    let side := (Side.mk (sys.s.turn i result.1 result.2.1) sys.toD sys.toS).deliver result.2.2
    Invariant { sys with s := side.pool, toD := side.out, toS := side.back } := by
  have sound := inv.s.turn here orderly env
  have sends := sys.s.shared.turn_sends task env
  generalize sys.s.shared.turn task env = result at *
  obtain ⟨host', task', message⟩ := result
  have moved : Invariant { sys with s := sys.s.turn i host' task' } := { inv with s := sound }
  match message, sends with
  | none, _ => exact moved
  | some (.answer _), _ => exact { moved with }
  | some (.call _), ⟨⟨todo, left⟩, session, found, rfl⟩ =>
    refine { moved with
      d := { moved.d with tasks := fun task mem => ?_ }
      toD := List.forall_mem_append.mpr ⟨moved.toD, List.forall_mem_singleton.mpr ?_⟩
      answers := fun answer mem ok => ?_ }
    · obtain ⟨owed, backed, serving⟩ := moved.d.tasks task mem
      refine ⟨owed, backed, fun k served => ?_⟩
      obtain ⟨call, found, owes⟩ := serving k served
      exact ⟨call, getElem?_append_some found, owes⟩
    · simp only [Host.orderly, left, decide_eq_true_eq] at orderly
      exact fun _ => orderly.covers
    · obtain ⟨call, found, allowed⟩ := moved.answers answer mem ok
      exact ⟨call, getElem?_append_some found, allowed⟩

/-! ### Steps of `D` -/

/-- A turn draws at most the id at hand, for a new object. -/
theorem Host.turn_ids (host : Host) (task : Task) (env : Surroundings) :
    let host' := (host.turn task env).1
    ∃ more, host'.ids = host.ids ++ more ∧
      (∀ id ∈ more, ∃ todo, task.todo = .openSession id :: todo) ∧
      ∀ k, host'.session = some k → host.session = some k ∨ k = host.ids.length := by
  intro host'
  obtain ⟨drawn, rest, left, opened⟩ | ⟨change, rest, left, written⟩ | ⟨same, session, -⟩ :=
    host.turn_objects task env
  · refine ⟨[drawn], (congrArg ids opened).trans List.map_append, by simp [left], fun k now => ?_⟩
    cases (congrArg Host.session opened).symm.trans now
    exact .inr (List.length_map _).symm
  · refine ⟨[], (congrArg ids written).trans ?_, nofun, fun k now => .inl ?_⟩
    · exact (modify_ids change.apply_id).trans (List.append_nil _).symm
    · exact (congrArg Host.session written).symm.trans now
  · exact ⟨[], (congrArg (List.map _) same).trans (List.append_nil _).symm, nofun,
      fun k now => .inl (session k now)⟩

section
variable (inv : Invariant sys)
include inv

/-- `D` may draw an id that it has not used, and its store only grows; or it restarts. -/
theorem Invariant.dPool (sound : DSound sys.toD.calls started pool)
    (ids : ∀ id ∈ sys.d.shared.ids, id ∈ pool.shared.ids)
    (live : ∀ id ∈ sys.d.shared.ids, id ∈ pool.shared.ids.drop started →
      id ∈ sys.d.shared.ids.drop sys.started ∧
        sys.d.shared.syncedRouteInfo.Le pool.shared.syncedRouteInfo) :
    Invariant { sys with d := pool, started := started } := by
  have grows id item (allowed : sys.ledger id item) :
      System.ledger { sys with d := pool, started := started } id item := by
    refine ⟨ids id allowed.1, fun now => ?_⟩
    obtain ⟨before, le⟩ := live id allowed.1 now
    exact (allowed.2 before).mono le
  exact {
    s := inv.s.mono grows
    d := sound
    toD := inv.toD
    answers := fun answer mem ok => by
      obtain ⟨call, found, allowed⟩ := inv.answers answer mem ok
      exact ⟨call, found, fun item here => grows _ _ (allowed item here)⟩
    toS := fun call mem item here => grows _ _ (inv.toS call mem item here) }

theorem Invariant.dStart (begun : sys.dSide.Begun task) :
    Invariant { sys with d := sys.d.spawn sys.d.shared task } := by
  refine inv.dPool { inv.d with
    tasks := List.forall_mem_append.mpr ⟨inv.d.tasks, List.forall_mem_singleton.mpr ?_⟩ }
    (fun _ => id) fun _ _ now => ⟨now, .refl _⟩
  have draft item (mem : item ∈ task.draft.items) :
      item.HeldBy sys.d.shared.syncedRouteInfo := by
    rw [begun.draft] at mem
    cases mem
  have rows stage (mem : .refresh stage ∈ task.todo) (row : PeerId × Version)
      (read : row ∈ stage.rows) :
      sys.d.shared.syncedRouteInfo.HasConn row.1 row.2 := by
    rw [begun.refresh stage mem] at read
    cases read
  cases served : task.serving with
  | none => exact ⟨[], ⟨draft, rows, nofun⟩, by simp [served]⟩
  | some k =>
    obtain ⟨call, found, stores⟩ := begun.serving k served
    refine ⟨_, ⟨draft, rows, fun _ item mem => .inr (stores item mem)⟩, fun j same => ?_⟩
    cases served.symm.trans same
    exact ⟨call, found, rfl⟩

variable (here : sys.d.tasks[i]? = some task) (steady : sys.d.shared.steady task = true)
  (env : Surroundings)
include here steady

theorem Invariant.dMoves :
    let result := sys.d.shared.turn task env
    Invariant { sys with d := sys.d.turn i result.1 result.2.1 } := by
  intro result
  obtain ⟨owed, backed, serving⟩ := inv.d.tasks task (List.mem_of_getElem? here)
  obtain ⟨le, stocked, backed⟩ := Host.turn_backed env inv.d.stocked backed steady
  obtain ⟨-, serves, -⟩ := sys.d.shared.turn_task task env
  obtain ⟨more, ids, drawn, session⟩ := sys.d.shared.turn_ids task env
  refine inv.dPool ⟨?_, fun k found => ?_, stocked, fun other mem => ?_⟩
    (fun id mem => ids ▸ List.mem_append_left _ mem) fun id old now => ?_
  · exact inv.d.begun.trans (ids ▸ List.length_append.ge.trans' (Nat.le_add_right _ _))
  · obtain before | rfl := session k found
    · exact inv.d.session k before
    · exact inv.d.begun
  · obtain before | rfl := List.mem_or_eq_of_mem_set mem
    · obtain ⟨owed, backed, serving⟩ := inv.d.tasks other before
      exact ⟨owed, backed.mono le, serving⟩
    · refine ⟨owed, backed, fun k served => serving k ?_⟩
      obtain none | same := serves
      · cases none.symm.trans served
      · exact same ▸ served
  · change id ∈ result.1.ids.drop sys.started at now
    rw [ids, List.drop_append] at now
    obtain before | new := List.mem_append.mp now
    · exact ⟨before, le⟩
    · obtain ⟨todo, left⟩ := drawn id (List.mem_of_mem_drop new)
      simp [Host.steady, left, old] at steady

theorem Invariant.dTurn :
    let result := sys.d.shared.turn task env
    let side := (Side.mk (sys.d.turn i result.1 result.2.1) sys.toS sys.toD).deliver result.2.2
    Invariant { sys with d := side.pool, toS := side.out, toD := side.back } := by
  have moved := inv.dMoves here steady env
  have sends := sys.d.shared.turn_sends task env
  obtain ⟨owed, backed, serving⟩ := inv.d.tasks task (List.mem_of_getElem? here)
  obtain ⟨le, -⟩ := Host.turn_backed env inv.d.stocked backed steady
  obtain ⟨more, ids, -⟩ := sys.d.shared.turn_ids task env
  generalize sys.d.shared.turn task env = result at *
  obtain ⟨host', task', message⟩ := result
  have stored {session : SyncRouteSession} {item : Item}
      (found : sys.d.shared.object task.session = some session)
      (held : item.HeldBy sys.d.shared.syncedRouteInfo) :
      System.ledger { sys with d := sys.d.turn i host' task' } session.mySessionId item := by
    obtain ⟨k, -, there⟩ := Option.bind_eq_some_iff.mp found
    refine ⟨?_, fun _ => held.mono le⟩
    exact ids ▸ List.mem_append_left _ (List.mem_map_of_mem (List.mem_of_getElem? there))
  match message, sends with
  | none, _ => exact moved
  | some (.call _), ⟨_, session, found, rfl⟩ =>
    exact { moved with
      toS := List.forall_mem_append.mpr ⟨moved.toS, List.forall_mem_singleton.mpr fun item mem =>
        stored found (Host.request_held inv.d.stocked backed.draft item mem)⟩ }
  | some (.answer answer), ⟨served, ended⟩ =>
    refine { moved with
      answers := List.forall_mem_append.mpr ⟨moved.answers, List.forall_mem_singleton.mpr ?_⟩ }
    intro ok
    obtain ⟨done, session, found, same⟩ := ended ok
    obtain ⟨call, sent, rfl⟩ := serving answer.call served
    rw [same]
    refine ⟨call, sent, fun item mem => stored found
      (inv.toD call (List.mem_of_getElem? sent) _ (fun item mem => ?_) item mem)⟩
    -- the task is at its end, so all that it owes is stored
    obtain held | ⟨update, left, -⟩ := backed.owed (served ▸ rfl) item mem
    · exact held
    · rw [done] at left
      cases left

end

/-! ### All steps -/

theorem DSound.restart (calls : List Call) (host : Host) (routeId : Nat) :
    DSound calls host.objects.length ⟨host.restart routeId, []⟩ where
  begun := (List.length_map _).ge
  session := nofun
  stocked := ⟨SyncedRouteInfo.new_filed, nofun⟩
  tasks := nofun

theorem Invariant.init (s d : PeerId) (sRouteId dRouteId : Nat) :
    Invariant (.init s d sRouteId dRouteId) where
  s := ⟨nofun, fun _ _ found => nomatch List.getElem?_nil.symm.trans found⟩
  d := .restart [] (.new d dRouteId s) dRouteId
  toD := nofun
  answers := nofun
  toS := nofun

theorem Invariant.step (inv : Invariant sys) {event : Event}
    (orderly : sys.orderly event = true) (stepped : sys.step event = some sys') :
    Invariant sys' := by
  match event with
  | .s (.start job) =>
    obtain ⟨side, moved, rfl⟩ := Option.map_eq_some_iff.mp stepped
    obtain ⟨task, started, rfl⟩ := Option.map_eq_some_iff.mp moved
    exact inv.sStart (Side.task_begun started)
  | .s (.turn i env) =>
    obtain ⟨side, moved, rfl⟩ := Option.map_eq_some_iff.mp stepped
    obtain ⟨task, here, rfl⟩ := Option.map_eq_some_iff.mp moved
    change sys.s.tasks[i]? = some task at here
    rw [System.orderly, here] at orderly
    exact inv.sTurn here orderly env
  | .d (.start job) =>
    obtain ⟨side, moved, rfl⟩ := Option.map_eq_some_iff.mp stepped
    obtain ⟨task, started, rfl⟩ := Option.map_eq_some_iff.mp moved
    exact inv.dStart (Side.task_begun started)
  | .d (.turn i env) =>
    obtain ⟨side, moved, rfl⟩ := Option.map_eq_some_iff.mp stepped
    obtain ⟨task, here, rfl⟩ := Option.map_eq_some_iff.mp moved
    change sys.d.tasks[i]? = some task at here
    rw [System.orderly, here] at orderly
    exact inv.dTurn here orderly env
  | .dRestarts routeId =>
    cases stepped
    exact inv.dPool (.restart _ _ routeId) (fun _ => id) fun id _ now => by
      cases List.drop_of_length_le (List.length_map _).le ▸ now

end

/-! ## Suppression -/

/-- The session object in the map. -/
def Host.current (host : Host) : Option SyncRouteSession := host.object host.session

/-- The task is between storing a new id and clearing what is saved. -/
def Task.isClearing (task : Task) : Bool :=
  match task.todo with
  | .session .clearRows :: _ | .session .clearInfos :: _ => true
  | _ => false

def System.Settled (sys : System) : Prop := ∀ task ∈ sys.s.tasks, task.isClearing = false
  deriving Decidable

/-- Every version that `S` has saved for `D` is stored at `D`, or a newer one. So an info that `S`
leaves out is a placeholder, the info of `D` itself, or held by `D`; and when `S` sends no rows,
`D` holds every one of them. -/
structure System.Safe (sys : System) (session : SyncRouteSession) : Prop where
  saved : ∀ item, session.Saved item → item.HeldBy sys.d.shared.syncedRouteInfo
  infos : ∀ p version, session.checkSavedPeerInfoUpdateToDate p version = true →
    version = 0 ∨ p = session.dstPeerId ∨ sys.d.shared.syncedRouteInfo.HasPeer p version
  rows : sys.s.shared.buildConnBitmap session = none →
    ∀ row ∈ sys.s.shared.cachedLocalConnMap.peerIds,
      sys.d.shared.syncedRouteInfo.HasConn row.1 row.2

section
variable {sys : System} {session dSession : SyncRouteSession}

theorem System.Safe.of_saved
    (saved : ∀ item, session.Saved item → item.HeldBy sys.d.shared.syncedRouteInfo) :
    sys.Safe session := by
  refine ⟨saved, fun p version suppressed => ?_, fun none row mem => ?_⟩
  · unfold SyncRouteSession.checkSavedPeerInfoUpdateToDate at suppressed
    split_ifs at suppressed with exempt
    · exact exempt.imp_right .inl
    · split at suppressed
      · rename_i noted found
        obtain ⟨info, stored, le⟩ := saved (.info p noted) found
        exact .inr (.inr ⟨info, stored, (of_decide_eq_true suppressed).trans le⟩)
      · cases suppressed
  · obtain ⟨noted, found, le⟩ := Node.buildConnBitmap_none none mem
    obtain ⟨stored, held, le'⟩ := saved (.row _ noted) found
    exact ⟨stored, held, le.trans le'⟩

theorem Invariant.safe (inv : Invariant sys) (settled : sys.Settled)
    (found : session ∈ sys.s.shared.current) (dFound : dSession ∈ sys.d.shared.current)
    (current : session.dstSessionId = dSession.mySessionId) : sys.Safe session := by
  obtain ⟨k, -, found⟩ := Option.bind_eq_some_iff.mp found
  obtain ⟨j, dListed, dFound⟩ := Option.bind_eq_some_iff.mp dFound
  refine .of_saved fun item saved => ?_
  obtain ⟨-, live⟩ | ⟨task, mem, -, clears⟩ := inv.s.objects k session found item saved
  · apply live
    rw [current, List.mem_iff_getElem?]
    refine ⟨j - sys.started, ?_⟩
    rw [List.getElem?_drop, Nat.add_sub_cancel' (inv.d.session j dListed), Host.ids,
      List.getElem?_map, dFound, Option.map_some]
  · have idle := settled task mem
    unfold Task.clears at clears
    split at clears
    · rename_i change rest left
      cases change <;> simp_all [Task.isClearing, SessionWrite.clears]
    · cases clears

end

/-! ## A sync, and an answer that is heard late -/

section Runs

def meshed : Surroundings where
  orders := ⟨.stored _, .stored _, .stored _⟩
  reachable _ := true

def turns (side : HostEvent → Event) (i n : Nat) : List Event :=
  List.replicate n (side (.turn i meshed))

/-- Task `i` starts and takes `n` turns. -/
def runs (side : HostEvent → Event) (i : Nat) (job : Job) (n : Nat) : List Event :=
  side (.start job) :: turns side i n

def firstOwn : Job := .store [.myInfo ⟨⟨false⟩, none, none, [], []⟩ false]

/-- `D` greets `S` under an id. -/
def greets (randomId : SessionId) : List Event :=
  runs .d 0 firstOwn 1 ++ runs .d 1 (.start randomId) 1 ++ runs .d 2 (.send false) 6

/-- `S` serves the greeting and sends its info, and `D` stores it and answers. -/
def answered : List Event :=
  greets 7 ++ runs .s 0 (.serve 0 5) 14 ++ runs .s 1 firstOwn 1 ++ runs .s 2 (.send false) 6 ++
    runs .d 3 (.serve 0 9) 14

def heard : List Event := answered ++ runs .s 3 (.hear 0) 3

/-- `D` restarts and greets `S` again. The task that hears the old answer compares the ids
before the new one is stored, and saves after the clears. -/
def heardLate : List Event :=
  answered ++ .dRestarts 21 :: greets 8 ++ runs .s 3 (.hear 0) 2 ++ runs .s 4 (.serve 1 6) 5 ++
    turns .s 3 1 ++ turns .s 4 9

end Runs

end PeerLink.Sync
