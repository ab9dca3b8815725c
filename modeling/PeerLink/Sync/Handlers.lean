import PeerLink.Schedule.Pool
import PeerLink.Sync.Node

/-!
# The tasks of a node

Of the sessions of a node, this is the one with a partner; the sessions with other peers come
in by what they write to the store. One task serves a request (`do_sync_route_info`), another
sends requests and takes in the answers (`sync_route_with_peer`). The tasks share the store and
the session objects, with no lock that spans two statements. So every write to an object is a
step of its own, and so is each iteration of a loop that stores, with the placeholders that it
fills in; a pass that only reads is one step. A task keeps the session object that it got, also
when the object has left the map.
-/

namespace PeerLink.Sync

open Route

/-! ## What is announced -/

/-- A version of a peer's info or of its connection row. -/
inductive Item where
  | info (p : PeerId) (version : Version)
  | row (p : PeerId) (version : Version)

/-- The item is stored, at its version or a later one. -/
def Item.HeldBy (s : SyncedRouteInfo) : Item → Prop
  | info p version => s.HasPeer p version
  | row p version => s.HasConn p version

theorem Item.HeldBy.mono {s s' : SyncedRouteInfo} {item : Item} (held : item.HeldBy s)
    (le : s.Le s') : item.HeldBy s' := by
  cases item with
  | info p version => exact le.peers p version held
  | row p version => exact le.conns p version held

def announced (infos : List RoutePeerInfo) (rows : List (PeerId × Version)) : List Item :=
  infos.map (fun info => .info info.peerId info.version) ++ rows.map fun row => .row row.1 row.2

theorem mem_announced {infos : List RoutePeerInfo} {rows : List (PeerId × Version)} {item : Item} :
    item ∈ announced infos rows ↔ (∃ info ∈ infos, item = .info info.peerId info.version) ∨
      ∃ row ∈ rows, item = .row row.1 row.2 := by
  simp [announced, eq_comm]

/-- What a sender has chosen to send, and saves when the request is answered. -/
structure Draft where
  peerInfos : Option (List RoutePeerInfo)
  connBitmap : Option RouteConnBitmap
  foreignNetwork : Option (List ForeignNetworkInfo)

def Draft.items (draft : Draft) : List Item :=
  announced (draft.peerInfos.getD []) (draft.connBitmap.getD .new).peerIds

def SyncRouteInfoRequest.items (request : SyncRouteInfoRequest) : List Item :=
  announced ((request.peerInfos.getD []).map (·.known)) (request.connBitmap.getD .new).peerIds

structure Call where
  /-- the session object of the sender -/
  session : Option Nat
  request : SyncRouteInfoRequest
  draft : Draft

/-- An answer to the call at a position among those of its sender. -/
structure Answer where
  call : Nat
  response : SyncRouteInfoResponse

inductive Message where
  | call (call : Call)
  | answer (answer : Answer)

/-! ## Statements -/

/-- The writes to a session object. The first three are those of `update_dst_session_id` when
the ids differ. -/
inductive SessionWrite where
  | storeId (id : SessionId)
  | clearRows
  | clearInfos
  | saveInfo (info : RoutePeerInfo)
  | saveRow (row : PeerId × Version)
  | saveForeign (item : ForeignNetworkInfo)
  | weAreInitiator (flag : Bool)
  | dstIsInitiator (flag : Bool)
  | needSyncInitiatorInfo (flag : Bool)

namespace SessionWrite

def apply (session : SyncRouteSession) : SessionWrite → SyncRouteSession × Option Fault
  | storeId id => ({ session with dstSessionId := id }, none)
  | clearRows => ({ session with dstSavedConnBitmapVersion := ∅ }, none)
  | clearInfos => ({ session with dstSavedPeerInfoVersions := ∅ }, none)
  | saveInfo info => (session.updateDstSavedPeerInfoVersion [info], none)
  | saveRow row => (session.updateDstSavedConnBitmapVersion ⟨[row], []⟩, none)
  | saveForeign item => session.updateDstSavedForeignNetworkVersion [item]
  | weAreInitiator flag => ({ session with weAreInitiator := flag }, none)
  | dstIsInitiator flag => ({ session with dstIsInitiator := flag }, none)
  | needSyncInitiatorInfo flag => ({ session with needSyncInitiatorInfo := flag }, none)

/-- The statement behind it in `update_dst_session_id`. -/
def next : SessionWrite → Option SessionWrite
  | storeId _ => some clearRows
  | clearRows => some clearInfos
  | _ => none

def item : SessionWrite → Option Item
  | saveInfo info => some (.info info.peerId info.version)
  | saveRow row => some (.row row.1 row.2)
  | _ => none

/-- The item is cleared, now or by the next statement. -/
def clears : SessionWrite → Item → Bool
  | clearRows, _ | clearInfos, .info .. => true
  | _, _ => false

end SessionWrite

/-- The writes to the store: the updates of the own info and row, `remove_peer`, the iterations of
`update_peer_infos`, `update_conn_map` and `update_foreign_network`, and what stands before and
after their loops. -/
inductive StoreWrite where
  | myInfo (own : OwnPeerInfo) (otherChange : Bool)
  | myRow (connected : Finset PeerId)
  | remove (p : PeerId)
  | info (sender : PeerId) (raw : RawPeerInfo)
  | fill (peerIds : Finset PeerId)
  | row (connBitmap : RouteConnBitmap) (item : (PeerId × Version) × Nat)
  | version
  | foreign (item : ForeignNetworkInfo)

namespace StoreWrite

/-- With the local `need_inc_version`. -/
def apply (me : PeerId) (routeId : Nat) (st : SyncedRouteInfo × Bool) :
    StoreWrite → (SyncedRouteInfo × Bool) × Option Fault
  | myInfo own otherChange => (((st.1.updateMyPeerInfo me routeId own otherChange).1, st.2), none)
  | myRow connected => (((st.1.updateMyConnInfo me connected).1, st.2), none)
  | remove p => ((st.1.removePeer p, st.2), none)
  | info sender raw => SyncedRouteInfo.storePeerInfos me routeId sender [raw.known] [raw] st
  | fill peerIds => ((st.1.fillEmptyPeerInfo peerIds, st.2), none)
  | .row connBitmap item => SyncedRouteInfo.storeConns connBitmap [item] st
  | version => ((st.1.incVersionIf st.2, false), none)
  | foreign item => ((st.1.updateForeignNetwork [item], st.2), none)

def item : StoreWrite → Option Item
  | info _ raw => some (.info raw.known.peerId raw.known.version)
  | row _ item => some (.row item.1.1 item.1.2)
  | _ => none

/-- Nothing is removed, and no own version wraps. -/
def grows (me : PeerId) (s : SyncedRouteInfo) : StoreWrite → Bool
  | myInfo .. => (s.peerInfos.lookup me).all (·.version + 1 < 2 ^ 32)
  | myRow connected => s.RowFits me connected
  | remove _ => false
  | _ => true

end StoreWrite

/-- The statements of `update_route_table_and_cached_local_conn_bitmap`. -/
inductive Refresh where
  | loadVersion
  | collect (version : Version)
  | setBits (version : Version) (peerIds : List (PeerId × Version))
  | store (version : Version) (connBitmap : RouteConnBitmap)

/-- The rows that a renewal of the cached rows has read. -/
def Refresh.rows : Refresh → List (PeerId × Version)
  | setBits _ peerIds => peerIds
  | store _ connBitmap => connBitmap.peerIds
  | _ => []

/-- The statements of `sync_route_with_peer` up to the call. -/
inductive Build where
  | infos
  | checkRows
  | cloneRows
  | foreign
  | stopIfIdle (asInitiator : Bool)
  | encode

inductive Action where
  /-- `get_or_create_session`, with the id that a new session draws -/
  | openSession (randomId : SessionId)
  | closeSession
  | compareId
  | session (change : SessionWrite)
  | store (update : StoreWrite)
  | refresh (stage : Refresh)
  | build (stage : Build)

/-- Of these are the statements that follow others only in some runs. -/
def Action.isExtra : Action → Bool
  | session change => change.item.isNone
  | refresh _ | build .cloneRows => true
  | _ => false

/-- A task with its local variables: `id` is the session id of the peer in the message at hand,
`serving` the position of the call that the task has still to answer. -/
structure Task where
  session : Option Nat := none
  id : SessionId := 0
  needIncVersion : Bool := false
  serving : Option Nat := none
  draft : Draft := ⟨none, none, none⟩
  todo : List Action

namespace Task

def takePeerInfos (sender : PeerId) : Option (List RawPeerInfo) → List Action
  | none => []
  | some raws =>
    raws.map (fun raw => .store (.info sender raw)) ++ [.store .version] ++
      raws.map fun raw => .session (.saveInfo raw.known)

def takeConnBitmap : Option RouteConnBitmap → List Action
  | none => []
  | some rows =>
    [.store (.fill (rows.peerIds.map (·.1)).toFinset)] ++
      rows.peerIds.zipIdx.map (fun item => .store (.row rows item)) ++ [.store .version] ++
      rows.peerIds.map fun row => .session (.saveRow row)

def takeForeignNetwork : Option (List ForeignNetworkInfo) → List Action
  | none => []
  | some items =>
    items.map (fun item => .store (.foreign item)) ++
      items.map fun item => .session (.saveForeign item)

def serve (request : SyncRouteInfoRequest) (call : Nat) (randomId : SessionId) : Task where
  id := request.mySessionId
  serving := call
  todo :=
    let refresh := request.peerInfos.isSome || request.connBitmap.isSome
    [.openSession randomId, .compareId] ++ takePeerInfos request.myPeerId request.peerInfos ++
      takeConnBitmap request.connBitmap ++ (if refresh then [.refresh .loadVersion] else []) ++
      takeForeignNetwork request.foreignNetworkInfos ++
      [.session (.dstIsInitiator request.isInitiator)]

def send (session : Nat) (asInitiator : Bool) : Task where
  session := some session
  todo := [.build .infos, .build .checkRows, .build .foreign, .build (.stopIfIdle asInitiator),
    .session (.needSyncInitiatorInfo false), .build .encode]

def hear (call : Call) (response : SyncRouteInfoResponse) : Task where
  session := call.session
  id := response.sessionId
  todo :=
    match response.error with
    | none =>
      [.session (.dstIsInitiator response.isInitiator), .compareId] ++
      (call.draft.peerInfos.getD []).map (fun info => .session (.saveInfo info)) ++
      (call.draft.connBitmap.getD .new).peerIds.map (fun row => .session (.saveRow row)) ++
      (call.draft.foreignNetwork.getD []).map (fun item => .session (.saveForeign item))
    | some .duplicatePeerId => []
    | some .stopped => [.session (.needSyncInitiatorInfo true)]

/-- The call got no answer. -/
def fail (call : Call) : Task where
  session := call.session
  todo := [.session (.needSyncInitiatorInfo true)]

/-- `update_initiator_flag` -/
def initiate (session : Nat) (isInitiator : Bool) : Task where
  session := some session
  todo := [.session (.weAreInitiator isInitiator), .session (.needSyncInitiatorInfo true)]

variable (task : Task)

def stop : Task := { task with serving := none, todo := [] }

def push (action : Action) : Task := { task with todo := action :: task.todo }

/-- A fault ends the task. -/
def after : Option Fault → Task
  | none => task
  | some _ => task.stop

/-- An error is reported, a panic is not. -/
def refuse : Fault → Option Message
  | .error e => task.serving.map fun call => .answer ⟨call, ⟨false, 0, some e⟩⟩
  | .panicked => none

/-- The task is about to clear the item, under the id that it has stored already. -/
def clears (item : Item) : Bool :=
  match task.todo with
  | .session change :: _ => change.clears item
  | _ => false

end Task

/-! ## A node and its tasks -/

/-- What the tasks of a node share. The objects of its sessions with the partner are never
forgotten, and take the place of those in the node; `session` is the position of the current one. -/
structure Host extends Node where
  partner : PeerId
  objects : List SyncRouteSession
  session : Option Nat

namespace Host

def new (myPeerId : PeerId) (myPeerRouteId : Nat) (partner : PeerId) : Host where
  toNode := .new myPeerId myPeerRouteId
  partner := partner
  objects := []
  session := none

variable (host : Host) (task : Task) (env : Surroundings)

/-- The ids of the session objects, which never change. -/
def ids : List SessionId := host.objects.map (·.mySessionId)

def object (session : Option Nat) : Option SyncRouteSession := session.bind (host.objects[·]?)

def modify (session : Option Nat) (f : SyncRouteSession → SyncRouteSession) : Host :=
  { host with objects := session.elim host.objects (host.objects.modify · f) }

def addSession (randomId : SessionId) : Host :=
  { host with
    objects := host.objects ++ [.new host.myPeerId host.partner randomId]
    session := host.objects.length }

def runRefresh : Refresh → Host × Task
  | .loadVersion => (host, task.push (.refresh (.collect host.syncedRouteInfo.version)))
  | .collect version =>
    let peerIds := Node.syncedPeerIds host.syncedRouteInfo.connMap env
    (host, task.push (.refresh (.setBits version peerIds)))
  | .setBits version peerIds =>
    let connBitmap := Node.connBitmapOf host.syncedRouteInfo.connMap peerIds
    (host, task.push (.refresh (.store version connBitmap)))
  | .store version connBitmap =>
    if host.cachedLocalConnMapVersion < version then
      ({ host with cachedLocalConnMap := connBitmap, cachedLocalConnMapVersion := version }, task)
    else
      (host, task)

def request (session : SyncRouteSession) (draft : Draft) : SyncRouteInfoRequest where
  myPeerId := host.myPeerId
  mySessionId := session.mySessionId
  isInitiator := session.weAreInitiator
  peerInfos := draft.peerInfos.map host.rawPeerInfosOf
  connBitmap := draft.connBitmap
  foreignNetworkInfos := draft.foreignNetwork

def runBuild (session : SyncRouteSession) : Build → Task × Option Message
  | .infos =>
    let peerInfos := host.buildRouteInfo session env
    ({ task with draft := { task.draft with peerInfos := peerInfos } }, none)
  | .checkRows =>
    let needUpdate := (host.buildConnBitmap session).isSome
    (if needUpdate then task.push (.build .cloneRows) else task, none)
  | .cloneRows =>
    ({ task with draft := { task.draft with connBitmap := host.cachedLocalConnMap } }, none)
  | .foreign =>
    let foreignNetwork := host.buildForeignNetworkInfo session env
    ({ task with draft := { task.draft with foreignNetwork := foreignNetwork } }, none)
  | .stopIfIdle asInitiator =>
    let idle := task.draft.peerInfos.isNone && task.draft.connBitmap.isNone &&
      task.draft.foreignNetwork.isNone && !session.needSyncInitiatorInfo &&
      !(asInitiator && session.weAreInitiator)
    (if idle then task.stop else task, none)
  | .encode =>
    (task, some (.call ⟨task.session, host.request session task.draft, task.draft⟩))

/-- One statement of a task, which `task` has left behind. -/
def run : Action → Host × Task × Option Message
  | .openSession randomId =>
    match host.session with
    | some k => (host, { task with session := some k }, none)
    | none => (host.addSession randomId, { task with session := host.objects.length }, none)
  | .closeSession => ({ host with session := none }, task, none)
  | .compareId =>
    let differ := (host.object task.session).any (·.dstSessionId ≠ task.id)
    (host, if differ then task.push (.session (.storeId task.id)) else task, none)
  | .session change =>
    let fault := (host.object task.session).bind fun session => (change.apply session).2
    (host.modify task.session fun session => (change.apply session).1,
      { task with todo := change.next.toList.map Action.session ++ task.todo }.after fault, none)
  | .store update =>
    let (st, fault) := update.apply host.myPeerId host.myPeerRouteId
      (host.syncedRouteInfo, task.needIncVersion)
    ({ host with syncedRouteInfo := st.1 }, { task with needIncVersion := st.2 }.after fault,
      fault.bind task.refuse)
  | .refresh stage =>
    let (host, task) := host.runRefresh task env stage
    (host, task, none)
  | .build stage =>
    match host.object task.session with
    | some session => (host, host.runBuild task env session stage)
    | none => (host, task.stop, none)

/-- The next statement of a task. At its end it answers the call that it serves. -/
def turn : Host × Task × Option Message :=
  match task.todo with
  | action :: todo => host.run { task with todo := todo } env action
  | [] =>
    let message := do
      let call ← task.serving
      let session ← host.object task.session
      some (.answer ⟨call, ⟨session.weAreInitiator, session.mySessionId, none⟩⟩)
    (host, task.stop, message)

end Host

/-! ## Session objects -/

/-- The item is saved, at this very version. -/
def SyncRouteSession.Saved (session : SyncRouteSession) : Item → Prop
  | .info p version => session.dstSavedPeerInfoVersions.lookup p = some version
  | .row p version => session.dstSavedConnBitmapVersion.lookup p = some version

section
variable {session : SyncRouteSession} {item : Item}

theorem new_not_saved (me p : PeerId) (id : SessionId) :
    ¬ (SyncRouteSession.new me p id).Saved item := by
  cases item <;> simp [SyncRouteSession.Saved, SyncRouteSession.new]

theorem SessionWrite.apply_id (change : SessionWrite) (session : SyncRouteSession) :
    (change.apply session).1.mySessionId = session.mySessionId := by
  cases change <;> rfl

/-- An item that is saved after a write is cleared by the next one, or the id stays and the
item was saved before, with no clear of it at hand, or is saved by this write. -/
theorem SessionWrite.saved {change : SessionWrite} (saved : (change.apply session).1.Saved item) :
    change.next.any (·.clears item) = true ∨
      (change.apply session).1.dstSessionId = session.dstSessionId ∧ change.clears item = false ∧
        (session.Saved item ∨ change.item = some item) := by
  cases change with
  | storeId id => exact .inl rfl
  | clearRows | clearInfos =>
    cases item <;> simp_all [SyncRouteSession.Saved, apply, next, clears]
  | saveInfo info =>
    refine .inr ⟨rfl, rfl, ?_⟩
    cases item with
    | info p version =>
      refine (raise_origin saved).imp_right ?_
      rintro ⟨rfl, rfl⟩
      rfl
    | row p version => exact .inl saved
  | saveRow row =>
    refine .inr ⟨rfl, rfl, ?_⟩
    cases item with
    | info p version => exact .inl saved
    | row p version =>
      refine (raise_origin saved).imp_right ?_
      rintro ⟨rfl, rfl⟩
      rfl
  | _ => exact .inr ⟨rfl, rfl, .inl (by cases item <;> exact saved)⟩

end

namespace Host

variable {host : Host} {k : Nat}

theorem modify_object {ref : Option Nat} {f : SyncRouteSession → SyncRouteSession}
    {session' : SyncRouteSession} (found : (host.modify ref f).objects[k]? = some session') :
    ∃ session, host.objects[k]? = some session ∧
      (ref ≠ some k ∧ session' = session ∨ ref = some k ∧ session' = f session) := by
  cases ref <;> grind [modify]

theorem modify_ids {ref : Option Nat} {f : SyncRouteSession → SyncRouteSession}
    (same : ∀ session, (f session).mySessionId = session.mySessionId) :
    (host.modify ref f).ids = host.ids := by
  apply List.ext_getElem?
  cases ref <;> grind [modify, ids]

/-! ## One turn -/

/-- What a task may send: a request when it encodes one, an answer to the call that it serves,
and one without an error only at its end. -/
def Sends (host : Host) (task : Task) : Option Message → Prop
  | none => True
  | some (.call call) => (∃ todo, task.todo = .build .encode :: todo) ∧
    ∃ session, host.object task.session = some session ∧
      call = ⟨task.session, host.request session task.draft, task.draft⟩
  | some (.answer answer) => task.serving = some answer.call ∧
    (answer.response.error = none → task.todo = [] ∧
      ∃ session, host.object task.session = some session ∧
        answer.response.sessionId = session.mySessionId)

variable (host : Host) (task : Task) (env : Surroundings)

theorem turn_sends : host.Sends task (host.turn task env).2.2 := by
  obtain ⟨ref, dstId, need, serving, draft, todo⟩ := task
  cases todo with
  | nil => cases serving <;> cases found : host.object ref <;> simp_all [turn, Sends]
  | cons action todo =>
    cases action with
    | openSession id =>
      simp only [turn, run]
      split <;> trivial
    | store update =>
      simp only [turn, run]
      generalize (update.apply host.myPeerId host.myPeerRouteId _).2 = fault
      rcases fault with _ | _ | _ <;> cases serving <;> simp [Sends, Task.refuse]
    | build stage =>
      cases stage <;> cases found : host.object ref <;> simp_all [turn, run, runBuild, Sends]
    | _ => trivial

/-- A task keeps the id of its message, and gets no new saves and no new call to answer. -/
theorem turn_task :
    let task' := (host.turn task env).2.1
    task'.id = task.id ∧ (task'.serving = none ∨ task'.serving = task.serving) ∧
      ∀ action ∈ task'.todo, action ∈ task.todo ∨ action.isExtra := by
  obtain ⟨ref, dstId, need, serving, draft, todo⟩ := task
  cases todo with
  | nil => exact ⟨rfl, .inl rfl, nofun⟩
  | cons action todo =>
    simp only [turn]
    cases action with
    | session change =>
      simp only [run]
      generalize (host.object ref).bind _ = fault
      cases fault <;> cases change <;>
        grind [Task.after, Task.stop, SessionWrite.next, SessionWrite.item, Action.isExtra]
    | store update =>
      simp only [run]
      generalize (update.apply host.myPeerId host.myPeerRouteId _).2 = fault
      cases fault <;> grind [Task.after, Task.stop]
    | refresh stage => cases stage <;> grind [run, runRefresh, Task.push, Action.isExtra]
    | build stage =>
      cases stage <;> grind [run, runBuild, Task.push, Task.stop, Action.isExtra]
    | _ => grind [run, Task.push, SessionWrite.item, Action.isExtra]

/-- Only opening a session and writing to one touch the objects. -/
theorem turn_objects :
    let host' := (host.turn task env).1
    (∃ randomId todo, task.todo = .openSession randomId :: todo ∧
        host' = host.addSession randomId) ∨
      (∃ change todo, task.todo = .session change :: todo ∧
        host' = host.modify task.session fun session => (change.apply session).1) ∨
      host'.objects = host.objects ∧ (∀ k, host'.session = some k → host.session = some k) ∧
        ∀ item, task.clears item = false := by
  obtain ⟨ref, dstId, need, serving, draft, todo⟩ := task
  cases todo with
  | nil => exact .inr (.inr ⟨rfl, fun _ => id, fun _ => rfl⟩)
  | cons action todo =>
    simp only [turn]
    cases action with
    | session change => exact .inr (.inl ⟨change, todo, rfl, rfl⟩)
    | refresh stage => cases stage <;> grind [run, runRefresh, Task.clears]
    | _ => grind [run, Task.clears]

/-- After each statement of `update_dst_session_id` but the last the next one is at hand. -/
theorem turn_next {change : SessionWrite} {todo : List Action} {item : Item}
    (left : task.todo = .session change :: todo)
    (later : change.next.any (·.clears item) = true) :
    let task' := (host.turn task env).2.1
    task'.session = task.session ∧ task'.clears item = true := by
  cases change <;>
    simp_all [turn, run, SessionWrite.next, SessionWrite.apply, Task.after, Task.clears]

end Host

/-! ## What a node backs -/

theorem StoreWrite.spec (update : StoreWrite) (me : PeerId) (routeId : Nat)
    (st : SyncedRouteInfo × Bool) (grows : update.grows me st.1 = true) :
    let result := update.apply me routeId st
    st.1.Le result.1.1 ∧ (st.1.Filed → result.1.1.Filed) ∧
      (result.2 = none → ∀ item, update.item = some item → item.HeldBy result.1.1) := by
  cases update with
  | myInfo own otherChange =>
    obtain ⟨le, filed⟩ := SyncedRouteInfo.updateMyPeerInfo_le (s := st.1) me routeId own otherChange
      fun old found => by simpa [StoreWrite.grows, found] using grows
    exact ⟨le, filed, nofun⟩
  | myRow connected =>
    exact ⟨SyncedRouteInfo.updateMyConnInfo_le _ _ _ (of_decide_eq_true grows),
      SyncedRouteInfo.updateMyConnInfo_preserves (·.congr) (·.placeholder) _ _, nofun⟩
  | remove p => cases grows
  | info sender raw =>
    obtain ⟨le, held⟩ := SyncedRouteInfo.storePeerInfos_le me routeId sender [raw.known] [raw] st
    refine ⟨le, ?_, ?_⟩
    · exact @SyncedRouteInfo.storePeerInfos_preserves SyncedRouteInfo.Filed me routeId sender [raw]
        (fun _ raw _ filed => filed.putPeerInfo raw) st
    · rintro ok item ⟨⟩
      exact held ok raw.known List.mem_cons_self
  | fill peerIds =>
    refine ⟨SyncedRouteInfo.fillEmptyPeerInfo_le _ _, ?_, nofun⟩
    exact SyncedRouteInfo.fillEmptyPeerInfo_preserves (·.congr) (·.placeholder) peerIds
  | row connBitmap row =>
    obtain ⟨le, held⟩ := SyncedRouteInfo.storeConns_le connBitmap [row] st
    refine ⟨le, ?_, ?_⟩
    · exact SyncedRouteInfo.storeConns_preserves (·.congr) (·.placeholder) connBitmap [row] st
    · rintro ok item ⟨⟩
      exact held ok row List.mem_cons_self
  | version =>
    exact ⟨SyncedRouteInfo.incVersionIf_le _ _,
      SyncedRouteInfo.incVersionIf_preserves (·.congr), nofun⟩
  | foreign item =>
    exact ⟨SyncedRouteInfo.updateForeignNetwork_le _ _, (·.congr rfl rfl), nofun⟩

/-- What a task is about to announce is stored. What it owes to the call that it serves is
stored, or is to be stored before the task answers. -/
structure Task.Backed (s : SyncedRouteInfo) (owed : List Item) (task : Task) : Prop where
  draft : ∀ item ∈ task.draft.items, item.HeldBy s
  refresh : ∀ stage, .refresh stage ∈ task.todo → ∀ row ∈ stage.rows, s.HasConn row.1 row.2
  owed : task.serving.isSome → ∀ item ∈ owed,
    item.HeldBy s ∨ ∃ update, .store update ∈ task.todo ∧ update.item = some item

structure Host.Stocked (host : Host) : Prop where
  filed : host.syncedRouteInfo.Filed
  cache : ∀ row ∈ host.cachedLocalConnMap.peerIds, host.syncedRouteInfo.HasConn row.1 row.2

/-- A new session draws an id that was never used, and the store only grows. -/
def Host.steady (host : Host) (task : Task) : Bool :=
  match task.todo with
  | .openSession randomId :: _ => randomId ∉ host.ids
  | .store update :: _ => update.grows host.myPeerId host.syncedRouteInfo
  | _ => true

section
variable {s s' : SyncedRouteInfo} {owed : List Item} {task : Task} {host : Host}

theorem Task.Backed.mono (backed : task.Backed s owed) (le : s.Le s') : task.Backed s' owed where
  draft item mem := (backed.draft item mem).mono le
  refresh stage mem row here := le.conns _ _ (backed.refresh stage mem row here)
  owed serves item mem := (backed.owed serves item mem).imp_left (·.mono le)

theorem Task.Backed.after (backed : task.Backed s owed) (fault : Option Fault) :
    (task.after fault).Backed s owed := by
  cases fault with
  | none => exact backed
  | some fault => exact ⟨backed.draft, nofun, nofun⟩

/-- A statement is left behind; one that stores has stored its item. -/
theorem Task.Backed.tail {action : Action} {todo : List Action} (backed : task.Backed s owed)
    (left : task.todo = action :: todo)
    (held : ∀ update item, action = .store update → update.item = some item → item.HeldBy s) :
    Task.Backed s owed { task with todo := todo } where
  draft := backed.draft
  refresh stage mem := backed.refresh stage (left ▸ List.mem_cons_of_mem _ mem)
  owed serves item mem := by grind [backed.owed serves item mem]

theorem Task.Backed.push (backed : task.Backed s owed) {action : Action}
    (rows : ∀ stage, action = .refresh stage → ∀ row ∈ stage.rows, s.HasConn row.1 row.2) :
    (task.push action).Backed s owed where
  draft := backed.draft
  refresh stage mem :=
    (List.mem_cons.mp mem).elim (fun here => rows stage here.symm) (backed.refresh stage)
  owed serves item mem := by grind [Task.push, backed.owed serves item mem]

end

namespace Host

variable {host : Host} {task : Task} {owed : List Item} {session : SyncRouteSession}
  (env : Surroundings)

theorem runRefresh_backed (stocked : host.Stocked) (backed : task.Backed host.syncedRouteInfo owed)
    (stage : Refresh)
    (rows : ∀ row ∈ stage.rows, host.syncedRouteInfo.HasConn row.1 row.2) :
    let result := host.runRefresh task env stage
    result.1.syncedRouteInfo = host.syncedRouteInfo ∧ result.1.Stocked ∧
      result.2.Backed host.syncedRouteInfo owed := by
  cases stage with
  | loadVersion =>
    refine ⟨rfl, stocked, backed.push ?_⟩
    rintro stage ⟨⟩
    nofun
  | collect version =>
    refine ⟨rfl, stocked, backed.push ?_⟩
    rintro stage ⟨⟩ row mem
    obtain ⟨connected, found⟩ := Node.mem_syncedPeerIds mem
    exact ⟨_, found, le_rfl⟩
  | setBits version peerIds =>
    refine ⟨rfl, stocked, backed.push ?_⟩
    rintro stage ⟨⟩
    exact rows
  | store version connBitmap =>
    simp only [runRefresh]
    split
    · exact ⟨rfl, ⟨stocked.filed, rows⟩, backed⟩
    · exact ⟨rfl, stocked, backed⟩

theorem runBuild_backed (stocked : host.Stocked) (backed : task.Backed host.syncedRouteInfo owed)
    (stage : Build) :
    (host.runBuild task env session stage).1.Backed host.syncedRouteInfo owed := by
  cases stage with
  | infos =>
    simp only [runBuild]
    refine ⟨fun item mem => ?_, backed.refresh, backed.owed⟩
    obtain ⟨info, listed, rfl⟩ | row := mem_announced.mp mem
    · cases built : host.buildRouteInfo session env with
      | none => simp [built] at listed
      | some infos =>
        simp only [built, Option.getD_some] at listed
        obtain ⟨nonzero, p, stored⟩ := Node.mem_buildRouteInfo built listed
        exact ⟨info, stocked.filed.keyed p info stored nonzero ▸ stored, le_rfl⟩
    · exact backed.draft item (mem_announced.mpr (.inr row))
  | checkRows =>
    simp only [runBuild]
    split
    · exact backed.push nofun
    · exact backed
  | cloneRows =>
    refine ⟨fun item mem => ?_, backed.refresh, backed.owed⟩
    obtain info | ⟨row, listed, rfl⟩ := mem_announced.mp mem
    · exact backed.draft item (mem_announced.mpr (.inl info))
    · exact stocked.cache row listed
  | foreign => exact ⟨backed.draft, backed.refresh, backed.owed⟩
  | stopIfIdle asInitiator =>
    simp only [runBuild]
    split
    · exact backed.after (some .panicked)
    · exact backed
  | encode => exact backed

theorem turn_backed (stocked : host.Stocked) (backed : task.Backed host.syncedRouteInfo owed)
    (steady : host.steady task = true) :
    let result := host.turn task env
    host.syncedRouteInfo.Le result.1.syncedRouteInfo ∧ result.1.Stocked ∧
      result.2.1.Backed result.1.syncedRouteInfo owed := by
  obtain ⟨ref, dstId, need, serving, draft, todo⟩ := task
  cases todo with
  | nil => exact ⟨.refl _, stocked, backed.draft, nofun, nofun⟩
  | cons action todo =>
    cases action with
    | openSession randomId =>
      have rest := backed.tail rfl nofun
      simp only [turn, run]
      split <;> exact ⟨.refl _, ⟨stocked.filed, stocked.cache⟩, rest.draft, rest.refresh, rest.owed⟩
    | closeSession =>
      exact ⟨.refl _, ⟨stocked.filed, stocked.cache⟩, backed.tail rfl nofun⟩
    | compareId =>
      have rest := backed.tail rfl nofun
      simp only [turn, run]
      split
      · exact ⟨.refl _, stocked, rest.push nofun⟩
      · exact ⟨.refl _, stocked, rest⟩
    | session change =>
      have rest := backed.tail rfl nofun
      refine ⟨.refl _, ⟨stocked.filed, stocked.cache⟩, Task.Backed.after ?_ _⟩
      cases change.next with
      | none => exact rest
      | some next => exact rest.push nofun
    | store update =>
      obtain ⟨le, filed, held⟩ := update.spec host.myPeerId host.myPeerRouteId
        (host.syncedRouteInfo, need) steady
      have grown := backed.mono le
      refine ⟨le, ⟨filed stocked.filed, fun row mem => le.conns _ _ (stocked.cache row mem)⟩, ?_⟩
      simp only [turn, run]
      generalize update.apply host.myPeerId _ _ = result at held grown
      obtain ⟨⟨s, need⟩, fault⟩ := result
      cases fault with
      | some fault => exact ⟨grown.draft, nofun, nofun⟩
      | none =>
        have rest := grown.tail rfl (by rintro _ item ⟨⟩ named; exact held rfl item named)
        exact ⟨rest.draft, rest.refresh, rest.owed⟩
    | refresh stage =>
      obtain ⟨same, stocked, rest⟩ := runRefresh_backed env stocked (backed.tail rfl nofun)
        stage (backed.refresh stage List.mem_cons_self)
      refine ⟨?_, stocked, ?_⟩
      · exact same ▸ .refl _
      · exact same ▸ rest
    | build stage =>
      have rest := backed.tail rfl nofun
      simp only [turn, run]
      split
      · exact ⟨.refl _, stocked, runBuild_backed env stocked rest stage⟩
      · exact ⟨.refl _, stocked, rest.after (some .panicked)⟩

/-- An info as it is sent. -/
def sentInfo (host : Host) (info : RoutePeerInfo) : RoutePeerInfo :=
  ((host.syncedRouteInfo.rawPeerInfos.lookup info.peerId).getD ⟨info, []⟩).known

theorem request_items (draft : Draft) : (host.request session draft).items =
    announced ((draft.peerInfos.getD []).map host.sentInfo)
      (draft.connBitmap.getD .new).peerIds := by
  unfold SyncRouteInfoRequest.items request
  cases draft.peerInfos with
  | none => rfl
  | some infos => exact congrArg (announced · _) List.map_map

/-- What a request announces is stored, where what was chosen is. -/
theorem request_held (stocked : host.Stocked) {draft : Draft}
    (held : ∀ item ∈ draft.items, item.HeldBy host.syncedRouteInfo) :
    ∀ item ∈ (host.request session draft).items, item.HeldBy host.syncedRouteInfo := by
  intro item mem
  rw [request_items] at mem
  obtain ⟨sent, listed, rfl⟩ | row := mem_announced.mp mem
  · obtain ⟨info, chosen, rfl⟩ := List.mem_map.mp listed
    unfold sentInfo
    cases found : host.syncedRouteInfo.rawPeerInfos.lookup info.peerId with
    | none => exact held _ (mem_announced.mpr (.inl ⟨info, chosen, rfl⟩))
    | some raw =>
      obtain ⟨named, stored⟩ := stocked.filed.raw _ _ found
      exact named.symm ▸ stored
  · exact held item (mem_announced.mpr (.inr row))

/-- Each chosen info is sent under its own peer, and no older than it was chosen. -/
def SendsFresh (host : Host) (draft : Draft) : Prop :=
  ∀ info ∈ draft.peerInfos.getD [],
    (host.sentInfo info).peerId = info.peerId ∧ info.version ≤ (host.sentInfo info).version
  deriving Decidable

/-- Then whoever holds what the request announces holds what was chosen. -/
theorem SendsFresh.covers {draft : Draft} (fresh : host.SendsFresh draft) {s : SyncedRouteInfo}
    (held : ∀ item ∈ (host.request session draft).items, item.HeldBy s) :
    ∀ item ∈ draft.items, item.HeldBy s := by
  intro item mem
  rw [request_items] at held
  obtain ⟨info, listed, rfl⟩ | row := mem_announced.mp mem
  · obtain ⟨named, newer⟩ := fresh info listed
    obtain ⟨stored, found, le⟩ := held (.info _ _) (mem_announced.mpr
      (.inl ⟨host.sentInfo info, List.mem_map_of_mem listed, rfl⟩))
    exact ⟨stored, named ▸ found, newer.trans le⟩
  · exact held item (mem_announced.mpr (.inr row))

end Host

end PeerLink.Sync
