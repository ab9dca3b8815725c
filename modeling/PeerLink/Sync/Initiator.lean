import PeerLink.Route.Table
import PeerLink.Schedule.Along

/-!
# The initiated session

`maintain_sessions` keeps one session that this node initiates. It remembers the peer of
that session in a local variable, while the flag is stored in the session itself, which
may be dropped and opened anew. The loop runs against direct peers that come and go,
session tasks that end, and the tasks that serve and send requests: each statement of the
loop is a step, and anything may happen between two of them.
-/

namespace PeerLink.Sync

open Route Schedule

inductive NatType where
  | unknown
  | openInternet
  | noPat
  | fullCone
  | restricted
  | portRestricted
  | symmetric
  | symUdpFirewall
  | symmetricEasyInc
  | symmetricEasyDec
  deriving DecidableEq

/-- Of a session, who initiates it and whether its task is running. -/
structure InitiatorFlags where
  weAreInitiator : Bool
  dstIsInitiator : Bool
  needSyncInitiatorInfo : Bool
  isRunning : Bool

def InitiatorFlags.new : InitiatorFlags := ⟨false, false, false, false⟩

/-- What a statement of the loop reads outside the sessions: the order of the session map and the
NAT types in the route table. -/
structure LoopInput where
  sessionOrder : IterOrder (Σ _ : PeerId, InitiatorFlags)
  getNatType : PeerId → Option NatType

/-- Where `maintain_sessions` is, with its local variables. -/
inductive LoopPlace where
  | asleep
  | listed (peers : List PeerId)
  /-- in the loop that drops the sessions of peers that are not listed -/
  | dropping (peers sessionPeers left : List PeerId)
  /-- in the filter for candidates -/
  | filtering (left initiatorCandidates sessionPeers : List PeerId)
  /-- the flag moves to the session with `dst`, which is opened, started and flagged -/
  | unflagging (dst : PeerId) (sessionPeers : List PeerId)
  | opening (dst : PeerId) (sessionPeers : List PeerId)
  | starting (dst : PeerId) (sessionPeers : List PeerId)
  | flagging (dst : PeerId) (sessionPeers : List PeerId)
  /-- in the loop that clears the other sessions -/
  | clearing (dst : PeerId) (left : List PeerId)
  deriving DecidableEq

/-- The sessions, the direct peers, and `maintain_sessions` with its
`cur_dst_peer_id_to_initiate`. -/
structure SessionManager where
  sessions : AList fun _ : PeerId => InitiatorFlags
  connected : List PeerId
  curDstPeerIdToInitiate : Option PeerId
  place : LoopPlace

inductive SessionEvent where
  | peerJoins (p : PeerId)
  | peerLeaves (p : PeerId)
  | taskEnds (p : PeerId)
  /-- `get_or_create_session` and `start_session_task` of a request that is served -/
  | opened (p : PeerId)
  | started (p : PeerId)
  /-- the stores of the tasks that serve a request or send one -/
  | dstIsInitiator (p : PeerId) (flag : Bool)
  | needSyncInitiatorInfo (p : PeerId) (flag : Bool)
  /-- the next statement of `maintain_sessions` -/
  | loop (input : LoopInput)

namespace SessionManager

def new : SessionManager := ⟨∅, [], none, .asleep⟩

variable (m : SessionManager) (input : LoopInput) (p : PeerId)

/-- Dropping a session aborts its task. -/
def stopSession : SessionManager := { m with sessions := m.sessions.erase p }

def getOrCreateSession : SessionManager :=
  { m with
    sessions := match m.sessions.lookup p with
      | some _ => m.sessions
      | none => m.sessions.insert p .new }

/-- A store to a session, if there is one. -/
def modifySession (f : InitiatorFlags → InitiatorFlags) : SessionManager :=
  { m with
    sessions := match m.sessions.lookup p with
      | some session => m.sessions.insert p (f session)
      | none => m.sessions }

/-- The task is started unless it is running. -/
def startSessionTask : SessionManager := m.modifySession p ({ · with isRunning := true })

def updateInitiatorFlag (isInitiator : Bool) : SessionManager :=
  m.modifySession p
    ({ · with weAreInitiator := isInitiator, needSyncInitiatorInfo := true })

def listSessionPeers (order : IterOrder (Σ _ : PeerId, InitiatorFlags)) : List PeerId :=
  (order.order m.sessions.entries).map (·.1)

/-- The first loop of an iteration, for one session. -/
def dropUnlessListed (peers : List PeerId) : SessionManager :=
  if p ∈ peers then
    m
  else
    let cur := if some p = m.curDstPeerIdToInitiate then none else m.curDstPeerIdToInitiate
    { m with curDstPeerIdToInitiate := cur }.stopSession p

/-- A peer is a candidate unless it initiates a session with this node. -/
def isCandidate : Bool :=
  match m.sessions.lookup p with
  | none => true
  | some session => !session.dstIsInitiator

def hasOpenNat : Bool :=
  input.getNatType p = some .noPat || input.getNatType p = some .openInternet

/-- The candidate to initiate a session with. -/
def newInitiatorDst (candidates : List PeerId) : Option PeerId :=
  (candidates.find? (hasOpenNat input)).or candidates.head?

/-- The last loop of an iteration, for one session. -/
def clearIdle : SessionManager :=
  match m.sessions.lookup p with
  | none => m
  | some session =>
    if (session.dstIsInitiator || session.weAreInitiator || session.needSyncInitiatorInfo) &&
        session.isRunning then
      m
    else
      m.stopSession p

/-- One statement of `maintain_sessions`. -/
def advance : SessionManager :=
  match m.place with
  | .asleep => { m with place := .listed (m.connected.insertionSort (· ≤ ·)) }
  | .listed peers =>
    let sessionPeers := m.listSessionPeers input.sessionOrder
    { m with place := .dropping peers sessionPeers sessionPeers }
  | .dropping peers sessionPeers (p :: left) =>
    { m with place := .dropping peers sessionPeers left }.dropUnlessListed p peers
  | .dropping peers sessionPeers [] => { m with place := .filtering peers [] sessionPeers }
  | .filtering (p :: left) candidates sessionPeers =>
    { m with
      place := .filtering left (if m.isCandidate p then candidates ++ [p] else candidates)
        sessionPeers }
  | .filtering [] candidates sessionPeers =>
    match newInitiatorDst input candidates with
    | none => { m with place := .asleep }
    | some dst =>
      if some dst ≠ m.curDstPeerIdToInitiate then { m with place := .unflagging dst sessionPeers }
      else { m with place := .clearing dst sessionPeers }
  | .unflagging dst sessionPeers =>
    let m := { m with place := .opening dst sessionPeers }
    match m.curDstPeerIdToInitiate with
    | some cur => m.updateInitiatorFlag cur false
    | none => m
  | .opening dst sessionPeers =>
    let m := { m with curDstPeerIdToInitiate := some dst, place := .starting dst sessionPeers }
    m.getOrCreateSession dst
  | .starting dst sessionPeers =>
    { m with place := .flagging dst sessionPeers }.startSessionTask dst
  | .flagging dst sessionPeers =>
    { m with place := .clearing dst sessionPeers }.updateInitiatorFlag dst true
  | .clearing dst (p :: left) => { m with place := .clearing dst left }.clearIdle p
  | .clearing _ [] => { m with place := .asleep }

def step : SessionEvent → Option SessionManager
  | .peerJoins p => some { m with connected := p :: m.connected }
  | .peerLeaves p => some { m with connected := m.connected.filter (· ≠ p) }
  | .taskEnds p => some (m.modifySession p ({ · with isRunning := false }))
  | .opened p => some (m.getOrCreateSession p)
  | .started p => some (m.startSessionTask p)
  | .dstIsInitiator p flag => some (m.modifySession p ({ · with dstIsInitiator := flag }))
  | .needSyncInitiatorInfo p flag =>
    some (m.modifySession p ({ · with needSyncInitiatorInfo := flag }))
  | .loop input => some (m.advance input)

end SessionManager

/-! ## The flag along the loop -/

namespace LoopPlace

/-- The peers that the iteration may choose, or the one that it has chosen. -/
def choices : LoopPlace → List PeerId
  | asleep => []
  | listed peers | dropping peers _ _ => peers
  | filtering left candidates _ => candidates ++ left
  | unflagging dst _ | opening dst _ | starting dst _ | flagging dst _ | clearing dst _ => [dst]

/-- The flag has been taken away from one session and not yet given to another. -/
def unflagged : LoopPlace → Bool
  | opening .. | starting .. | flagging .. => true
  | _ => false

/-- The chosen peer, once the loop remembers it. -/
def target : LoopPlace → Option PeerId
  | starting dst _ | flagging dst _ | clearing dst _ => some dst
  | _ => none

end LoopPlace

namespace SessionManager

/-- There is a session with `p`, and this node initiates it. -/
def initiates (m : SessionManager) (p : PeerId) : Bool :=
  (m.sessions.lookup p).any (·.weAreInitiator)

/-- Exactly one session is initiated by this node, and its peer is connected. -/
def OneInitiated (m : SessionManager) : Prop :=
  ∃ p ∈ m.connected, ∀ q, m.initiates q = true ↔ q = p

/-- No peer that the iteration may choose leaves, and when the last loop looks at an initiated
session its task is running. -/
def keepsTask (m : SessionManager) : SessionEvent → Bool
  | .peerLeaves p => p ∉ m.place.choices
  | .loop _ =>
    match m.place with
    | .clearing _ (p :: _) => (m.sessions.lookup p).all fun session =>
        !session.weAreInitiator || session.isRunning
    | _ => true
  | _ => true

/-- The initiated session is the one that the loop remembers. -/
structure Tracked (m : SessionManager) : Prop where
  flag : m.place.unflagged = false → ∀ p, m.initiates p = true ↔ m.curDstPeerIdToInitiate = some p
  moving : m.place.unflagged = true → ∀ p, m.initiates p = false
  connected : ∀ p ∈ m.place.choices, p ∈ m.connected
  target : ∀ dst ∈ m.place.target, m.curDstPeerIdToInitiate = some dst
  opened : m.place.unflagged = true → ∀ dst ∈ m.place.target, (m.sessions.lookup dst).isSome

variable {m m' : SessionManager} {p q : PeerId} {input : LoopInput} {candidates : List PeerId}

theorem lookup_modifySession (f : InitiatorFlags → InitiatorFlags) :
    (m.modifySession q f).sessions.lookup p =
      if p = q then (m.sessions.lookup q).map f else m.sessions.lookup p := by
  unfold modifySession
  cases found : m.sessions.lookup q <;> grind [AList.lookup_insert, AList.lookup_insert_ne]

theorem lookup_getOrCreateSession :
    (m.getOrCreateSession q).sessions.lookup p =
      if p = q then some ((m.sessions.lookup q).getD .new) else m.sessions.lookup p := by
  unfold getOrCreateSession
  cases found : m.sessions.lookup q <;> grind [AList.lookup_insert, AList.lookup_insert_ne]

theorem initiates_getOrCreateSession : (m.getOrCreateSession q).initiates p = m.initiates p := by
  unfold initiates
  rw [lookup_getOrCreateSession]
  split_ifs with here
  · subst here
    cases m.sessions.lookup p <;> simp [InitiatorFlags.new]
  · rfl

theorem initiates_stopSession :
    (m.stopSession q).initiates p = true ↔ p ≠ q ∧ m.initiates p = true := by
  unfold initiates stopSession
  by_cases here : p = q
  · subst here
    simp [AList.lookup_erase]
  · simp [AList.lookup_erase_ne here, here]

/-- Sessions may be opened and stored to, as long as the flags of this node stay. -/
theorem Tracked.of_same (tracked : m.Tracked) (flag : ∀ p, m'.initiates p = m.initiates p)
    (opened : ∀ p, (m.sessions.lookup p).isSome → (m'.sessions.lookup p).isSome)
    (connected : ∀ p ∈ m.place.choices, p ∈ m'.connected)
    (cur : m'.curDstPeerIdToInitiate = m.curDstPeerIdToInitiate) (place : m'.place = m.place) :
    m'.Tracked where
  flag flagged p := by rw [flag, tracked.flag (place ▸ flagged), cur]
  moving unflagged p := by rw [flag, tracked.moving (place ▸ unflagged)]
  connected := by rwa [place]
  target := by
    rw [place, cur]
    exact tracked.target
  opened := by
    rw [place]
    exact fun unflagged dst mem => opened dst (tracked.opened unflagged dst mem)

theorem Tracked.modifySession (tracked : m.Tracked) {f : InitiatorFlags → InitiatorFlags}
    (same : ∀ session, (f session).weAreInitiator = session.weAreInitiator) :
    (m.modifySession q f).Tracked := by
  refine tracked.of_same (fun p => ?_) (fun p opened => ?_) tracked.connected rfl rfl
  · unfold initiates
    rw [lookup_modifySession]
    split_ifs with here
    · subst here
      cases m.sessions.lookup p <;> simp [same]
    · rfl
  · rw [lookup_modifySession]
    split_ifs with here
    · subst here
      rwa [Option.isSome_map]
    · exact opened

theorem Tracked.getOrCreateSession (tracked : m.Tracked) : (m.getOrCreateSession q).Tracked := by
  refine tracked.of_same (fun p => initiates_getOrCreateSession) (fun p opened => ?_)
    tracked.connected rfl rfl
  rw [lookup_getOrCreateSession]
  split_ifs with here
  · rfl
  · exact opened

theorem newInitiatorDst_mem {dst : PeerId}
    (chosen : newInitiatorDst input candidates = some dst) : dst ∈ candidates := by
  obtain found | ⟨-, first⟩ := Option.or_eq_some_iff.mp chosen
  · exact List.mem_of_find?_eq_some found
  · exact List.mem_of_head? first

/-- The loop comes to another place with the sessions as they are. -/
theorem Tracked.goto (tracked : m.Tracked) (place : LoopPlace)
    (unflagged : place.unflagged = m.place.unflagged)
    (connected : ∀ p ∈ place.choices, p ∈ m.connected)
    (target : ∀ dst ∈ place.target, m.curDstPeerIdToInitiate = some dst)
    (opened : m.place.unflagged = true → ∀ dst ∈ place.target, (m.sessions.lookup dst).isSome) :
    { m with place }.Tracked where
  flag flagged := tracked.flag (unflagged ▸ flagged)
  moving away := tracked.moving (unflagged ▸ away)
  connected := connected
  target := target
  opened away := opened (unflagged ▸ away)

theorem Tracked.dropUnlessListed (tracked : m.Tracked) (flagged : m.place.unflagged = false)
    (early : m.place.target = none) (peers : List PeerId) :
    (m.dropUnlessListed q peers).Tracked := by
  unfold SessionManager.dropUnlessListed
  split
  · exact tracked
  · refine ⟨fun _ p => ?_, fun moving => ?_, tracked.connected, fun dst mem => ?_, fun moving => ?_⟩
    · rw [initiates_stopSession]
      have before := tracked.flag flagged p
      simp only [SessionManager.stopSession, initiates] at before ⊢
      grind
    · cases flagged.symm.trans moving
    · cases early.symm.trans mem
    · cases flagged.symm.trans moving

theorem initiates_updateInitiatorFlag {flag : Bool} :
    (m.updateInitiatorFlag q flag).initiates p =
      if p = q then flag && (m.sessions.lookup q).isSome else m.initiates p := by
  unfold initiates updateInitiatorFlag
  rw [lookup_modifySession]
  split_ifs with here
  · cases m.sessions.lookup q <;> simp
  · rfl

/-- The last loop keeps an initiated session whose task is running. -/
theorem Tracked.clearIdle (tracked : m.Tracked) (flagged : m.place.unflagged = false)
    (runs : (m.sessions.lookup q).all fun session => !session.weAreInitiator || session.isRunning) :
    (m.clearIdle q).Tracked := by
  unfold SessionManager.clearIdle
  split
  · exact tracked
  · rename_i session found
    split_ifs with idle
    · exact tracked
    · have other : m.initiates q = false := by
        rw [initiates, found, Option.any_some]
        rw [found, Option.all_some] at runs
        grind
      refine ⟨fun _ p => ?_, fun moving => ?_, tracked.connected, tracked.target, fun moving => ?_⟩
      · rw [initiates_stopSession]
        refine (and_iff_right_of_imp ?_).trans (tracked.flag flagged p)
        rintro initiated rfl
        cases other.symm.trans initiated
      · cases flagged.symm.trans moving
      · cases flagged.symm.trans moving

theorem Tracked.advance (tracked : m.Tracked) (kept : m.keepsTask (.loop input) = true) :
    (m.advance input).Tracked := by
  obtain ⟨sessions, direct, cur, place⟩ := m
  obtain ⟨flag, moving, connected, target, opened⟩ := id tracked
  cases place with
  | asleep => exact tracked.goto _ rfl (fun p => (List.mem_insertionSort _).mp) nofun nofun
  | listed peers => exact tracked.goto (.dropping peers _ _) rfl connected nofun nofun
  | dropping peers sessionPeers left =>
    cases left with
    | nil => exact tracked.goto (.filtering peers [] sessionPeers) rfl connected nofun nofun
    | cons q left =>
      have next := tracked.goto (.dropping peers sessionPeers left) rfl connected nofun nofun
      exact next.dropUnlessListed rfl rfl peers
  | filtering left candidates sessionPeers =>
    cases left with
    | cons q left =>
      refine tracked.goto _ rfl (fun p mem => connected p ?_) nofun nofun
      simp only [LoopPlace.choices] at mem ⊢
      grind
    | nil =>
      unfold SessionManager.advance
      dsimp only
      split
      · exact tracked.goto _ rfl nofun nofun nofun
      · rename_i dst chosen
        have there : ∀ p ∈ [dst], p ∈ direct := fun p mem => connected p
          (List.mem_append_left _ (List.mem_singleton.mp mem ▸ newInitiatorDst_mem chosen))
        split_ifs with same
        · exact tracked.goto (.unflagging dst sessionPeers) rfl there nofun nofun
        · refine tracked.goto (.clearing dst sessionPeers) rfl there (fun p mem => ?_) nofun
          cases mem
          exact (not_not.mp same).symm
  | unflagging dst sessionPeers =>
    have others (p : PeerId) (other : cur ≠ some p) :
        SessionManager.initiates ⟨sessions, direct, cur, .opening dst sessionPeers⟩ p = false :=
      Bool.eq_false_iff.mpr fun initiated => other ((flag rfl p).mp initiated)
    cases cur with
    | none => exact ⟨nofun, fun _ p => others p nofun, connected, nofun, nofun⟩
    | some c =>
      refine ⟨nofun, fun _ p => initiates_updateInitiatorFlag.trans ?_, connected, nofun, nofun⟩
      split_ifs with here
      · rfl
      · exact others p fun same => here (Option.some.inj same).symm
  | opening dst sessionPeers =>
    refine ⟨nofun, fun _ p => initiates_getOrCreateSession.trans (moving rfl p), connected,
      fun p mem => mem, fun _ p mem => ?_⟩
    cases mem
    exact congrArg Option.isSome (lookup_getOrCreateSession.trans (if_pos rfl))
  | starting dst sessionPeers =>
    have next := tracked.goto (.flagging dst sessionPeers) rfl connected target opened
    exact next.modifySession fun _ => rfl
  | flagging dst sessionPeers =>
    refine ⟨fun _ p => ?_, nofun, connected, target, nofun⟩
    have remembered : cur = some dst := target dst rfl
    have there : (sessions.lookup dst).isSome = true := opened rfl dst rfl
    have before : SessionManager.initiates ⟨sessions, direct, cur, .clearing dst sessionPeers⟩ p =
      false := moving rfl p
    refine (Eq.congr_left initiates_updateInitiatorFlag).trans ?_
    change _ ↔ cur = some p
    split_ifs with here
    · subst here
      exact iff_of_true there remembered
    · refine iff_of_false (Bool.eq_false_iff.mp before) fun same => here ?_
      exact Option.some.inj (same.symm.trans remembered)
  | clearing dst left =>
    cases left with
    | nil => exact tracked.goto .asleep rfl nofun nofun nofun
    | cons q left =>
      exact (tracked.goto (.clearing dst left) rfl connected target nofun).clearIdle rfl kept

theorem Tracked.step (tracked : m.Tracked) {event : SessionEvent} (kept : m.keepsTask event = true)
    (stepped : m.step event = some m') : m'.Tracked := by
  cases event with
  | peerJoins p =>
    cases stepped
    exact tracked.of_same (fun _ => rfl) (fun _ => id)
      (fun q mem => .tail _ (tracked.connected q mem))
      rfl rfl
  | peerLeaves p =>
    cases stepped
    refine tracked.of_same (fun _ => rfl) (fun _ => id) (fun q mem => ?_) rfl rfl
    have other : q ≠ p := fun here => of_decide_eq_true kept (here ▸ mem)
    exact List.mem_filter.mpr ⟨tracked.connected q mem, decide_eq_true other⟩
  | taskEnds p | started p | dstIsInitiator p flag | needSyncInitiatorInfo p flag =>
    cases stepped
    exact tracked.modifySession fun _ => rfl
  | opened p =>
    cases stepped
    exact tracked.getOrCreateSession
  | loop input =>
    cases stepped
    exact tracked.advance kept

/-- **One initiated session.** In every run in which no peer that an iteration may choose leaves
during the iteration, and the task of an initiated session is running when the last loop of an
iteration looks at it, an iteration that has found a candidate ends with exactly one initiated
session, and its peer is connected. -/
theorem one_initiated_session {events : List SessionEvent} {m : SessionManager}
    (kept : ∀ move ∈ moves step new events, move.1.keepsTask move.2 = true)
    (ran : final step new events = some m) {dst : PeerId} (ended : m.place = .clearing dst []) :
    m.OneInitiated := by
  have initially : new.Tracked := ⟨fun _ p => by simp [initiates, new], nofun, nofun, nofun, nofun⟩
  have tracked : m.Tracked :=
    inv_of_final (fun _ _ _ tracked kept stepped => tracked.step kept stepped) initially kept ran
  obtain ⟨flag, -, connected, target, -⟩ := tracked
  rw [ended] at flag connected target
  refine ⟨dst, connected dst List.mem_cons_self, fun q => (flag rfl q).trans ?_⟩
  rw [target dst rfl, Option.some.injEq, eq_comm]

/-- Only peer 3 has an open NAT. -/
def plainInput : LoopInput where
  sessionOrder := .stored _
  getNatType p := if p = 3 then some .openInternet else none

def loops (n : Nat) : List SessionEvent := List.replicate n (.loop plainInput)

/-- Node 1 initiates a session with its only peer; then peer 3 joins, and the session moves
there. -/
theorem initiating_moves :
    let events := .peerJoins 2 :: loops 10 ++ .peerJoins 3 :: loops 12
    ∃ m, final step new events = some m ∧ m.place = .clearing 3 [] ∧ m.OneInitiated := by
  intro events
  obtain ⟨m, ran, ended⟩ : ∃ m, final step new events = some m ∧ m.place = .clearing 3 [] :=
    ⟨_, rfl, by decide +kernel⟩
  exact ⟨m, ran, ended, one_initiated_session (by decide +kernel) ran ended⟩

/-- The task of the initiated session ends. The next iteration chooses the same peer, so it
starts nothing, and then drops the session. -/
theorem ended_task_leaves_none :
    ∃ m, final step new (.peerJoins 2 :: loops 10 ++ .taskEnds 2 :: loops 7) = some m ∧
      m.place = .clearing 2 [] ∧ ¬ m.OneInitiated := by
  obtain ⟨m, ran, ended, empty⟩ : ∃ m,
      final step new (.peerJoins 2 :: loops 10 ++ .taskEnds 2 :: loops 7) = some m ∧
        m.place = .clearing 2 [] ∧ m.sessions.entries = [] :=
    ⟨_, rfl, by decide +kernel, by decide +kernel⟩
  refine ⟨m, ran, ended, ?_⟩
  rintro ⟨p, -, only⟩
  have initiated := (only p).mpr rfl
  simp [initiates, AList.lookup, empty] at initiated

end SessionManager

end PeerLink.Sync
