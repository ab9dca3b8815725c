import PeerLink.Manager.ForeignBooks

/-!
# Runs that keep the books of the foreign network manager

A run in which every step is careful keeps the books in agreement: once no call is in flight and
no event waits, a network is booked for a peer just if the entry of the network has the peer, and
only networks with an entry have a time of the last change. What is careful is said for each step,
of the state before it. The code does not see to any of it: the runs at the end are without care.
-/

namespace PeerLink.Manager

open Schedule Best

open Route (PeerId)

/-- The entry is of the network of the connection, and has room for it. -/
def ForeignNetworkEntry.Accepts (entry : ForeignNetworkEntry) (conn : ForeignConn) (newAdded : Bool)
    (env : ForeignEnv) : Prop :=
  entry.network = conn.networkIdentity ∧ entry.myPeerId = conn.myPeerId ∧
    (newAdded = false → ∀ conns ∈ entry.peerMap.lookup conn.peerId,
      (conns.filter fun conn => !conn.2).length < env.maxDirectConns)

instance (entry : ForeignNetworkEntry) (conn : ForeignConn) (newAdded : Bool) (env : ForeignEnv) :
    Decidable (entry.Accepts conn newAdded env) :=
  inferInstanceAs (Decidable (_ ∧ _ ∧ (_ → ∀ conns ∈ entry.peerMap.lookup conn.peerId, _)))

theorem ForeignPhase.check_eq_none {entry : ForeignNetworkEntry} {conn : ForeignConn}
    {newAdded : Bool} {env : ForeignEnv} (accepts : entry.Accepts conn newAdded env) :
    ForeignPhase.check entry conn newAdded env = none := by
  obtain ⟨network, myPeerId, room⟩ := accepts
  unfold ForeignPhase.check
  rw [if_neg (by simp [network, myPeerId]), if_neg]
  cases newAdded with
  | true => simp
  | false =>
    unfold ForeignNetworkEntry.directConns
    cases lookup : entry.peerMap.lookup conn.peerId with
    | none => simp
    | some conns => simpa using room rfl conns lookup

namespace ForeignPool

/-- What a call has to find before its next operation. -/
def CarefulTurn (data : ForeignData) (conn : ForeignConn) (env : ForeignEnv) : ForeignPhase → Prop
  | .inspect e newAdded => ∀ entry ∈ data.entries[e]?, entry.Accepts conn newAdded env
  | .insert e => data.Registered conn.networkIdentity.networkName e
  | .get e => data.HasPeer e conn.peerId
  | .join e => data.Registered conn.networkIdentity.networkName e ∧ data.HasPeer e conn.peerId
  | .start | .register | .prepare _ | .lock _ _ | .look _ | .done | .failed _ | .panicked => True

/-- What the handler of an entry of network `name` has to find before its next operation. -/
def CarefulHandle (pool : ForeignPool) (name : String) : HandlerPhase → List PeerEvent → Prop
  | .idle, .peerRemoved peerId :: _ => ∀ place ∈ pool.shared.networkPeerMaps.lookup name,
      ¬ pool.shared.HasPeer place peerId ∧ ¬ pool.InFlight peerId name
  | .idle, .peerAdded _ :: _ | .stamp, _ => name ∈ pool.shared.networkPeerMaps
  | .idle, [] | .absent, _ | .ended, _ => True

def Careful (pool : ForeignPool) : ForeignEvent → Prop
  | .turn i env => ∀ call ∈ pool.tasks[i]?, CarefulTurn pool.shared call.conn env call.phase
  | .closePeer e peerId => ∀ entry ∈ pool.shared.entries[e]?,
      pool.shared.Registered entry.network.networkName e → peerId ∈ entry.peerMap →
        entry.listens = true
  | .handle e _ => ∀ entry ∈ pool.shared.entries[e]?,
      pool.CarefulHandle entry.network.networkName entry.handler entry.events
  | .addPeerConn _ | .closeConn _ _ _ | .finish _ => True

def CarefulRun : ForeignPool → List ForeignEvent → Prop
  | _, [] => True
  | pool, event :: events => pool.Careful event ∧ CarefulRun (pool.step event) events

section Decidable

instance (data : ForeignData) (conn : ForeignConn) (env : ForeignEnv) :
    DecidablePred (CarefulTurn data conn env)
  | .inspect e _ => inferInstanceAs (Decidable (∀ entry ∈ data.entries[e]?, _))
  | .insert e => inferInstanceAs (Decidable (data.Registered _ e))
  | .get e => inferInstanceAs (Decidable (data.HasPeer e conn.peerId))
  | .join e => inferInstanceAs (Decidable (_ ∧ data.HasPeer e conn.peerId))
  | .start | .register | .prepare _ | .lock _ _ | .look _ | .done | .failed _ | .panicked =>
    inferInstanceAs (Decidable True)

instance (pool : ForeignPool) (name : String) (handler : HandlerPhase) (events : List PeerEvent) :
    Decidable (pool.CarefulHandle name handler events) :=
  match handler, events with
  | .idle, .peerRemoved _ :: _ =>
    inferInstanceAs (Decidable (∀ place ∈ pool.shared.networkPeerMaps.lookup name, _))
  | .idle, .peerAdded _ :: _ | .stamp, _ =>
    inferInstanceAs (Decidable (name ∈ pool.shared.networkPeerMaps))
  | .idle, [] | .absent, _ | .ended, _ => inferInstanceAs (Decidable True)

instance (pool : ForeignPool) : DecidablePred pool.Careful
  | .turn i _ => inferInstanceAs (Decidable (∀ call ∈ pool.tasks[i]?, _))
  | .closePeer e _ =>
    inferInstanceAs (Decidable (∀ entry ∈ pool.shared.entries[e]?, _ → _ → _ = _))
  | .handle e _ => inferInstanceAs (Decidable (∀ entry ∈ pool.shared.entries[e]?, _))
  | .addPeerConn _ | .closeConn _ _ _ | .finish _ => inferInstanceAs (Decidable True)

instance CarefulRun.decidable : ∀ (pool : ForeignPool) (events : List ForeignEvent),
    Decidable (CarefulRun pool events)
  | _, [] => inferInstanceAs (Decidable True)
  | pool, event :: events =>
    have := CarefulRun.decidable (pool.step event) events
    inferInstanceAs (Decidable (_ ∧ _))

end Decidable

variable {pool : ForeignPool} {i : Nat} {call : ForeignCall} {env : ForeignEnv}

variable {data : ForeignData} {phase : ForeignPhase} {event : ForeignEvent}
  {events : List ForeignEvent}

theorem carefulRun_append {before after : List ForeignEvent} :
    CarefulRun pool (before ++ after) ↔
      CarefulRun pool before ∧ CarefulRun (pool.run before) after := by
  induction before generalizing pool with
  | nil => simp [CarefulRun, run]
  | cons event before ih => simp [CarefulRun, run, ih, and_assoc]

/-- The call has not got past the whitelist. -/
def Outside : ForeignPhase → Prop
  | .start | .failed _ => True
  | .register | .prepare _ | .lock _ _ | .inspect _ _ | .look _ | .insert _ | .get _ | .join _
  | .done | .panicked => False

/-- What a careful operation of a call is: one that is of no concern to the books, the one that
books the network, or one that adds the connection to the entry of the network. -/
theorem operate_cases (balanced : pool.Balanced) (here : pool.tasks[i]? = some call)
    (careful : CarefulTurn pool.shared call.conn env call.phase)
    (operates : call.phase.operate pool.shared i call.conn env = (data, phase)) :
    (Alike pool.shared data ∧ phase.entry = call.phase.entry ∧
        (phase = .done → call.phase = .done) ∧ (Outside phase → Outside call.phase)) ∨
      (∃ e newAdded, pool.shared.getOrInsertEntry call.conn env.now = (data, e, newAdded) ∧
        phase.entry = some e) ∨
      ∃ e f, call.phase.entry = some e ∧ phase = .done ∧ data = pool.shared.modify e f ∧
        pool.shared.Registered call.conn.networkIdentity.networkName e ∧
        (∀ entry, (f entry).network = entry.network) ∧
        (∀ entry, entry.listens = true →
          (f entry).listens = true ∧ ∀ event ∈ entry.events, event ∈ (f entry).events) ∧
        ∀ entry, pool.shared.entries[e]? = some entry →
          (∀ peerId, peerId ∈ (f entry).peerMap ↔
            peerId = call.conn.peerId ∨ peerId ∈ entry.peerMap) ∧
          ∃ conns, (f entry).peerMap.lookup call.conn.peerId = some conns ∧
            (i, call.conn.isHolePunched) ∈ conns := by
  obtain ⟨conn, phase⟩ := call
  cases phase with
  | start =>
    simp only [ForeignPhase.operate] at operates
    split at operates <;> cases operates
    · exact .inl ⟨.refl _, rfl, nofun, fun _ => trivial⟩
    · exact .inl ⟨.refl _, rfl, nofun, False.elim⟩
  | register =>
    simp only [ForeignPhase.operate] at operates
    rcases registers : pool.shared.getOrInsertEntry conn env.now with ⟨data, e, _ | _⟩
    all_goals
      rw [registers] at operates
      cases operates
      exact .inr (.inl ⟨e, _, rfl, rfl⟩)
  | prepare e | panicked =>
    cases operates
    exact .inl ⟨.refl _, rfl, nofun, False.elim⟩
  | lock e newAdded =>
    simp only [ForeignPhase.operate] at operates
    split at operates <;> cases operates
    · exact .inl ⟨.refl _, rfl, nofun, False.elim⟩
    · exact .inl ⟨.modify (fun _ => rfl) (fun _ _ => Iff.rfl)
        fun _ _ listens => ⟨listens, fun _ mem => mem⟩, rfl, nofun, False.elim⟩
  | inspect e newAdded =>
    obtain ⟨entry, found, -⟩ := balanced.works i _ e here rfl
    simp only [ForeignPhase.operate, found, ForeignPhase.check_eq_none (careful entry found)]
      at operates
    split at operates <;> cases operates
    · exact .inl ⟨.modify (fun _ => rfl) (fun _ _ => Iff.rfl) fun _ _ _ => ⟨rfl, fun _ mem => mem⟩,
        rfl, nofun, False.elim⟩
    · exact .inl ⟨.refl _, rfl, nofun, False.elim⟩
  | look e =>
    simp only [ForeignPhase.operate] at operates
    split at operates
    all_goals
      cases operates
      exact .inl ⟨.refl _, rfl, nofun, False.elim⟩
  | insert e =>
    cases operates
    refine .inr (.inr ⟨e, _, rfl, rfl, rfl, careful, fun entry => ?_, fun entry listens => ?_,
      fun entry found => ⟨fun peerId => ?_, ?_⟩⟩)
    · exact ForeignNetworkEntry.issueEvent_network
    · obtain ⟨heard, events⟩ := ForeignNetworkEntry.issueEvent_heard
        (show ({ entry with
          peerMap := entry.peerMap.insert conn.peerId [(i, conn.isHolePunched)]
          locked := false } : ForeignNetworkEntry).listens = true from listens)
      exact ⟨heard, fun event mem => events ▸ List.mem_append_left _ mem⟩
    · rw [ForeignNetworkEntry.issueEvent_peerMap]
      exact AList.mem_insert _
    · rw [ForeignNetworkEntry.issueEvent_peerMap]
      exact ⟨_, AList.lookup_insert _, List.mem_cons_self⟩
  | get e =>
    obtain ⟨entry, found, mem⟩ := careful
    simp only [ForeignPhase.operate, found] at operates
    rw [if_pos (by simpa using mem)] at operates
    cases operates
    exact .inl ⟨.refl _, rfl, nofun, False.elim⟩
  | join e =>
    cases operates
    obtain ⟨known, old, there, peer⟩ := careful
    refine .inr (.inr ⟨e, _, rfl, rfl, rfl, known, fun entry => rfl,
      fun entry listens => ⟨listens, fun event mem => mem⟩, fun entry found => ?_⟩)
    cases there.symm.trans found
    obtain ⟨conns, lookup⟩ := mem_iff_lookup.mp peer
    rw [lookup]
    exact ⟨fun peerId => AList.mem_insert _, _, AList.lookup_insert _, List.mem_cons_self⟩
  | done =>
    cases operates
    exact .inl ⟨.refl _, rfl, id, False.elim⟩
  | failed error =>
    cases operates
    exact .inl ⟨.refl _, rfl, nofun, fun _ => trivial⟩

theorem step_turn (here : pool.tasks[i]? = some call)
    (operates : call.phase.operate pool.shared i call.conn env = (data, phase)) :
    pool.step (.turn i env) = pool.turn i data { call with phase } := by
  simp [step, here, operates]

section
variable (balanced : pool.Balanced)
include balanced

theorem Balanced.turn (careful : pool.Careful (.turn i env)) :
    (pool.step (.turn i env)).Balanced := by
  cases here : pool.tasks[i]? with
  | none =>
    simp only [ForeignPool.step, here]
    exact balanced
  | some call =>
    rcases operates : call.phase.operate pool.shared i call.conn env with ⟨data, phase⟩
    rw [step_turn here operates]
    obtain ⟨alike, same, -⟩ | ⟨e, newAdded, registers, works⟩ |
        ⟨e, f, works, rfl, rfl, known, network, events, peers⟩ :=
      operate_cases balanced here (careful call here) operates
    · exact balanced.quiet here alike same
    · exact balanced.register here registers works
    · exact balanced.adds here works known network
        (fun entry peerId found => (peers entry found).1 peerId) events

theorem Balanced.handle {e now : Nat} (careful : pool.Careful (.handle e now)) :
    (pool.step (.handle e now)).Balanced := by
  show Balanced (pool.change (ForeignPool.handle pool.shared e now))
  unfold ForeignPool.handle
  split
  · exact balanced
  · rename_i entry found
    have careful := careful entry found
    split
    · rename_i peerId events handler head
      rw [handler, head] at careful
      exact balanced.removePeer found head careful
    · rename_i peerId events handler head
      rw [handler, head] at careful
      refine Balanced.stamp (balanced.change (.modify ?_ ?_ ?_)) careful now
      · exact fun _ => rfl
      · exact fun _ _ => Iff.rfl
      · intro old here listens
        cases found.symm.trans here
        refine ⟨listens, fun other mem => ?_⟩
        rw [head] at mem
        obtain handled | rest := List.mem_cons.mp mem
        · cases handled
        · exact rest
    · rename_i handler
      rw [handler] at careful
      refine Balanced.stamp (balanced.change (.modify ?_ ?_ ?_)) careful now
      · exact fun _ => rfl
      · exact fun _ _ => Iff.rfl
      · exact fun _ _ _ => ⟨rfl, fun _ mem => mem⟩
    · exact balanced

theorem Balanced.step (careful : pool.Careful event) : (pool.step event).Balanced := by
  cases event with
  | addPeerConn conn => exact balanced.spawn conn
  | turn i env => exact balanced.turn careful
  | closeConn e peerId i => exact balanced.closeConn e peerId i
  | closePeer e peerId => exact balanced.closePeer careful
  | handle e now => exact balanced.handle careful
  | finish e =>
    show Balanced (pool.change (ForeignPool.finish pool.shared e))
    unfold ForeignPool.finish
    split
    · exact balanced
    · split
      · exact balanced.removeNetwork ‹_›
      · exact balanced

theorem Balanced.run (careful : CarefulRun pool events) : (pool.run events).Balanced := by
  induction events generalizing pool with
  | nil => exact balanced
  | cons event events ih => exact ih (balanced.step careful.1) careful.2

end

theorem Outside.operate (outside : Outside phase) (data : ForeignData)
    (i : Nat) (conn : ForeignConn) (env : ForeignEnv) :
    (phase.operate data i conn env).1 = data := by
  cases phase with
  | start =>
    simp only [ForeignPhase.operate]
    split <;> rfl
  | failed error => rfl
  | register | prepare | lock | inspect | look | insert | get | join | done | panicked =>
    cases outside

/-- A call that is past the whitelist does not fail in a careful step. -/
theorem step_inside (balanced : pool.Balanced) (careful : pool.Careful event)
    (here : pool.tasks[i]? = some call) (inside : ¬ Outside call.phase) :
    ∃ call', (pool.step event).tasks[i]? = some call' ∧ ¬ Outside call'.phase := by
  cases event with
  | addPeerConn conn =>
    exact ⟨call, Pool.spawn_other here, inside⟩
  | turn j env =>
    cases found : pool.tasks[j]? with
    | none =>
      simp only [step, found]
      exact ⟨call, here, inside⟩
    | some other =>
      rcases operates : other.phase.operate pool.shared j other.conn env with ⟨data, phase⟩
      rw [step_turn found operates]
      by_cases same : j = i
      · subst same
        cases here.symm.trans found
        refine ⟨_, Pool.turn_self here, fun outside => ?_⟩
        obtain ⟨-, -, -, back⟩ | ⟨e, newAdded, -, works⟩ | ⟨e, f, -, rfl, -⟩ :=
          operate_cases balanced here (careful call here) operates
        · exact inside (back outside)
        · cases phase with
          | start | failed => cases works
          | _ => exact outside
        · exact outside
      · exact ⟨call, (Pool.turn_other same).trans here, inside⟩
  | closeConn | closePeer | handle | finish => exact ⟨call, here, inside⟩

theorem run_inside (balanced : pool.Balanced)
    (careful : CarefulRun pool events) (here : pool.tasks[i]? = some call)
    (inside : ¬ Outside call.phase) :
    ∃ call', (pool.run events).tasks[i]? = some call' ∧ ¬ Outside call'.phase := by
  induction events generalizing pool call with
  | nil => exact ⟨call, here, inside⟩
  | cons event events ih =>
    obtain ⟨call', here', inside'⟩ := step_inside balanced careful.1 here inside
    exact ih (balanced.step careful.1) careful.2 here' inside'

end ForeignPool

/-- The connection of call `i` belongs to the entry that its network has. -/
def ForeignData.Holds (data : ForeignData) (i : Nat) (conn : ForeignConn) : Prop :=
  ∃ (e : Nat) (entry : ForeignNetworkEntry) (conns : List (Nat × Bool)),
    data.Registered conn.networkIdentity.networkName e ∧ data.entries[e]? = some entry ∧
      entry.peerMap.lookup conn.peerId = some conns ∧ (i, conn.isHolePunched) ∈ conns

def ForeignPhase.ended : ForeignPhase → Bool
  | .done | .failed _ | .panicked => true
  | .start | .register | .prepare _ | .lock _ _ | .inspect _ _ | .look _ | .insert _ | .get _
  | .join _ => false

namespace ForeignPool

/-- Every call has ended, and no event waits for a handler. -/
def Settled (pool : ForeignPool) : Prop :=
  (∀ call ∈ pool.tasks, call.phase.ended = true) ∧
    ∀ entry ∈ pool.shared.entries, entry.listens = true → entry.events = []

instance (pool : ForeignPool) : Decidable pool.Settled :=
  inferInstanceAs (Decidable ((∀ call ∈ pool.tasks, _) ∧ ∀ entry ∈ pool.shared.entries, _ → _))

variable {pool : ForeignPool} {i : Nat} {call : ForeignCall} {env : ForeignEnv}

theorem Balanced.booked_iff (balanced : pool.Balanced) (settled : pool.Settled) (peerId : PeerId)
    (name : String) : (peerId, name) ∈ pool.shared.peerNetworkMap ↔
      ∃ e, pool.shared.Registered name e ∧ pool.shared.HasPeer e peerId := by
  constructor
  · intro booked
    obtain present | ⟨j, call, e, found, works, -⟩ | ⟨e, entry, found, -, listens, waits⟩ :=
      balanced.owed peerId name booked
    · exact present
    · have ended := settled.1 call (List.mem_of_getElem? found)
      generalize call.phase = phase at works ended
      cases phase with
      | done | failed | panicked => cases works
      | _ => cases ended
    · rw [settled.2 entry (List.mem_of_getElem? found) listens] at waits
      cases waits
  · rintro ⟨e, known, peer⟩
    exact balanced.present name e peerId known peer

/-- A call that succeeds has its connection in the entry of the network. -/
theorem holds_of_done (balanced : pool.Balanced) (careful : pool.Careful (.turn i env))
    (here : pool.tasks[i]? = some call) (busy : call.phase ≠ .done) {call' : ForeignCall}
    (after : (pool.step (.turn i env)).tasks[i]? = some call') (done : call'.phase = .done) :
    (pool.step (.turn i env)).shared.Holds i call.conn := by
  rcases operates : call.phase.operate pool.shared i call.conn env with ⟨data, phase⟩
  rw [step_turn here operates] at after ⊢
  obtain ⟨-, rfl⟩ | ⟨other, -⟩ := Pool.getElem?_turn after
  · obtain ⟨-, -, back, -⟩ | ⟨e, newAdded, -, works⟩ | ⟨e, f, works, -, rfl, known, -, -, peers⟩ :=
      operate_cases balanced here (careful call here) operates
    · exact absurd (back done) busy
    · rw [show phase = .done from done] at works
      cases works
    · obtain ⟨entry, found, -⟩ := balanced.works i call e here works
      obtain ⟨-, conns, lookup, mem⟩ := peers entry found
      refine ⟨e, f entry, conns, known, ?_, lookup, mem⟩
      exact (ForeignData.getElem?_modify_of found).trans (by rw [if_pos rfl])
  · exact absurd rfl other

/-- **The books agree after careful runs.** Once all calls have ended and no event waits, a network
is booked for a peer just if the entry that the network has has the peer. Only networks with an
entry have a time of the last change. No operation of a call that fails changes anything, and a
call that succeeds has its connection in the entry of its network. -/
theorem foreign_books_consistent (events : List ForeignEvent) (careful : CarefulRun new events) :
    ((new.run events).Settled → ∀ peerId name,
      (peerId, name) ∈ (new.run events).shared.peerNetworkMap ↔
        ∃ e, (new.run events).shared.Registered name e ∧ (new.run events).shared.HasPeer e peerId) ∧
      (∀ name ∈ (new.run events).shared.networkPeerLastUpdate,
        name ∈ (new.run events).shared.networkPeerMaps) ∧
      ∀ before i env after, events = before ++ .turn i env :: after →
        (∀ call error, (new.run events).tasks[i]? = some call → call.phase = .failed error →
          ((new.run before).step (.turn i env)).shared = (new.run before).shared) ∧
        ∀ call call', (new.run before).tasks[i]? = some call → call.phase ≠ .done →
          ((new.run before).step (.turn i env)).tasks[i]? = some call' → call'.phase = .done →
            ((new.run before).step (.turn i env)).shared.Holds i call.conn := by
  have balanced := Balanced.new.run careful
  refine ⟨fun settled => balanced.booked_iff settled, fun name stamped => ?_, ?_⟩
  · obtain ⟨e, known⟩ := balanced.stamped name stamped
    exact mem_iff_lookup.mpr ⟨_, known⟩
  · rintro before i env after rfl
    obtain ⟨carefulBefore, carefulRest⟩ := carefulRun_append.mp careful
    have balancedBefore := Balanced.new.run carefulBefore
    refine ⟨fun call error last failed => ?_, fun call call' here busy there done => ?_⟩
    · cases here : (new.run before).tasks[i]? with
      | none => simp [step, here]
      | some first =>
        -- a call that is inside the whitelist would not have failed
        have outside : Outside first.phase := by
          by_contra inside
          obtain ⟨call', found, still⟩ := run_inside balancedBefore carefulRest here inside
          rw [run, run, ← List.foldl_append] at found
          cases last.symm.trans found
          exact still (failed ▸ trivial)
        rcases operates : first.phase.operate (new.run before).shared i first.conn env with
          ⟨data, phase⟩
        rw [step_turn here operates]
        have same := outside.operate (new.run before).shared i first.conn env
        rw [operates] at same
        exact same
    · exact holds_of_done balancedBefore carefulRest.1 here busy there done

section Runs

/-- A connection of a peer to network `net`; `secret` stands for the secret that the peer has. -/
def netConn (peerId : PeerId) (secret : UInt8) : ForeignConn :=
  ⟨peerId, 9, ⟨"net", List.replicate 32 secret⟩, false⟩

def netEnv (now : Nat) : ForeignEnv := ⟨true, false, 3, now⟩

/-- The first peer makes the network, with nobody else about. -/
def firstJoins : List ForeignEvent :=
  [[.addPeerConn (netConn 1 1)], List.replicate 7 (.turn 0 (netEnv 10)), [.handle 0 11]].flatten

/-- A second peer joins, a connection from outside the whitelist is refused, and the first peer
leaves. -/
def firstLeaves : List ForeignEvent :=
  [firstJoins, [.addPeerConn (netConn 2 1)], List.replicate 6 (.turn 1 (netEnv 20)),
    [.addPeerConn (netConn 3 1), .turn 2 ⟨false, false, 3, 25⟩, .closeConn 0 1 0, .closePeer 0 1,
      .handle 0 30, .handle 0 31, .handle 0 32]].flatten

theorem one_leaves_one_stays :
    CarefulRun new firstLeaves ∧ (new.run firstLeaves).Settled ∧
      (2, "net") ∈ (new.run firstLeaves).shared.peerNetworkMap ∧
      (1, "net") ∉ (new.run firstLeaves).shared.peerNetworkMap ∧
      (new.run firstLeaves).tasks.map (·.phase) = [.done, .done, .failed .notInWhitelist] ∧
      (∃ e, (new.run firstLeaves).shared.Registered "net" e ∧
        (new.run firstLeaves).shared.HasPeer e 2) ∧
      ∀ name ∈ (new.run firstLeaves).shared.networkPeerLastUpdate,
        name ∈ (new.run firstLeaves).shared.networkPeerMaps := by
  have careful : CarefulRun new firstLeaves := by decide +kernel
  have settled : (new.run firstLeaves).Settled := by decide +kernel
  have booked : (2, "net") ∈ (new.run firstLeaves).shared.peerNetworkMap := by decide +kernel
  obtain ⟨agree, stamped, -⟩ := foreign_books_consistent firstLeaves careful
  exact ⟨careful, settled, booked, by decide +kernel, by decide +kernel,
    (agree settled 2 "net").mp booked, stamped⟩

/-- The last peer leaves, and its network with it; the handler notes the time all the same. -/
def lastLeaves : List ForeignEvent :=
  firstJoins ++ [.closeConn 0 1 0, .closePeer 0 1, .handle 0 20, .handle 0 21]

/-- A peer with another secret is refused after its network has been booked. -/
def strangerRefused : List ForeignEvent :=
  [firstJoins, [.addPeerConn (netConn 2 2)], List.replicate 4 (.turn 1 (netEnv 20))].flatten

/-- The entry of a network goes while a call is about to add a connection to it. -/
def entryGone : List ForeignEvent :=
  [firstJoins, [.addPeerConn (netConn 2 1)], List.replicate 2 (.turn 1 (netEnv 20)),
    [.closeConn 0 1 0, .closePeer 0 1, .handle 0 21, .handle 0 22],
    List.replicate 4 (.turn 1 (netEnv 23)), [.handle 0 24]].flatten

theorem foreign_books_disagree :
    ((new.run lastLeaves).Settled ∧ "net" ∈ (new.run lastLeaves).shared.networkPeerLastUpdate ∧
        "net" ∉ (new.run lastLeaves).shared.networkPeerMaps) ∧
      ((new.run strangerRefused).Settled ∧
        (new.run strangerRefused).tasks.map (·.phase) = [.done, .failed .networkSecretNotMatch] ∧
        (2, "net") ∈ (new.run strangerRefused).shared.peerNetworkMap ∧
        (2, "net") ∉ (new.run firstJoins).shared.peerNetworkMap ∧
        (new.run strangerRefused).shared.Registered "net" 0 ∧
        ¬ (new.run strangerRefused).shared.HasPeer 0 2 ∧
        (new.run firstJoins).shared.networkPeerLastUpdate.lookup "net" = some 11 ∧
        (new.run strangerRefused).shared.networkPeerLastUpdate.lookup "net" = some 20) ∧
      (new.run entryGone).Settled ∧ (new.run entryGone).tasks.map (·.phase) = [.done, .done] ∧
        "net" ∉ (new.run entryGone).shared.networkPeerMaps ∧
        (new.run entryGone).shared.HasPeer 0 2 := by
  decide +kernel

end Runs

end ForeignPool

end PeerLink.Manager
