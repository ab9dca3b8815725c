import PeerLink.Manager.ForeignNetworks

/-!
# What is owed to the books of the foreign network manager

While calls are in flight and events wait, the books do not agree with the entries. `Balanced` says
by how much they may differ: a network that is booked for a peer is one whose entry has the peer,
or one that a call has booked and not yet joined, or one that a handler still has to take out.
There is a lemma for each kind of change, with what has to hold before it.
-/

namespace PeerLink.Manager

open Schedule Best

open Route (PeerId)

namespace ForeignNetworkEntry

variable {entry : ForeignNetworkEntry} {event : PeerEvent}

variable {peerId : PeerId} {i : Nat}

@[simp]
theorem issueEvent_network : (entry.issueEvent event).network = entry.network := by
  unfold issueEvent
  split <;> rfl

@[simp]
theorem issueEvent_peerMap : (entry.issueEvent event).peerMap = entry.peerMap := by
  unfold issueEvent
  split <;> rfl

theorem issueEvent_heard (listens : entry.listens = true) :
    (entry.issueEvent event).listens = true ∧
      (entry.issueEvent event).events = entry.events ++ [event] := by
  unfold issueEvent
  rw [if_pos listens]
  exact ⟨listens, rfl⟩

theorem removeConn_network :
    (entry.removeConn peerId i).network = entry.network := by
  unfold removeConn
  split <;> rfl

theorem mem_removeConn {other : PeerId} :
    other ∈ (entry.removeConn peerId i).peerMap ↔ other ∈ entry.peerMap := by
  unfold removeConn
  split
  · rename_i conns found
    rw [AList.mem_insert, or_iff_right_of_imp]
    rintro rfl
    exact mem_iff_lookup.mpr ⟨_, found⟩
  · exact Iff.rfl

theorem removeConn_heard :
    (entry.removeConn peerId i).listens = entry.listens ∧
      (entry.removeConn peerId i).events = entry.events := by
  unfold removeConn
  split <;> exact ⟨rfl, rfl⟩

end ForeignNetworkEntry

namespace ForeignData

variable (data : ForeignData) (e : Nat) (peerId : PeerId) (name : String)

def Registered (e : Nat) : Prop :=
  data.networkPeerMaps.lookup name = some e

def Named : Prop :=
  ∃ entry, data.entries[e]? = some entry ∧ entry.network.networkName = name

def HasPeer : Prop :=
  ∃ entry, data.entries[e]? = some entry ∧ peerId ∈ entry.peerMap

instance (e : Nat) : Decidable (data.Registered name e) :=
  inferInstanceAs (Decidable (_ = _))

instance : Decidable (data.HasPeer e peerId) :=
  inferInstanceAs (Decidable (∃ entry ∈ data.entries[e]?, peerId ∈ entry.peerMap))

/-- A handler still has to take the peer out of the books. -/
def Awaited : Prop :=
  ∃ (e : Nat) (entry : ForeignNetworkEntry), data.entries[e]? = some entry ∧
    entry.network.networkName = name ∧ entry.listens = true ∧ .peerRemoved peerId ∈ entry.events

variable {data : ForeignData} {e e' : Nat} {name : String} {peerId : PeerId}
  {f : ForeignNetworkEntry → ForeignNetworkEntry}

theorem getElem?_modify_of {entry : ForeignNetworkEntry} (found : data.entries[e']? = some entry) :
    (data.modify e f).entries[e']? = some (if e = e' then f entry else entry) := by
  simp only [modify, List.getElem?_modify, found]
  split <;> rfl

theorem hasPeer_modify_iff : (data.modify e f).HasPeer e' peerId ↔
    ∃ old, data.entries[e']? = some old ∧ peerId ∈ (if e = e' then f old else old).peerMap := by
  simp [HasPeer, modify, List.getElem?_modify]

theorem Named.modify (named : data.Named e' name)
    (same : ∀ entry, (f entry).network = entry.network) : (data.modify e f).Named e' name := by
  obtain ⟨entry, found, mine⟩ := named
  refine ⟨_, getElem?_modify_of found, ?_⟩
  split
  · rw [same]
    exact mine
  · exact mine

theorem Named.same {other : String} (one : data.Named e name) (two : data.Named e other) :
    name = other := by
  obtain ⟨entry, found, rfl⟩ := one
  obtain ⟨entry', found', rfl⟩ := two
  cases found.symm.trans found'
  rfl

theorem hasPeer_modify (same : ∀ entry, peerId ∈ (f entry).peerMap ↔ peerId ∈ entry.peerMap) :
    (data.modify e f).HasPeer e' peerId ↔ data.HasPeer e' peerId := by
  refine hasPeer_modify_iff.trans (exists_congr fun old => and_congr_right fun _ => ?_)
  split
  · exact same old
  · exact Iff.rfl

/-- A change of an entry that drops none of the events that the handler waits for. -/
theorem Awaited.modify (awaited : data.Awaited peerId name)
    (same : ∀ entry, (f entry).network = entry.network)
    (kept : ∀ entry, data.entries[e]? = some entry → entry.listens = true →
      .peerRemoved peerId ∈ entry.events →
        (f entry).listens = true ∧ .peerRemoved peerId ∈ (f entry).events) :
    (data.modify e f).Awaited peerId name := by
  obtain ⟨place, entry, found, mine, listens, mem⟩ := awaited
  refine ⟨place, _, getElem?_modify_of found, ?_⟩
  split_ifs with here
  · exact ⟨same entry ▸ mine, kept entry (here ▸ found) listens mem⟩
  · exact ⟨mine, listens, mem⟩

/-- What `get_or_insert_entry` does to the books: the network has the entry that is returned, and
that one is the entry it had, or a new one without peers. -/
theorem getOrInsertEntry_spec {conn : ForeignConn} {now : Nat}
    (named : ∀ name e, data.Registered name e → data.Named e name) :
    let name := conn.networkIdentity.networkName
    let (data', e, _) := data.getOrInsertEntry conn now
    (∀ other place, data'.Registered other place ↔
        if other = name then place = e else data.Registered other place) ∧
      data'.peerNetworkMap = insert (conn.peerId, name) data.peerNetworkMap ∧
      data'.networkPeerLastUpdate = data.networkPeerLastUpdate.insert name now ∧
      (∀ place other, data.Named place other → data'.Named place other) ∧ data'.Named e name ∧
      (∀ place peerId, data'.HasPeer place peerId ↔ data.HasPeer place peerId) ∧
      (∀ peerId other, data.Awaited peerId other → data'.Awaited peerId other) ∧
      (data.Registered name e ∨
        (∀ place, ¬ data.Registered name place) ∧ data.entries.length ≤ e) := by
  unfold getOrInsertEntry
  dsimp only
  cases found : data.networkPeerMaps.lookup conn.networkIdentity.networkName with
  | some e =>
    refine ⟨fun other place => ?_, rfl, rfl, fun _ _ h => h, named _ e found, fun _ _ => Iff.rfl,
      fun _ _ h => h, .inl found⟩
    split_ifs with same
    · subst same
      unfold Registered
      rw [show _ = some e from found, Option.some.injEq]
      exact eq_comm
    · exact Iff.rfl
  | none =>
    have kept {place : Nat} {entry new : ForeignNetworkEntry}
        (there : data.entries[place]? = some entry) :
        (data.entries ++ [new])[place]? = some entry :=
      (List.getElem?_append_left (List.getElem?_eq_some_iff.mp there).1).trans there
    refine ⟨fun other place => ?_, rfl, rfl, ?_, ?_, fun place peerId => ?_, ?_,
      .inr ⟨fun place known => ?_, le_rfl⟩⟩
    · unfold Registered
      split_ifs with same
      · subst same
        rw [AList.lookup_insert, Option.some.injEq]
        exact eq_comm
      · rw [AList.lookup_insert_ne same]
    · rintro place other ⟨entry, there, mine⟩
      exact ⟨entry, kept there, mine⟩
    · exact ⟨_, List.getElem?_concat_length, rfl⟩
    · constructor
      · rintro ⟨entry, there, mem⟩
        rw [List.getElem?_append] at there
        split at there
        · exact ⟨entry, there, mem⟩
        · rw [List.getElem?_singleton] at there
          split at there
          · cases there
            exact absurd mem (AList.notMem_empty _)
          · cases there
      · rintro ⟨entry, there, mem⟩
        exact ⟨entry, kept there, mem⟩
    · rintro peerId other ⟨place, entry, there, rest⟩
      exact ⟨place, entry, kept there, rest⟩
    · cases found.symm.trans known

theorem removePeer_spec (data : ForeignData) (peerId : PeerId) (name : String) :
    (data.removePeer peerId name).entries = data.entries ∧
      (data.removePeer peerId name).peerNetworkMap = data.peerNetworkMap.erase (peerId, name) ∧
      ((data.removePeer peerId name).networkPeerMaps = data.networkPeerMaps ∧
          (data.removePeer peerId name).networkPeerLastUpdate = data.networkPeerLastUpdate ∨
        (data.removePeer peerId name).networkPeerMaps = data.networkPeerMaps.erase name ∧
          (data.removePeer peerId name).networkPeerLastUpdate =
            data.networkPeerLastUpdate.erase name ∧
          ∀ e other, data.Registered name e → ¬ data.HasPeer e other) := by
  unfold removePeer
  dsimp only
  cases known : data.networkPeerMaps.lookup name with
  | none => exact ⟨rfl, rfl, .inl ⟨rfl, rfl⟩⟩
  | some e =>
    dsimp only
    split_ifs with empty
    · refine ⟨rfl, rfl, .inr ⟨rfl, rfl, ?_⟩⟩
      rintro place other found ⟨entry, there, mem⟩
      cases known.symm.trans found
      rw [there, Option.any_some, List.isEmpty_iff] at empty
      rw [AList.mem_keys, empty] at mem
      cases mem
    · exact ⟨rfl, rfl, .inl ⟨rfl, rfl⟩⟩

end ForeignData

namespace ForeignPool

variable (pool : ForeignPool)

/-- A call has booked the network for the peer, and has not ended. -/
def InFlight (peerId : PeerId) (name : String) : Prop :=
  ∃ (i : Nat) (call : ForeignCall) (e : Nat), pool.tasks[i]? = some call ∧
    call.phase.entry = some e ∧ call.conn.peerId = peerId ∧
    call.conn.networkIdentity.networkName = name

instance (peerId : PeerId) (name : String) : Decidable (pool.InFlight peerId name) :=
  decidable_of_iff (∃ call ∈ pool.tasks, call.phase.entry.isSome = true ∧
      call.conn.peerId = peerId ∧ call.conn.networkIdentity.networkName = name) <| by
    simp only [InFlight, List.mem_iff_getElem?, Option.isSome_iff_exists]
    grind

/-- The books are in order but for what calls and events still owe. -/
structure Balanced : Prop where
  named : ∀ name e, pool.shared.Registered name e → pool.shared.Named e name
  works : ∀ (i : Nat) (call : ForeignCall) (e : Nat), pool.tasks[i]? = some call →
    call.phase.entry = some e → pool.shared.Named e call.conn.networkIdentity.networkName
  booked : ∀ (i : Nat) (call : ForeignCall) (e : Nat), pool.tasks[i]? = some call →
    call.phase.entry = some e →
      pool.shared.Registered call.conn.networkIdentity.networkName e →
        (call.conn.peerId, call.conn.networkIdentity.networkName) ∈ pool.shared.peerNetworkMap
  owed : ∀ peerId name, (peerId, name) ∈ pool.shared.peerNetworkMap →
    (∃ e, pool.shared.Registered name e ∧ pool.shared.HasPeer e peerId) ∨
      pool.InFlight peerId name ∨ pool.shared.Awaited peerId name
  present : ∀ name e peerId, pool.shared.Registered name e → pool.shared.HasPeer e peerId →
    (peerId, name) ∈ pool.shared.peerNetworkMap
  stamped : ∀ name, name ∈ pool.shared.networkPeerLastUpdate →
    ∃ e, pool.shared.Registered name e

theorem Balanced.new : new.Balanced where
  named := nofun
  works := nofun
  booked := nofun
  owed := nofun
  present := nofun
  stamped := nofun

variable {pool : ForeignPool} {i e : Nat} {call : ForeignCall} {data : ForeignData}
  {phase : ForeignPhase} {entry : ForeignNetworkEntry}

/-- What is in flight stays so after a turn of call `i`, unless it is that call and it has ended. -/
theorem InFlight.turn {peerId : PeerId} {name : String} (flight : pool.InFlight peerId name)
    (here : pool.tasks[i]? = some call) (data : ForeignData) (phase : ForeignPhase) :
    (call.conn.peerId = peerId ∧ call.conn.networkIdentity.networkName = name ∧
        (∃ e, call.phase.entry = some e) ∧ phase.entry = none) ∨
      InFlight (pool.turn i data { call with phase }) peerId name := by
  obtain ⟨j, other, e, found, works, mine⟩ := flight
  by_cases same : i = j
  · subst same
    cases here.symm.trans found
    cases now : phase.entry with
    | none => exact .inl ⟨mine.1, mine.2, ⟨e, works⟩, rfl⟩
    | some e' =>
      refine .inr ⟨i, { call with phase }, e', ?_, now, mine⟩
      exact Pool.turn_self here
  · exact .inr ⟨j, other, e, (Pool.turn_other same).trans found, works, mine⟩

/-- Two states whose books are the same, and whose entries have the same names and peers. -/
structure Alike (data data' : ForeignData) : Prop where
  maps : data'.networkPeerMaps = data.networkPeerMaps
  networks : data'.peerNetworkMap = data.peerNetworkMap
  update : data'.networkPeerLastUpdate = data.networkPeerLastUpdate
  named : ∀ e name, data.Named e name → data'.Named e name
  peers : ∀ e peerId, data'.HasPeer e peerId ↔ data.HasPeer e peerId
  awaited : ∀ peerId name, data.Awaited peerId name → data'.Awaited peerId name

theorem Alike.refl (data : ForeignData) : Alike data data :=
  ⟨rfl, rfl, rfl, fun _ _ h => h, fun _ _ => Iff.rfl, fun _ _ h => h⟩

/-- A change of an entry that is of no concern to the books. -/
theorem Alike.modify {f : ForeignNetworkEntry → ForeignNetworkEntry}
    (network : ∀ entry, (f entry).network = entry.network)
    (peers : ∀ entry peerId, peerId ∈ (f entry).peerMap ↔ peerId ∈ entry.peerMap)
    (kept : ∀ entry, data.entries[e]? = some entry → entry.listens = true →
      (f entry).listens = true ∧
        ∀ peerId, .peerRemoved peerId ∈ entry.events → .peerRemoved peerId ∈ (f entry).events) :
    Alike data (data.modify e f) where
  maps := rfl
  networks := rfl
  update := rfl
  named _ _ named := named.modify network
  peers _ _ := ForeignData.hasPeer_modify fun entry => peers entry _
  awaited _ _ awaited := awaited.modify network fun entry found listening mem =>
    ⟨(kept entry found listening).1, (kept entry found listening).2 _ mem⟩

variable (balanced : pool.Balanced)
include balanced

/-- The call books the network for its peer. -/
theorem Balanced.register (here : pool.tasks[i]? = some call) {now : Nat} {newAdded : Bool}
    (registers : pool.shared.getOrInsertEntry call.conn now = (data, e, newAdded))
    (works : phase.entry = some e) : Balanced (pool.turn i data { call with phase }) := by
  have spec := @ForeignData.getOrInsertEntry_spec pool.shared call.conn now balanced.named
  rw [registers] at spec
  obtain ⟨registered, networks, update, named, own, peers, awaited, place⟩ := spec
  constructor
  · intro name e' found
    have found := (registered name e').mp found
    split_ifs at found with same
    · rw [same, found]
      exact own
    · exact named e' name (balanced.named name e' found)
  · intro j other e' found works'
    obtain ⟨rfl, rfl⟩ | ⟨-, old⟩ := Pool.getElem?_turn found
    · cases works.symm.trans works'
      exact own
    · exact named e' _ (balanced.works j other e' old works')
  · intro j other e' found works' known
    show _ ∈ data.peerNetworkMap
    rw [networks]
    obtain ⟨rfl, rfl⟩ | ⟨-, old⟩ := Pool.getElem?_turn found
    · exact Finset.mem_insert_self _ _
    · refine Finset.mem_insert_of_mem (balanced.booked j other e' old works' ?_)
      have known := (registered _ e').mp known
      split at known
      · -- an entry that is new is not the one of an earlier call
        rename_i same
        obtain before | ⟨-, fresh⟩ := place
        · rw [same, known]
          exact before
        · obtain ⟨_, there, -⟩ := balanced.works j other e' old works'
          exact absurd (List.getElem?_eq_some_iff.mp there).1 (by omega)
      · exact known
  · intro peerId name mem
    replace mem : (peerId, name) ∈ data.peerNetworkMap := mem
    rw [networks] at mem
    obtain same | old := Finset.mem_insert.mp mem
    · cases same
      exact .inr (.inl ⟨i, { call with phase }, e, Pool.turn_self here, works, rfl,
        rfl⟩)
    · obtain ⟨e', known, peer⟩ | flight | waits := balanced.owed peerId name old
      · refine .inl ⟨e', (registered name e').mpr ?_, (peers e' peerId).mpr peer⟩
        split_ifs with same
        · obtain before | ⟨absent, -⟩ := place
          · exact Option.some.inj (known.symm.trans (same ▸ before))
          · exact absurd (same ▸ known) (absent e')
        · exact known
      · obtain ⟨-, -, -, ended⟩ | flight := flight.turn here data phase
        · cases works.symm.trans ended
        · exact .inr (.inl flight)
      · exact .inr (.inr (awaited peerId name waits))
  · intro name e' peerId known peer
    show _ ∈ data.peerNetworkMap
    rw [networks]
    refine Finset.mem_insert_of_mem ?_
    have peer := (peers e' peerId).mp peer
    have known := (registered name e').mp known
    split_ifs at known with same
    · obtain before | ⟨-, fresh⟩ := place
      · exact balanced.present name e' peerId (same ▸ known ▸ before) peer
      · obtain ⟨_, there, -⟩ := peer
        exact absurd (List.getElem?_eq_some_iff.mp there).1 (by omega)
    · exact balanced.present name e' peerId known peer
  · intro name mem
    by_cases same : name = call.conn.networkIdentity.networkName
    · exact ⟨e, (registered name e).mpr (by rw [if_pos same])⟩
    · replace mem : name ∈ data.networkPeerLastUpdate := mem
      rw [update] at mem
      obtain old | other := (AList.mem_insert _).mp mem |>.symm
      · obtain ⟨e', known⟩ := balanced.stamped name old
        exact ⟨e', (registered name e').mpr (by rw [if_neg same]; exact known)⟩
      · exact absurd other same

/-- The call adds its connection to the entry that the network has. -/
theorem Balanced.adds (here : pool.tasks[i]? = some call) (works : call.phase.entry = some e)
    (known : pool.shared.Registered call.conn.networkIdentity.networkName e)
    {f : ForeignNetworkEntry → ForeignNetworkEntry}
    (network : ∀ entry, (f entry).network = entry.network)
    (peers : ∀ entry peerId, pool.shared.entries[e]? = some entry →
      (peerId ∈ (f entry).peerMap ↔ peerId = call.conn.peerId ∨ peerId ∈ entry.peerMap))
    (events : ∀ entry, entry.listens = true →
      (f entry).listens = true ∧ ∀ event ∈ entry.events, event ∈ (f entry).events) :
    Balanced (pool.turn i (pool.shared.modify e f) { call with phase := .done }) := by
  have booked := balanced.booked i call e here works known
  obtain ⟨entry, inside, -⟩ := balanced.works i call e here works
  have hasPeer (place : Nat) (peerId : PeerId) :
      (pool.shared.modify e f).HasPeer place peerId ↔
        place = e ∧ peerId = call.conn.peerId ∨ pool.shared.HasPeer place peerId := by
    rw [ForeignData.hasPeer_modify_iff]
    by_cases same : e = place
    · subst same
      simp [ForeignData.HasPeer, inside, peers entry peerId inside]
    · simp [ForeignData.HasPeer, same, Ne.symm same]
  have before {j : Nat} {other : ForeignCall} {place : Nat}
      (found : (pool.turn i (pool.shared.modify e f) { call with phase := .done }).tasks[j]? =
        some other) (worked : other.phase.entry = some place) : pool.tasks[j]? = some other := by
    obtain ⟨-, rfl⟩ | ⟨-, old⟩ := Pool.getElem?_turn found
    · cases worked
    · exact old
  constructor
  · exact fun name place found => (balanced.named name place found).modify network
  · exact fun j other place found worked =>
      (balanced.works j other place (before found worked) worked).modify network
  · exact fun j other place found worked =>
      balanced.booked j other place (before found worked) worked
  · intro peerId name mem
    obtain ⟨place, found, peer⟩ | flight | waits := balanced.owed peerId name mem
    · exact .inl ⟨place, found, (hasPeer place peerId).mpr (.inr peer)⟩
    · obtain ⟨rfl, rfl, -⟩ | flight := flight.turn here (pool.shared.modify e f) .done
      · exact .inl ⟨e, known, (hasPeer e _).mpr (.inl ⟨rfl, rfl⟩)⟩
      · exact .inr (.inl flight)
    · exact .inr (.inr (waits.modify network fun entry _ listening mem =>
        ⟨(events entry listening).1, (events entry listening).2 _ mem⟩))
  · intro name place peerId found peer
    obtain ⟨rfl, rfl⟩ | old := (hasPeer place peerId).mp peer
    · have same := (balanced.named name place found).same (balanced.works i call place here works)
      exact same ▸ booked
    · exact balanced.present name place peerId found old
  · exact balanced.stamped

/-- A peer leaves the map of an entry. -/
theorem Balanced.closePeer {peerId : PeerId}
    (listens : ∀ entry, pool.shared.entries[e]? = some entry →
      pool.shared.Registered entry.network.networkName e → peerId ∈ entry.peerMap →
        entry.listens = true) :
    (pool.step (.closePeer e peerId)).Balanced := by
  let f (entry : ForeignNetworkEntry) : ForeignNetworkEntry :=
    { entry with peerMap := entry.peerMap.erase peerId }.issueEvent (.peerRemoved peerId)
  have network (entry : ForeignNetworkEntry) : (f entry).network = entry.network :=
    ForeignNetworkEntry.issueEvent_network
  have peerMap (entry : ForeignNetworkEntry) : (f entry).peerMap = entry.peerMap.erase peerId :=
    ForeignNetworkEntry.issueEvent_peerMap
  have hears {entry : ForeignNetworkEntry} (listening : entry.listens = true) :
      (f entry).listens = true ∧ (f entry).events = entry.events ++ [.peerRemoved peerId] :=
    ForeignNetworkEntry.issueEvent_heard listening
  have fewer {place : Nat} {other : PeerId}
      (peer : (pool.shared.modify e f).HasPeer place other) : pool.shared.HasPeer place other := by
    obtain ⟨old, there, mem⟩ := ForeignData.hasPeer_modify_iff.mp peer
    refine ⟨old, there, ?_⟩
    split at mem
    · rw [peerMap] at mem
      exact ((AList.mem_erase).mp mem).2
    · exact mem
  show Balanced (pool.change (pool.shared.modify e f))
  constructor
  · exact fun name place found => (balanced.named name place found).modify network
  · exact fun j other place found worked =>
      (balanced.works j other place found worked).modify network
  · exact balanced.booked
  · intro other name mem
    obtain ⟨place, known, entry, there, peer⟩ | flight | waits := balanced.owed other name mem
    · by_cases gone : e = place ∧ other = peerId
      · -- the handler of the entry will take the peer out of the books
        obtain ⟨rfl, rfl⟩ := gone
        obtain ⟨entry', there', mine⟩ := balanced.named name e known
        cases there.symm.trans there'
        obtain ⟨listening, events⟩ := hears (listens entry there (mine ▸ known) peer)
        refine .inr (.inr ⟨e, f entry, ?_, (congrArg _ (network entry)).trans mine, listening, ?_⟩)
        · rw [show (pool.change (pool.shared.modify e f)).shared.entries[e]? = _ from
            ForeignData.getElem?_modify_of there, if_pos rfl]
        · rw [events]
          exact List.mem_append_right _ List.mem_cons_self
      · refine .inl ⟨place, known, _, ForeignData.getElem?_modify_of there, ?_⟩
        split_ifs with same
        · rw [peerMap]
          exact AList.mem_erase.mpr ⟨fun mine => gone ⟨same, mine⟩, peer⟩
        · exact peer
    · exact .inr (.inl flight)
    · exact .inr (.inr (waits.modify network fun entry _ listening mem =>
        ⟨(hears listening).1, (hears listening).2 ▸ List.mem_append_left _ mem⟩))
  · exact fun name place other known peer => balanced.present name place other known (fewer peer)
  · exact balanced.stamped

/-- The time of a change is noted for a network that has an entry. -/
theorem Balanced.stamp {name : String} (known : name ∈ pool.shared.networkPeerMaps) (now : Nat) :
    Balanced (pool.change (pool.shared.stamp name now)) := by
  refine ⟨balanced.named, balanced.works, balanced.booked, balanced.owed, balanced.present, ?_⟩
  intro other mem
  obtain rfl | old := (AList.mem_insert _).mp mem
  · exact mem_iff_lookup.mp known
  · exact balanced.stamped other old

/-- Pairs of peer and network leave the books, and with them the network `name`, or no network at
all. -/
theorem Balanced.forget (name : String) (gone : PeerId → String → Prop)
    (books : data.networkPeerMaps = pool.shared.networkPeerMaps ∧
        data.networkPeerLastUpdate = pool.shared.networkPeerLastUpdate ∨
      data.networkPeerMaps = pool.shared.networkPeerMaps.erase name ∧
        data.networkPeerLastUpdate = pool.shared.networkPeerLastUpdate.erase name ∧
        ∀ e peerId, pool.shared.Registered name e → pool.shared.HasPeer e peerId → gone peerId name)
    (networks : ∀ peerId other, (peerId, other) ∈ data.peerNetworkMap ↔
      (peerId, other) ∈ pool.shared.peerNetworkMap ∧ ¬ gone peerId other)
    (named : ∀ e other, pool.shared.Named e other → data.Named e other)
    (peers : ∀ e peerId, data.HasPeer e peerId ↔ pool.shared.HasPeer e peerId)
    (awaited : ∀ peerId other, ¬ gone peerId other → pool.shared.Awaited peerId other →
      data.Awaited peerId other)
    (spared : ∀ other e peerId, gone peerId other → data.Registered other e →
      ¬ pool.shared.HasPeer e peerId ∧ ¬ pool.InFlight peerId other) :
    Balanced (pool.change data) := by
  have before {other : String} {e : Nat} (known : data.Registered other e) :
      pool.shared.Registered other e := by
    unfold ForeignData.Registered at known ⊢
    obtain ⟨same, -⟩ | ⟨erased, -⟩ := books
    · exact same ▸ known
    · exact lookup_erase_origin (erased ▸ known)
  have kept {other : String} {e : Nat} {peerId : PeerId} (left : ¬ gone peerId other)
      (known : pool.shared.Registered other e) (peer : pool.shared.HasPeer e peerId) :
      data.Registered other e := by
    unfold ForeignData.Registered
    obtain ⟨same, -⟩ | ⟨erased, -, empty⟩ := books
    · exact same ▸ known
    · rw [erased, AList.lookup_erase_ne]
      · exact known
      · rintro rfl
        exact left (empty e peerId known peer)
  constructor
  · exact fun other e found => named e other (balanced.named other e (before found))
  · exact fun j call e found works => named e _ (balanced.works j call e found works)
  · intro j call e found works known
    refine (networks _ _).mpr ⟨balanced.booked j call e found works (before known), ?_⟩
    exact fun out => (spared _ e _ out known).2 ⟨j, call, e, found, works, rfl, rfl⟩
  · intro peerId other mem
    obtain ⟨mem, left⟩ := (networks peerId other).mp mem
    obtain ⟨e, known, peer⟩ | flight | waits := balanced.owed peerId other mem
    · exact .inl ⟨e, kept left known peer, (peers e peerId).mpr peer⟩
    · exact .inr (.inl flight)
    · exact .inr (.inr (awaited peerId other left waits))
  · intro other e peerId known peer
    have peer := (peers e peerId).mp peer
    exact (networks peerId other).mpr ⟨balanced.present other e peerId (before known) peer,
      fun out => (spared other e peerId out known).1 peer⟩
  · intro other mem
    replace mem : other ∈ data.networkPeerLastUpdate := mem
    show ∃ e, data.networkPeerMaps.lookup other = some e
    obtain ⟨same, update⟩ | ⟨erased, update, -⟩ := books
    · rw [same]
      exact balanced.stamped other (update ▸ mem)
    · rw [update] at mem
      obtain ⟨differ, mem⟩ := AList.mem_erase.mp mem
      rw [erased, AList.lookup_erase_ne differ]
      exact balanced.stamped other mem

/-- The handler takes a peer out of the books, and the network too if its entry has no peer. -/
theorem Balanced.removePeer {peerId : PeerId} {events : List PeerEvent}
    (found : pool.shared.entries[e]? = some entry)
    (head : entry.events = .peerRemoved peerId :: events)
    (spared : ∀ place, pool.shared.Registered entry.network.networkName place →
      ¬ pool.shared.HasPeer place peerId ∧ ¬ pool.InFlight peerId entry.network.networkName) :
    Balanced (pool.change
      ((pool.shared.modify e fun entry =>
        { entry with handler := .stamp, events := events }).removePeer
        peerId entry.network.networkName)) := by
  let f (entry : ForeignNetworkEntry) : ForeignNetworkEntry :=
    { entry with handler := .stamp, events := events }
  obtain ⟨entries, networks, books⟩ :=
    (pool.shared.modify e f).removePeer_spec peerId entry.network.networkName
  have peers (place : Nat) (other : PeerId) :
      (pool.shared.modify e f).HasPeer place other ↔ pool.shared.HasPeer place other :=
    ForeignData.hasPeer_modify fun _ => Iff.rfl
  refine balanced.forget entry.network.networkName
    (fun other name => other = peerId ∧ name = entry.network.networkName) ?_ ?_ ?_ ?_ ?_ ?_
  · obtain same | ⟨maps, update, empty⟩ := books
    · exact .inl same
    · exact .inr ⟨maps, update, fun place other known peer =>
        absurd ((peers place other).mpr peer) (empty place other known)⟩
  · intro other name
    rw [networks, Finset.mem_erase, ne_eq, Prod.mk.injEq]
    exact and_comm
  · intro place name named
    unfold ForeignData.Named
    rw [entries]
    exact named.modify fun _ => rfl
  · intro place other
    unfold ForeignData.HasPeer
    rw [entries]
    exact peers place other
  · intro other name left waits
    unfold ForeignData.Awaited
    rw [entries]
    obtain ⟨place, old, there, mine, listens, mem⟩ := waits
    refine ⟨place, _, ForeignData.getElem?_modify_of there, ?_⟩
    split
    · -- only the event that is handled now is gone
      rename_i same
      subst same
      cases found.symm.trans there
      refine ⟨mine, rfl, ?_⟩
      rw [head] at mem
      obtain handled | rest := List.mem_cons.mp mem
      · cases handled
        exact absurd ⟨rfl, mine.symm⟩ left
      · exact rest
    · exact ⟨mine, listens, mem⟩
  · rintro name place other ⟨rfl, rfl⟩ known
    refine spared place ?_
    unfold ForeignData.Registered at known
    obtain ⟨maps, -⟩ | ⟨maps, -⟩ := books
    · rw [maps] at known
      exact known
    · rw [maps, AList.lookup_erase] at known
      cases known

/-- The handler ends, and takes its network out of the books. -/
theorem Balanced.removeNetwork (found : pool.shared.entries[e]? = some entry) :
    Balanced (pool.change
      ((pool.shared.modify e fun entry => { entry with handler := .ended }).removeNetwork
        entry.network.networkName)) := by
  refine balanced.forget entry.network.networkName
    (fun _ name => name = entry.network.networkName) ?_ ?_ ?_ ?_ ?_ ?_
  · exact .inr ⟨rfl, rfl, fun _ _ _ _ => rfl⟩
  · exact fun _ _ => Finset.mem_filter
  · exact fun _ _ named => named.modify fun _ => rfl
  · exact fun _ _ => ForeignData.hasPeer_modify fun _ => Iff.rfl
  · rintro other name left ⟨place, old, there, mine, rest⟩
    refine ⟨place, old, (ForeignData.getElem?_modify_of there).trans ?_, mine, rest⟩
    rw [if_neg]
    rintro rfl
    cases found.symm.trans there
    exact left mine.symm
  · rintro name place other rfl known
    cases (AList.lookup_erase _ _).symm.trans known

/-- A change that is of no concern to the books. -/
theorem Balanced.change (alike : Alike pool.shared data) : Balanced (pool.change data) := by
  refine balanced.forget "" (fun _ _ => False) (.inl ⟨alike.maps, alike.update⟩) (fun _ _ => ?_)
    alike.named alike.peers (fun other name _ => alike.awaited other name) nofun
  rw [alike.networks]
  exact (and_iff_left not_false).symm

/-- The calls change, and those that work on entries stay the same ones. -/
theorem Balanced.working {tasks : List ForeignCall}
    (before : ∀ (j : Nat) (call : ForeignCall) (e : Nat), tasks[j]? = some call →
      call.phase.entry = some e →
        ∃ old, pool.tasks[j]? = some old ∧ old.phase.entry = some e ∧ old.conn = call.conn)
    (flight : ∀ peerId name, pool.InFlight peerId name →
      InFlight ⟨pool.shared, tasks⟩ peerId name) : Balanced ⟨pool.shared, tasks⟩ := by
  refine ⟨balanced.named, fun j call e found works => ?_, fun j call e found works known => ?_,
    fun peerId name mem => ?_, balanced.present, balanced.stamped⟩
  · obtain ⟨old, there, worked, conn⟩ := before j call e found works
    exact conn ▸ balanced.works j old e there worked
  · obtain ⟨old, there, worked, conn⟩ := before j call e found works
    exact conn ▸ balanced.booked j old e there worked (conn ▸ known)
  · exact (balanced.owed peerId name mem).imp_right (Or.imp_left (flight peerId name))

/-- A turn that neither begins nor ends the work on an entry, and leaves the books alone. -/
theorem Balanced.quiet (here : pool.tasks[i]? = some call) (alike : Alike pool.shared data)
    (same : phase.entry = call.phase.entry) : Balanced (pool.turn i data { call with phase }) := by
  refine (balanced.change alike).working (fun j other e found works => ?_) fun _ _ flight => ?_
  · obtain ⟨rfl, rfl⟩ | ⟨-, old⟩ := Pool.getElem?_turn (s := data) found
    · exact ⟨call, here, same ▸ works, rfl⟩
    · exact ⟨other, old, works, rfl⟩
  · obtain ⟨-, -, ⟨e, worked⟩, ended⟩ | flight := InFlight.turn flight here data phase
    · cases (same.trans worked).symm.trans ended
    · exact flight

/-- A connection leaves a peer, which stays in the map of its entry. -/
theorem Balanced.closeConn (e : Nat) (peerId : PeerId) (i : Nat) :
    (pool.step (.closeConn e peerId i)).Balanced := by
  refine balanced.change (.modify (fun _ => ForeignNetworkEntry.removeConn_network)
    (fun _ _ => ForeignNetworkEntry.mem_removeConn) fun entry _ listens => ?_)
  obtain ⟨same, events⟩ := @ForeignNetworkEntry.removeConn_heard entry peerId i
  exact ⟨same.trans listens, fun _ mem => events.symm ▸ mem⟩

theorem Balanced.spawn (conn : ForeignConn) : Balanced (pool.spawn pool.shared ⟨conn, .start⟩) := by
  apply balanced.working
  · intro j call e found works
    obtain ⟨-, rfl⟩ | old := Pool.getElem?_spawn (s := pool.shared) found
    · cases works
    · exact ⟨call, old, works, rfl⟩
  · rintro _ _ ⟨j, call, e, found, mine⟩
    exact ⟨j, call, e, Pool.spawn_other found, mine⟩

end ForeignPool

end PeerLink.Manager
