import PeerLink.Schedule.Along
import PeerLink.Sync.Clock
import PeerLink.Sync.Owners

/-!
# Foreign networks and the clock

The entries of `foreign_network` with their times. `update_my_foreign_network` takes over
what the node hosts: a network that has changed is renewed, one that is gone is announced
with no peers, a new one is added. A renewed entry gets the second of the clock as its
version and the time of the last change of the network as its own, so both may move back.
-/

namespace PeerLink.Sync

open Route

structure TimedEntry extends ForeignNetworkRouteInfoEntry where
  lastUpdate : Option Int
  deriving DecidableEq

/-- What the entry tells other nodes. -/
def TimedEntry.content (e : TimedEntry) : List PeerId × List UInt8 × PeerId :=
  (e.foreignPeerIds, e.networkSecretDigest, e.myPeerIdForThisNetwork)

abbrev TimedNetworks := ForeignNetworkMap TimedEntry

def isForeignNetworkInfoNewer (next prev : TimedEntry) : Option Bool :=
  next.lastUpdate.bind fun nextTime => prev.lastUpdate.map fun prevTime => prevTime < nextTime

variable (now : Int) (version : Version)

/-- The second of the clock as a `u32`. Before the epoch there is none, and `unwrap` panics. -/
def nowVersion : Option Version :=
  (durationSince now 0).map fun d => (d / 10 ^ 9).toNat % 2 ^ 32

/-- Whether a hosted network replaces its entry. -/
def needRenew (entry newEntry : TimedEntry) : Bool :=
  match isForeignNetworkInfoNewer newEntry entry with
  | some isNewer =>
    isNewer || UPDATE_PEER_INFO_PERIOD < ((entry.lastUpdate.bind (durationSince now)).getD 0)
  | none => false

def renewEntry (newEntry : TimedEntry) : TimedEntry :=
  { newEntry with version := max ((newEntry.version + 1) % 2 ^ 32) version }

def clearEntry (clearedAt : Int) (entry : TimedEntry) : TimedEntry :=
  { entry with
    foreignPeerIds := []
    version := max ((entry.version + 1) % 2 ^ 32) version
    lastUpdate := some clearedAt }

/-- What is left of the hosted networks, next to the stored ones. -/
structure RenewState where
  stored : TimedNetworks
  foreignNetworks : TimedNetworks
  updated : Bool

/-- One pass of the loop over the own entries; a failed assertion gives nothing. -/
def renewMine (clearedAt : ForeignNetworkRouteInfoKey → Int) (st : RenewState)
    (key : ForeignNetworkRouteInfoKey) : Option RenewState :=
  match st.stored.lookup key with
  | none => some st
  | some entry =>
    match st.foreignNetworks.lookup key with
    | some newEntry =>
      if newEntry.foreignPeerIds = [] then
        none
      else if needRenew now entry newEntry then
        some ⟨st.stored.insert key (renewEntry version newEntry), st.foreignNetworks.erase key,
          true⟩
      else
        some ⟨st.stored, st.foreignNetworks.erase key, st.updated⟩
    | none =>
      if entry.foreignPeerIds ≠ [] then
        some ⟨st.stored.insert key (clearEntry version (clearedAt key) entry),
          st.foreignNetworks, true⟩
      else
        some st

/-- One pass of the loop over the networks that had no entry. -/
def addHosted (stored : TimedNetworks) (item : Σ _ : ForeignNetworkRouteInfoKey, TimedEntry) :
    Option TimedNetworks :=
  if item.2.foreignPeerIds = [] then
    none
  else
    some (match stored.lookup item.1 with
      | some old => if old.version < item.2.version then stored.insert item.1 item.2 else stored
      | none => stored.insert item.1 { item.2 with version := version })

/-- `now` is read once; each entry that is cleared reads the clock again. -/
def updateMyForeignNetwork (stored : TimedNetworks) (myPeerId : PeerId)
    (foreignNetworks : TimedNetworks) (now : Int)
    (clearedAt : ForeignNetworkRouteInfoKey → Int) : Option (TimedNetworks × Bool) := do
  let version ← nowVersion now
  let st ← (stored.keys.filter (·.peerId = myPeerId)).foldlM (renewMine now version clearedAt)
    ⟨stored, foreignNetworks, false⟩
  let stored ← st.foreignNetworks.entries.foldlM (addHosted version) st.stored
  return (stored, st.updated || !st.foreignNetworks.entries.isEmpty)

/-- What `list_foreign_networks` returns. -/
structure Listed (me : PeerId) (networks : TimedNetworks) : Prop where
  mine : ∀ key new, networks.lookup key = some new → key.peerId = me
  peers : ∀ key new, networks.lookup key = some new → new.foreignPeerIds ≠ []
  version : ∀ key new, networks.lookup key = some new → new.version = 0
  timed : ∀ key new, networks.lookup key = some new → new.lastUpdate.isSome

/-! ## The entry of one network -/

/-- What becomes of the own entry of a network. -/
def nextEntry (clearedAt : Int) (entry : TimedEntry) : Option TimedEntry → TimedEntry
  | some newEntry => if needRenew now entry newEntry then renewEntry version newEntry else entry
  | none => if entry.foreignPeerIds ≠ [] then clearEntry version clearedAt entry else entry

section

variable {now : Int} {version : Version} {clearedAt : ForeignNetworkRouteInfoKey → Int}
  {st st' : RenewState} {stored stored' : TimedNetworks} {key : ForeignNetworkRouteInfoKey}
  {item : Σ _ : ForeignNetworkRouteInfoKey, TimedEntry}

/-- A pass settles its own key and touches no other one. -/
theorem renewMine_spec (run : renewMine now version clearedAt st key = some st') :
    (∀ other, other ≠ key → st'.stored.lookup other = st.stored.lookup other ∧
      st'.foreignNetworks.lookup other = st.foreignNetworks.lookup other) ∧
    ∀ entry, st.stored.lookup key = some entry →
      st'.foreignNetworks.lookup key = none ∧
      st'.stored.lookup key =
        some (nextEntry now version (clearedAt key) entry (st.foreignNetworks.lookup key)) := by
  unfold renewMine at run
  cases held : st.stored.lookup key with
  | none =>
    rw [held] at run
    cases run
    exact ⟨fun _ _ => ⟨rfl, rfl⟩, nofun⟩
  | some entry =>
    simp only [held, Option.some.injEq, forall_eq'] at run ⊢
    cases hosted : st.foreignNetworks.lookup key with
    | some newEntry =>
      simp only [hosted] at run
      split at run
      · cases run
      · split_ifs at run with renew
        · cases run
          exact ⟨fun other ne => ⟨AList.lookup_insert_ne ne, AList.lookup_erase_ne ne⟩,
            AList.lookup_erase _ _, by simp [nextEntry, renew]⟩
        · cases run
          exact ⟨fun other ne => ⟨rfl, AList.lookup_erase_ne ne⟩, AList.lookup_erase _ _,
            by simp [nextEntry, renew, held]⟩
    | none =>
      simp only [hosted] at run
      split_ifs at run with peers
      · cases run
        exact ⟨fun other ne => ⟨AList.lookup_insert_ne ne, rfl⟩, hosted,
          by simp [nextEntry, peers]⟩
      · cases run
        exact ⟨fun other _ => ⟨rfl, rfl⟩, hosted, by simp [nextEntry, peers, held]⟩

/-- The loop settles the keys that it passes. -/
theorem renewLoop_spec {keys : List ForeignNetworkRouteInfoKey} (nodup : keys.Nodup)
    (run : keys.foldlM (renewMine now version clearedAt) st = some st')
    (key : ForeignNetworkRouteInfoKey) :
    (key ∉ keys → st'.stored.lookup key = st.stored.lookup key ∧
      st'.foreignNetworks.lookup key = st.foreignNetworks.lookup key) ∧
    (key ∈ keys → ∀ entry, st.stored.lookup key = some entry →
      st'.foreignNetworks.lookup key = none ∧
      st'.stored.lookup key =
        some (nextEntry now version (clearedAt key) entry (st.foreignNetworks.lookup key))) := by
  induction keys generalizing st with
  | nil =>
    cases run
    exact ⟨fun _ => ⟨rfl, rfl⟩, nofun⟩
  | cons first keys ih =>
    rw [List.foldlM_cons] at run
    obtain ⟨mid, pass, run⟩ := Option.bind_eq_some_iff.mp run
    obtain ⟨fresh, nodup⟩ := List.nodup_cons.mp nodup
    obtain ⟨others, settled⟩ := renewMine_spec pass
    obtain ⟨skipped, passed⟩ := ih nodup run
    constructor
    · intro new
      rw [List.mem_cons, not_or] at new
      obtain ⟨stored, left⟩ := others key new.1
      obtain ⟨stored', left'⟩ := skipped new.2
      exact ⟨stored'.trans stored, left'.trans left⟩
    · intro mem entry held
      by_cases here : key = first
      · subst here
        obtain ⟨left, stored⟩ := settled entry held
        obtain ⟨stored', left'⟩ := skipped fresh
        exact ⟨left'.trans left, stored'.trans stored⟩
      · obtain ⟨stored, left⟩ := others key here
        rw [← left]
        exact passed (List.mem_of_ne_of_mem here mem) entry (stored.trans held)

theorem addHosted_ne (run : addHosted version stored item = some stored') (other : key ≠ item.1) :
    stored'.lookup key = stored.lookup key := by
  unfold addHosted at run
  split at run
  · cases run
  · cases run
    split
    · split
      · exact AList.lookup_insert_ne other
      · rfl
    · exact AList.lookup_insert_ne other

theorem addHosted_self (run : addHosted version stored item = some stored')
    (absent : stored.lookup item.1 = none) :
    stored'.lookup item.1 = some { item.2 with version := version } := by
  unfold addHosted at run
  split at run
  · cases run
  · rw [absent] at run
    cases run
    exact AList.lookup_insert _

/-- The second loop adds the networks that are left and have no entry. -/
theorem addLoop_spec {items : List (Σ _ : ForeignNetworkRouteInfoKey, TimedEntry)}
    (nodup : items.NodupKeys) (run : items.foldlM (addHosted version) stored = some stored')
    (key : ForeignNetworkRouteInfoKey) :
    (key ∉ items.keys → stored'.lookup key = stored.lookup key) ∧
      ∀ new, ⟨key, new⟩ ∈ items → stored.lookup key = none →
        stored'.lookup key = some { new with version := version } := by
  induction items generalizing stored with
  | nil =>
    cases run
    exact ⟨fun _ => rfl, nofun⟩
  | cons item items ih =>
    rw [List.foldlM_cons] at run
    obtain ⟨mid, pass, run⟩ := Option.bind_eq_some_iff.mp run
    obtain ⟨fresh, nodup⟩ := List.nodupKeys_cons.mp nodup
    obtain ⟨skipped, added⟩ := ih nodup run
    constructor
    · intro new
      rw [List.keys_cons, List.mem_cons, not_or] at new
      exact (skipped new.2).trans (addHosted_ne pass new.1)
    · intro new mem absent
      cases List.mem_cons.mp mem with
      | inl here =>
        subst here
        exact (skipped fresh).trans (addHosted_self pass absent)
      | inr there =>
        have other : key ≠ item.1 := fun same => fresh (same ▸ List.mem_keys_of_mem there)
        exact added new there ((addHosted_ne pass other).trans absent)

/-- What a whole update does to the own entries. -/
theorem updateMyForeignNetwork_lookup {networks : TimedNetworks} {me : PeerId} {updated : Bool}
    (run : updateMyForeignNetwork stored me networks now clearedAt = some (stored', updated)) :
    ∃ version, nowVersion now = some version ∧
      ∀ key : ForeignNetworkRouteInfoKey, key.peerId = me →
        (∀ entry, stored.lookup key = some entry → stored'.lookup key =
          some (nextEntry now version (clearedAt key) entry (networks.lookup key))) ∧
        (∀ new, stored.lookup key = none → networks.lookup key = some new →
          stored'.lookup key = some { new with version := version }) := by
  obtain ⟨version, second, run⟩ := Option.bind_eq_some_iff.mp run
  obtain ⟨st, renewed, run⟩ := Option.bind_eq_some_iff.mp run
  obtain ⟨_, added, run⟩ := Option.bind_eq_some_iff.mp run
  cases run
  refine ⟨version, second, fun key mine => ?_⟩
  obtain ⟨skipped, passed⟩ := renewLoop_spec (stored.keys_nodup.filter _) renewed key
  obtain ⟨kept, new⟩ := addLoop_spec st.foreignNetworks.nodupKeys added key
  constructor
  · intro entry held
    have mem : key ∈ stored.keys.filter (·.peerId = me) :=
      List.mem_filter.mpr ⟨Best.mem_iff_lookup.mpr ⟨_, held⟩, decide_eq_true mine⟩
    obtain ⟨left, settled⟩ := passed mem entry held
    rw [← settled]
    exact kept (AList.lookup_eq_none.mp left)
  · intro entry absent hosted
    have skip : key ∉ stored.keys.filter (·.peerId = me) := fun mem =>
      AList.lookup_eq_none.mp absent (List.mem_filter.mp mem).1
    obtain ⟨same, left⟩ := skipped skip
    exact new entry (AList.mem_lookup_iff.mp (left.trans hosted)) (same.trans absent)

end

/-! ## Versions of the own entries -/

/-- Every own entry that tells something new has a larger version, and a node that has the
old one stores it. -/
def Raised (me : PeerId) (stored stored' : TimedNetworks) : Prop :=
  ∀ key entry entry', key.peerId = me → stored.lookup key = some entry →
    stored'.lookup key = some entry' → entry'.content ≠ entry.content →
      entry.version < entry'.version ∧
      ∀ remote : SyncedRouteInfo,
        remote.foreignNetwork.lookup key = some entry.toForeignNetworkRouteInfoEntry →
        (remote.updateForeignNetwork
          [⟨some key, some entry'.toForeignNetworkRouteInfoEntry⟩]).foreignNetwork.lookup key =
            some entry'.toForeignNetworkRouteInfoEntry

theorem updateForeignNetwork_newer {remote : SyncedRouteInfo} {key : ForeignNetworkRouteInfoKey}
    {old new : ForeignNetworkRouteInfoEntry} (held : remote.foreignNetwork.lookup key = some old)
    (newer : old.version < new.version) :
    (remote.updateForeignNetwork [⟨some key, some new⟩]).foreignNetwork.lookup key =
      some new := by
  simp only [SyncedRouteInfo.updateForeignNetwork, List.foldl_cons, List.foldl_nil,
    SyncedRouteInfo.storeForeignNetwork, held, if_pos newer, AList.lookup_insert]

/-- One call of `update_my_foreign_network`. -/
structure ForeignCall where
  networks : TimedNetworks
  now : Int
  clearedAt : ForeignNetworkRouteInfoKey → Int

def foreignStep (me : PeerId) (stored : TimedNetworks) (call : ForeignCall) :
    Option TimedNetworks :=
  (updateMyForeignNetwork stored me call.networks call.now call.clearedAt).map (·.1)

/-- No renewal of an own entry lowers its version, one with other content raises it, and the version
of an entry that is cleared does not wrap. -/
def KeepsVersions (me : PeerId) (stored : TimedNetworks) (call : ForeignCall) : Prop :=
  ∀ version ∈ nowVersion call.now, ∀ item ∈ stored.entries, item.1.peerId = me →
    (∀ new ∈ call.networks.lookup item.1, needRenew call.now item.2 new = true →
      item.2.version ≤ max 1 version ∧
        (new.content ≠ item.2.content → item.2.version < max 1 version)) ∧
    (call.networks.lookup item.1 = none → item.2.foreignPeerIds ≠ [] →
      item.2.version + 1 < 2 ^ 32)
  deriving Decidable

/-- The later entry has no smaller version, and a larger one if it tells something else. -/
def Supersedes (entry entry' : TimedEntry) : Prop :=
  entry.version ≤ entry'.version ∧ (entry'.content ≠ entry.content → entry.version < entry'.version)

theorem Supersedes.refl (entry : TimedEntry) : Supersedes entry entry :=
  ⟨le_rfl, fun changed => absurd rfl changed⟩

theorem Supersedes.trans {entry mid entry' : TimedEntry} (first : Supersedes entry mid)
    (second : Supersedes mid entry') : Supersedes entry entry' := by
  refine ⟨first.1.trans second.1, fun changed => ?_⟩
  by_cases same : mid.content = entry.content
  · exact first.1.trans_lt (second.2 (same ▸ changed))
  · exact (first.2 same).trans_le second.1

theorem supersedes_of_lt {entry entry' : TimedEntry} (raised : entry.version < entry'.version) :
    Supersedes entry entry' := ⟨raised.le, fun _ => raised⟩

/-- What a call does to an own entry. -/
theorem foreignStep_supersedes {me : PeerId} {stored stored' : TimedNetworks} {call : ForeignCall}
    (listed : Listed me call.networks) (keeps : KeepsVersions me stored call)
    (stepped : foreignStep me stored call = some stored') {key : ForeignNetworkRouteInfoKey}
    (mine : key.peerId = me) {entry : TimedEntry} (held : stored.lookup key = some entry) :
    ∃ entry', stored'.lookup key = some entry' ∧ Supersedes entry entry' := by
  obtain ⟨⟨_, updated⟩, run, rfl⟩ := Option.map_eq_some_iff.mp stepped
  obtain ⟨version, second, entries⟩ := updateMyForeignNetwork_lookup run
  refine ⟨_, (entries key mine).1 entry held, ?_⟩
  obtain ⟨renewed, cleared⟩ :=
    keeps version second ⟨key, entry⟩ (AList.mem_lookup_iff.mp held) mine
  cases hosted : call.networks.lookup key with
  | some new =>
    rw [nextEntry]
    split_ifs with renew
    · obtain ⟨kept, raised⟩ := renewed new hosted renew
      have numbered : (renewEntry version new).version = max 1 version := by
        rw [renewEntry, listed.version key new hosted]
        rfl
      exact ⟨numbered ▸ kept, fun changed => numbered ▸ raised changed⟩
    · exact .refl entry
  | none =>
    rw [nextEntry]
    split_ifs with peers
    · apply supersedes_of_lt
      change entry.version < max ((entry.version + 1) % 2 ^ 32) version
      rw [Nat.mod_eq_of_lt (cleared hosted peers)]
      exact lt_max_of_lt_left (Nat.lt_succ_self _)
    · exact .refl entry

/-- **A change of an own entry raises its version, whatever calls are between.** In a run of calls
in which no renewal lowers an own version, a renewal with other content raises it and no cleared
entry wraps, an entry that tells something else than at any time before has a larger version than
then, and a node that has stored the earlier one takes it. -/
theorem foreign_changes_raise {me : PeerId} {calls : List ForeignCall}
    {stored stored' : TimedNetworks} (listed : ∀ call ∈ calls, Listed me call.networks)
    (keeps : ∀ move ∈ Schedule.moves (foreignStep me) stored calls, KeepsVersions me move.1 move.2)
    (ran : Schedule.final (foreignStep me) stored calls = some stored') :
    Raised me stored stored' := by
  intro key entry entry' mine held held' changed
  have since : ∃ entry', stored'.lookup key = some entry' ∧ Supersedes entry entry' := by
    refine @Schedule.inv_of_final _ _ _
      (fun stored' => ∃ entry', stored'.lookup key = some entry' ∧ Supersedes entry entry')
      (fun stored call => KeepsVersions me stored call ∧ Listed me call.networks) _ _ _
      (fun _ call _ known fits stepped => ?_) ⟨entry, held, .refl entry⟩
      (fun move mem => ⟨keeps move mem, listed _ (Schedule.event_of_moves mem)⟩) ran
    obtain ⟨mid, found, first⟩ := known
    obtain ⟨next, found, second⟩ := foreignStep_supersedes fits.2 fits.1 stepped mine found
    exact ⟨next, found, first.trans second⟩
  obtain ⟨_, found, -, raised⟩ := since
  cases found.symm.trans held'
  exact ⟨raised changed, fun remote known => updateForeignNetwork_newer known (raised changed)⟩

/-- The only network that node 1 hosts. -/
def hostedKey : ForeignNetworkRouteInfoKey := ⟨1, "net"⟩

def hostedEntry (version : Version) (peers : List PeerId) (changed : Int) : TimedEntry where
  foreignPeerIds := peers
  version := version
  networkSecretDigest := []
  myPeerIdForThisNetwork := 1
  lastUpdate := some changed

def singleNetwork (entry : TimedEntry) : TimedNetworks :=
  (∅ : TimedNetworks).insert hostedKey entry

theorem lookup_singleNetwork {entry found : TimedEntry} {key : ForeignNetworkRouteInfoKey}
    (held : (singleNetwork entry).lookup key = some found) : key = hostedKey ∧ found = entry := by
  obtain absurdity | here := Best.lookup_insert_origin held
  · cases absurdity
  · exact here

theorem singleNetwork_listed (p : PeerId) (peers : List PeerId) (changed : Int) :
    Listed 1 (singleNetwork (hostedEntry 0 (p :: peers) changed)) where
  mine key new found := by rw [(lookup_singleNetwork found).1]; rfl
  peers key new found := by rw [(lookup_singleNetwork found).2]; exact List.cons_ne_nil p peers
  version key new found := by rw [(lookup_singleNetwork found).2]; rfl
  timed key new found := by rw [(lookup_singleNetwork found).2]; rfl

/-- A peer joins, and ten seconds later the network is gone. -/
theorem joined_raises :
    let calls : List ForeignCall :=
      [⟨singleNetwork (hostedEntry 0 [2, 3] (10 ^ 18 + 5 * 10 ^ 9)),
        10 ^ 18 + 10 * 10 ^ 9, fun _ => 0⟩,
        ⟨∅, 10 ^ 18 + 20 * 10 ^ 9, fun _ => 0⟩]
    let stored := singleNetwork (hostedEntry (10 ^ 9) [2] (10 ^ 18))
    ∃ stored', Schedule.final (foreignStep 1) stored calls = some stored' ∧
      (stored'.lookup hostedKey).map (·.foreignPeerIds) = some [] ∧ Raised 1 stored stored' := by
  intro calls stored
  obtain ⟨stored', ran, gone⟩ : ∃ stored',
      Schedule.final (foreignStep 1) stored calls = some stored' ∧
      (stored'.lookup hostedKey).map (·.foreignPeerIds) = some [] := ⟨_, rfl, by decide +kernel⟩
  refine ⟨stored', ran, gone, foreign_changes_raise (fun call mem => ?_) (by decide +kernel) ran⟩
  obtain rfl | mem := List.mem_cons.mp mem
  · exact singleNetwork_listed 2 [3] _
  · cases List.mem_singleton.mp mem
    exact ⟨nofun, nofun, nofun, nofun⟩

/-- The clock is set back by twenty seconds, then a peer joins: the version goes back too. -/
theorem joined_after_clock_set_back :
    ∃ stored stored',
      updateMyForeignNetwork ∅ 1 (singleNetwork (hostedEntry 0 [2] (10 ^ 18 - 100 * 10 ^ 9)))
        (10 ^ 18) (fun _ => 0) = some (stored, true) ∧
      updateMyForeignNetwork stored 1
        (singleNetwork (hostedEntry 0 [2, 3] (10 ^ 18 - 15 * 10 ^ 9)))
        (10 ^ 18 - 10 * 10 ^ 9) (fun _ => 0) = some (stored', true) ∧
      ¬ Raised 1 stored stored' := by
  refine ⟨singleNetwork (hostedEntry (10 ^ 9) [2] (10 ^ 18 - 100 * 10 ^ 9)),
    singleNetwork (hostedEntry (10 ^ 9 - 10) [2, 3] (10 ^ 18 - 15 * 10 ^ 9)),
    rfl, rfl, fun raised => ?_⟩
  have bad := raised hostedKey _ _ rfl (AList.lookup_insert _) (AList.lookup_insert _) (by decide)
  exact absurd bad.1 (by decide)

/-! ## A network that does not change -/

/-- An entry with no time, or one in the future, counts as expired here. -/
def networkExpired (now : Int) (entry : TimedEntry) : Bool :=
  match entry.lastUpdate.bind (durationSince now) with
  | some sinceLastUpdate => REMOVE_DEAD_PEER_INFO_AFTER < sinceLastUpdate
  | none => true

/-- What `clear_expired_peer` does to the foreign networks: those of the expired peers go
with them. -/
def clearExpiredNetworks (stored : TimedNetworks) (expiredPeers : List PeerId) (now : Int) :
    TimedNetworks :=
  let stored := retain stored fun key _ => key.peerId ∉ expiredPeers
  retain stored fun _ entry => !networkExpired now entry

theorem lookup_clearExpiredNetworks {stored : TimedNetworks} {expiredPeers : List PeerId}
    {now : Int} {key : ForeignNetworkRouteInfoKey} {entry : TimedEntry} :
    (clearExpiredNetworks stored expiredPeers now).lookup key = some entry ↔
      stored.lookup key = some entry ∧ key.peerId ∉ expiredPeers ∧
        networkExpired now entry = false := by
  simp only [clearExpiredNetworks, lookup_retain, decide_eq_true_eq, Bool.not_eq_true',
    and_assoc]

/-- When the version of an entry was raised, and when it was dropped for its age, the
latest first. -/
structure NetworkLog where
  raised : List Int
  expired : List Int

/-- The entry has a larger version than before. -/
def versionRaised : Option TimedEntry → Option TimedEntry → Bool
  | some entry, some entry' => entry.version < entry'.version
  | _, _ => false

/-- A poll or an expiry run. -/
inductive NetworkCall where
  | poll (networks : TimedNetworks) (clearedAt : ForeignNetworkRouteInfoKey → Int)
  | clear (expiredPeers : List PeerId)

/-- One call at time `now`. Each poll finds the network as `new`. -/
inductive NetworkStep (me : PeerId) (key : ForeignNetworkRouteInfoKey) (new : TimedEntry)
    (now : Int) : NetworkCall → TimedNetworks → NetworkLog → TimedNetworks → NetworkLog → Prop where
  | poll {networks : TimedNetworks} {clearedAt : ForeignNetworkRouteInfoKey → Int}
      {stored stored' : TimedNetworks} {updated : Bool} (log : NetworkLog) :
      Listed me networks → networks.lookup key = some new →
      updateMyForeignNetwork stored me networks now clearedAt = some (stored', updated) →
      NetworkStep me key new now (.poll networks clearedAt) stored log stored'
        (if versionRaised (stored.lookup key) (stored'.lookup key) then
          { log with raised := now :: log.raised } else log)
  | clear (expiredPeers : List PeerId) (stored : TimedNetworks) (log : NetworkLog) :
      NetworkStep me key new now (.clear expiredPeers) stored log
        (clearExpiredNetworks stored expiredPeers now)
        (if (stored.lookup key).isSome ∧
            ((clearExpiredNetworks stored expiredPeers now).lookup key).isNone then
          { log with expired := now :: log.expired } else log)

/-- Calls at most 60 s apart on a clock that does not go back. -/
inductive NetworkRun (me : PeerId) (key : ForeignNetworkRouteInfoKey) (new : TimedEntry)
    (Allowed : TimedNetworks → Int → NetworkCall → Prop) (start : TimedNetworks) (t0 : Int) :
    TimedNetworks → Int → NetworkLog → Prop where
  | start : NetworkRun me key new Allowed start t0 start t0 ⟨[], []⟩
  | step {stored stored' : TimedNetworks} {last now : Int} {log log' : NetworkLog}
      {call : NetworkCall} : NetworkRun me key new Allowed start t0 stored last log →
      last ≤ now → now ≤ last + 60 * 10 ^ 9 → Allowed stored now call →
      NetworkStep me key new now call stored log stored' log' →
      NetworkRun me key new Allowed start t0 stored' now log'

/-- The entry is not renewed for its age, does not reach the age of removal, and the own
peer info does not expire. -/
def KeepsEntry (me : PeerId) (key : ForeignNetworkRouteInfoKey) (new : TimedEntry)
    (stored : TimedNetworks) (now : Int) : NetworkCall → Prop
  | .poll .. => ∀ entry time, stored.lookup key = some entry → entry.lastUpdate = some time →
      isForeignNetworkInfoNewer new entry = some true ∨ now ≤ time + UPDATE_PEER_INFO_PERIOD
  | .clear expiredPeers => me ∉ expiredPeers ∧ ∀ entry time, stored.lookup key = some entry →
      entry.lastUpdate = some time → now ≤ time + REMOVE_DEAD_PEER_INFO_AFTER

/-- What a run keeps: a time that is not in the future, no removal, and after a raise the
time of the network itself. -/
structure Steady (key : ForeignNetworkRouteInfoKey) (new : TimedEntry) (stored : TimedNetworks)
    (last : Int) (log : NetworkLog) : Prop where
  timed : ∀ entry, stored.lookup key = some entry → ∃ time, entry.lastUpdate = some time ∧
    time ≤ last
  expired : log.expired = []
  raised : log.raised = [] ∨ (∃ time, log.raised = [time]) ∧
    ∀ entry, stored.lookup key = some entry → entry.lastUpdate = new.lastUpdate

section

variable {me : PeerId} {key : ForeignNetworkRouteInfoKey} {new : TimedEntry}
  {stored stored' : TimedNetworks} {last now changed : Int} {log log' : NetworkLog}

/-- Only a change of the network renews an entry that is young enough. -/
theorem needRenew_iff {entry : TimedEntry} {time : Int} (held : entry.lastUpdate = some time)
    (hosted : new.lastUpdate = some changed) (young : now ≤ time + UPDATE_PEER_INFO_PERIOD) :
    needRenew now entry new = true ↔ time < changed := by
  have positive : 0 < UPDATE_PEER_INFO_PERIOD := by decide
  have age : (durationSince now time).getD 0 ≤ UPDATE_PEER_INFO_PERIOD := by
    unfold durationSince
    split <;> simp only [Option.getD_some, Option.getD_none] <;> omega
  simp only [needRenew, isForeignNetworkInfoNewer, held, hosted, Option.bind_some,
    Option.map_some, Bool.or_eq_true, decide_eq_true_eq, not_lt.mpr age, or_false]

theorem networkExpired_eq_false {entry : TimedEntry} {time : Int}
    (held : entry.lastUpdate = some time) (past : time ≤ now)
    (young : now ≤ time + REMOVE_DEAD_PEER_INFO_AFTER) : networkExpired now entry = false := by
  simp only [networkExpired, held, Option.bind_some, durationSince, if_pos past]
  exact decide_eq_false (by omega)

theorem Steady.of_lookup {entry : TimedEntry} {time : Int}
    (found : stored.lookup key = some entry) (stamped : entry.lastUpdate = some time)
    (past : time ≤ last) (expired : log.expired = [])
    (raised : log.raised = [] ∨ (∃ time, log.raised = [time]) ∧
      entry.lastUpdate = new.lastUpdate) : Steady key new stored last log where
  timed entry' found' := by
    cases found.symm.trans found'
    exact ⟨time, stamped, past⟩
  expired := expired
  raised := raised.imp_right fun once => ⟨once.1, fun entry' found' => by
    cases found.symm.trans found'
    exact once.2⟩

section
variable (steady : Steady key new stored last log) (forward : last ≤ now) (mine : key.peerId = me)
include steady forward mine

theorem Steady.poll (hosted : new.lastUpdate = some changed) (before : changed ≤ last)
    {networks : TimedNetworks} {clearedAt : ForeignNetworkRouteInfoKey → Int} {updated : Bool}
    (allowed : KeepsEntry me key new stored now (.poll networks clearedAt))
    (listing : networks.lookup key = some new)
    (run : updateMyForeignNetwork stored me networks now clearedAt = some (stored', updated)) :
    Steady key new stored' now
      (if versionRaised (stored.lookup key) (stored'.lookup key) then
        { log with raised := now :: log.raised } else log) := by
  obtain ⟨version, -, entries⟩ := updateMyForeignNetwork_lookup run
  obtain ⟨present, absent⟩ := entries key mine
  cases held : stored.lookup key with
  | none =>
    have added := absent new held listing
    exact .of_lookup added hosted (before.trans forward) steady.expired
      (steady.raised.imp_right fun once => ⟨once.1, rfl⟩)
  | some entry =>
    obtain ⟨time, stamped, past⟩ := steady.timed entry held
    have next := present entry held
    rw [listing, nextEntry] at next
    by_cases renew : needRenew now entry new = true
    · -- A renewal in time comes from a change of the network, so it is the first one.
      have newer : time < changed := by
        obtain newer | young := allowed entry time held stamped
        · simpa [isForeignNetworkInfoNewer, stamped, hosted] using newer
        · exact (needRenew_iff stamped hosted young).mp renew
      have first : log.raised = [] := by
        obtain none | ⟨-, same⟩ := steady.raised
        · exact none
        · have equal := (stamped.symm.trans (same entry held)).trans hosted
          exact absurd (Option.some.inj equal) newer.ne
      rw [if_pos renew] at next
      split
      · exact .of_lookup next hosted (before.trans forward) steady.expired
          (.inr ⟨⟨now, congrArg (now :: ·) first⟩, rfl⟩)
      · exact .of_lookup next hosted (before.trans forward) steady.expired (.inl first)
    · rw [if_neg renew] at next
      have same : versionRaised (some entry) (some entry) = false := decide_eq_false (lt_irrefl _)
      rw [next, same]
      exact .of_lookup next stamped (past.trans forward) steady.expired
        (steady.raised.imp_right fun once => ⟨once.1, once.2 entry held⟩)

theorem Steady.clear {expiredPeers : List PeerId}
    (allowed : KeepsEntry me key new stored now (.clear expiredPeers)) :
    Steady key new (clearExpiredNetworks stored expiredPeers now) now
      (if (stored.lookup key).isSome ∧
          ((clearExpiredNetworks stored expiredPeers now).lookup key).isNone then
        { log with expired := now :: log.expired } else log) := by
  have kept : (clearExpiredNetworks stored expiredPeers now).lookup key = stored.lookup key := by
    cases held : stored.lookup key with
    | none =>
      apply Option.eq_none_iff_forall_ne_some.mpr
      intro entry found
      cases held.symm.trans (lookup_clearExpiredNetworks.mp found).1
    | some entry =>
      obtain ⟨time, stamped, past⟩ := steady.timed entry held
      exact lookup_clearExpiredNetworks.mpr ⟨held, mine ▸ allowed.1,
        networkExpired_eq_false stamped (past.trans forward) (allowed.2 entry time held stamped)⟩
  have stays : ¬ ((stored.lookup key).isSome ∧
      ((clearExpiredNetworks stored expiredPeers now).lookup key).isNone) := by
    rw [kept]
    cases stored.lookup key <;> simp
  rw [if_neg stays]
  constructor
  · intro entry found
    obtain ⟨time, stamped, past⟩ := steady.timed entry (kept ▸ found)
    exact ⟨time, stamped, past.trans forward⟩
  · exact steady.expired
  · exact steady.raised.imp_right fun once =>
      ⟨once.1, fun entry found => once.2 entry (kept ▸ found)⟩

end

theorem NetworkRun.steady {start : TimedNetworks} {t0 : Int} (mine : key.peerId = me)
    (hosted : new.lastUpdate = some changed) (before : changed ≤ t0)
    (timed : ∀ entry, start.lookup key = some entry → ∃ time, entry.lastUpdate = some time ∧
      time ≤ t0)
    (run : NetworkRun me key new (KeepsEntry me key new) start t0 stored now log) :
    t0 ≤ now ∧ Steady key new stored now log := by
  induction run with
  | start => exact ⟨le_rfl, timed, rfl, .inl rfl⟩
  | step _ forward _ allowed step ih =>
    obtain ⟨since, steady⟩ := ih
    refine ⟨since.trans forward, ?_⟩
    cases step with
    | poll log listed listing run =>
      exact steady.poll forward mine hosted (before.trans since) allowed listing run
    | clear expiredPeers stored log => exact steady.clear forward mine allowed

/-- **A network that does not change stays announced, without churn.** While its entry is
younger than both periods, expiry does not remove it and its version is not raised twice
within `UPDATE_PEER_INFO_PERIOD`. -/
theorem stable_network_steady {start : TimedNetworks} {t0 : Int} (mine : key.peerId = me)
    (hosted : new.lastUpdate = some changed) (before : changed ≤ t0)
    (timed : ∀ entry, start.lookup key = some entry → ∃ time, entry.lastUpdate = some time ∧
      time ≤ t0)
    (run : NetworkRun me key new (KeepsEntry me key new) start t0 stored now log) :
    log.expired = [] ∧ log.raised.Pairwise fun later earlier =>
      earlier + UPDATE_PEER_INFO_PERIOD < later := by
  obtain ⟨-, steady⟩ := run.steady mine hosted before timed
  refine ⟨steady.expired, ?_⟩
  obtain none | ⟨⟨time, once⟩, -⟩ := steady.raised
  · rw [none]
    exact .nil
  · rw [once]
    exact List.pairwise_singleton _ _

end

/-- The network of the examples, last changed at `10 ^ 18`. -/
def stableEntry : TimedEntry := hostedEntry 0 [2] (10 ^ 18)

def stableStart : TimedNetworks := singleNetwork (hostedEntry (10 ^ 9) [2] (10 ^ 18))

/-- The entry is a minute older than the network: the first poll raises its version, the second
changes nothing, and then expiry looks at it. -/
theorem stable_after_half_an_hour :
    ∃ stored log, NetworkRun 1 hostedKey stableEntry (KeepsEntry 1 hostedKey stableEntry)
        (singleNetwork (hostedEntry (10 ^ 9) [2] (10 ^ 18 - 60 * 10 ^ 9))) (10 ^ 18 + 1750 * 10 ^ 9)
        stored (10 ^ 18 + 1810 * 10 ^ 9) log ∧
      log.raised = [10 ^ 18 + 1760 * 10 ^ 9] ∧ log.expired = [] ∧
      log.raised.Pairwise fun later earlier => earlier + UPDATE_PEER_INFO_PERIOD < later := by
  have young (v : Version) {changed now : Int} (late : now ≤ changed + 1900 * 10 ^ 9) :
      KeepsEntry 1 hostedKey stableEntry (singleNetwork (hostedEntry v [2] changed)) now
        (.poll (singleNetwork stableEntry) fun _ => 0) := by
    intro entry time held stamped
    obtain ⟨-, rfl⟩ := lookup_singleNetwork held
    cases stamped
    exact .inr (late.trans (Int.add_le_add_left (by decide) changed))
  have kept : KeepsEntry 1 hostedKey stableEntry
      (singleNetwork (hostedEntry (10 ^ 9 + 1760) [2] (10 ^ 18))) (10 ^ 18 + 1810 * 10 ^ 9)
      (.clear [3]) := by
    refine ⟨by decide, fun entry time held stamped => ?_⟩
    obtain ⟨-, rfl⟩ := lookup_singleNetwork held
    cases stamped
    decide
  have poll (v w : Version) (changed now : Int) (updated : Bool) (log : NetworkLog) (ran) :=
    @NetworkStep.poll 1 hostedKey stableEntry now _ (fun _ => 0)
      (singleNetwork (hostedEntry v [2] changed)) (singleNetwork (hostedEntry w [2] (10 ^ 18)))
      updated log (singleNetwork_listed 2 [] _) (AList.lookup_insert _) ran
  obtain ⟨stored, log, run, raised⟩ : ∃ stored log,
      NetworkRun 1 hostedKey stableEntry (KeepsEntry 1 hostedKey stableEntry)
        (singleNetwork (hostedEntry (10 ^ 9) [2] (10 ^ 18 - 60 * 10 ^ 9))) (10 ^ 18 + 1750 * 10 ^ 9)
        stored (10 ^ 18 + 1810 * 10 ^ 9) log ∧ log.raised = [10 ^ 18 + 1760 * 10 ^ 9] := by
    refine ⟨_, _, .step (.step (.step .start ?_ ?_ (young _ ?_)
      (poll _ (10 ^ 9 + 1760) _ (10 ^ 18 + 1760 * 10 ^ 9) true _ rfl)) ?_ ?_ (young _ ?_)
      (poll _ _ _ (10 ^ 18 + 1780 * 10 ^ 9) false _ rfl)) ?_ ?_ kept (.clear [3] _ _), rfl⟩
    all_goals decide
  refine ⟨stored, log, run, raised, stable_network_steady (by rfl) (by rfl) (by decide) ?_ run⟩
  intro entry held
  obtain ⟨-, rfl⟩ := lookup_singleNetwork held
  exact ⟨10 ^ 18 - 60 * 10 ^ 9, rfl, by decide⟩

/-- An hour after the last change, each poll raises the version, and a minute later the
entry is dropped. -/
theorem stable_network_churns :
    updateMyForeignNetwork ∅ 1 (singleNetwork stableEntry) (10 ^ 18) (fun _ => 0) =
        some (stableStart, true) ∧
      ∃ stored now log, NetworkRun 1 hostedKey stableEntry (fun _ _ _ => True) stableStart
          (10 ^ 18 + 3590 * 10 ^ 9) stored now log ∧
        log.raised = [10 ^ 18 + 3630 * 10 ^ 9, 10 ^ 18 + 3610 * 10 ^ 9] ∧
        log.expired = [10 ^ 18 + 3661 * 10 ^ 9] := by
  -- a poll `n` seconds after the change renews the entry
  have poll (v n : Nat) (log : NetworkLog) (ran) :=
    @NetworkStep.poll 1 hostedKey stableEntry (10 ^ 18 + n * 10 ^ 9) _ (fun _ => 0)
      (singleNetwork (hostedEntry (10 ^ 9 + v) [2] (10 ^ 18)))
      (singleNetwork (hostedEntry (10 ^ 9 + n) [2] (10 ^ 18))) true log
      (singleNetwork_listed 2 [] _) (AList.lookup_insert _) ran
  refine ⟨rfl, _, _, _, .step (.step (.step .start ?_ ?_ trivial (poll 0 3610 ⟨[], []⟩ rfl)) ?_ ?_
    trivial (poll 3610 3630 _ rfl)) ?_ ?_ trivial
    (@NetworkStep.clear _ _ _ (10 ^ 18 + 3661 * 10 ^ 9) [] _ _), rfl, rfl⟩
  all_goals decide

end PeerLink.Sync
