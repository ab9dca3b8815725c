import PeerLink.Schedule.Along

/-!
# Costs of the routes

The peer center writes the global peer map and then the time of that. The cost calculator copies
the map when an update of the route tables begins and takes over the time when it ends, so a map
that comes in between counts as used.
-/

namespace PeerLink.PeerCenter

/-- The map and the calculator, with the copy that the tables were built from last and the calls of
`update_route_table` that have begun and that have built. -/
structure CostState (GlobalPeerMap : Type) where
  globalPeerMap : GlobalPeerMap
  /-- The map is written and its time is not. -/
  refreshing : Bool
  globalPeerMapUpdateTime : Nat
  globalPeerMapClone : GlobalPeerMap
  used : GlobalPeerMap
  lastUpdateTime : Nat
  begun : Nat
  built : Nat
  deriving DecidableEq

/-- The steps of the one job that gets the map, and of any number of `update_route_table`. -/
inductive CostEvent (GlobalPeerMap : Type) where
  | writeMap (map : GlobalPeerMap)
  | storeTime (now : Nat)
  | beginUpdate
  | buildTables
  | endUpdate

namespace CostState
variable {GlobalPeerMap : Type}

variable (s : CostState GlobalPeerMap)

def step : CostEvent GlobalPeerMap → Option (CostState GlobalPeerMap)
  | .writeMap map =>
    if s.refreshing then none else some { s with globalPeerMap := map, refreshing := true }
  | .storeTime now =>
    if s.refreshing then
      some { s with globalPeerMapUpdateTime := now, refreshing := false }
    else
      none
  | .beginUpdate => some { s with globalPeerMapClone := s.globalPeerMap, begun := s.begun + 1 }
  | .buildTables =>
    if s.begun = 0 then none
    else some { s with used := s.globalPeerMapClone, begun := s.begun - 1, built := s.built + 1 }
  | .endUpdate =>
    if s.built = 0 then none
    else some { s with lastUpdateTime := s.globalPeerMapUpdateTime, built := s.built - 1 }

def needUpdate : Bool := s.lastUpdateTime < s.globalPeerMapUpdateTime

def Idle : Prop := s.refreshing = false ∧ s.begun = 0 ∧ s.built = 0

/-- Times increase, and no map is written between a `begin_update` and its `end_update`. -/
def InTime : CostEvent GlobalPeerMap → Prop
  | .writeMap _ => s.begun = 0 ∧ s.built = 0
  | .storeTime now => s.globalPeerMapUpdateTime < now
  | _ => True

/-- The updates in progress have copied the current map, and a map that is not in use is announced
by the times or by a step in progress. -/
structure Announced : Prop where
  copied : s.begun ≠ 0 → s.globalPeerMapClone = s.globalPeerMap
  inUse : s.built ≠ 0 → s.used = s.globalPeerMap
  taken : s.lastUpdateTime ≤ s.globalPeerMapUpdateTime
  known : s.lastUpdateTime < s.globalPeerMapUpdateTime ∨ s.refreshing = true ∨
    s.used = s.globalPeerMap

theorem Announced.step {s s' : CostState GlobalPeerMap} {event : CostEvent GlobalPeerMap}
    (announced : s.Announced) (inTime : s.InTime event) (stepped : s.step event = some s') :
    s'.Announced := by
  obtain ⟨copied, inUse, taken, known⟩ := announced
  cases event with
  | writeMap map =>
    obtain ⟨-, rfl⟩ : _ ∧ _ = s' := by simpa [CostState.step] using stepped
    obtain ⟨none_begun, none_built⟩ := inTime
    exact ⟨fun some => absurd none_begun some, fun some => absurd none_built some, taken,
      .inr (.inl rfl)⟩
  | storeTime now =>
    obtain ⟨-, rfl⟩ : _ ∧ _ = s' := by simpa [CostState.step] using stepped
    have later : s.lastUpdateTime < now := Nat.lt_of_le_of_lt taken inTime
    exact ⟨copied, inUse, Nat.le_of_lt later, .inl later⟩
  | beginUpdate =>
    cases stepped
    exact ⟨fun _ => rfl, inUse, taken, known⟩
  | buildTables =>
    obtain ⟨begun, rfl⟩ : s.begun ≠ 0 ∧ _ = s' := by simpa [CostState.step] using stepped
    have current := copied begun
    exact ⟨fun _ => current, fun _ => current, taken, .inr (.inr current)⟩
  | endUpdate =>
    obtain ⟨built, rfl⟩ : s.built ≠ 0 ∧ _ = s' := by simpa [CostState.step] using stepped
    have current := inUse built
    exact ⟨copied, fun _ => current, Nat.le_refl _, .inr (.inr current)⟩

/-- **Costs are not left stale** in runs where no map is written during an update: where nothing is
in progress and no update is needed, the tables were built from the current map. -/
theorem current_of_inTime {start s : CostState GlobalPeerMap} (fresh : start.Idle)
    (needed : start.lastUpdateTime < start.globalPeerMapUpdateTime)
    {events : List (CostEvent GlobalPeerMap)}
    (inTime : ∀ move ∈ Schedule.moves CostState.step start events, move.1.InTime move.2)
    (ran : Schedule.final CostState.step start events = some s) (idle : s.Idle)
    (current : s.needUpdate = false) : s.used = s.globalPeerMap := by
  obtain ⟨-, none_begun, none_built⟩ := fresh
  have announced : s.Announced := Schedule.inv_of_final
    (fun _ _ _ announced inTime stepped => announced.step inTime stepped)
    ⟨fun some => absurd none_begun some, fun some => absurd none_built some,
      Nat.le_of_lt needed, .inl needed⟩ inTime ran
  rcases announced.known with later | refreshing | used
  · exact absurd later (of_decide_eq_false current)
  · exact absurd refreshing (by simp [idle.1])
  · exact used

/-- The calculator is made one second before the time of the map. -/
def initial : CostState Nat := ⟨0, false, 1, 0, 0, 0, 0, 0⟩

/-- Two updates at once and a map after them; the next update begins before its time is stored. -/
theorem refresh_then_update :
    let events : List (CostEvent Nat) := [.beginUpdate, .beginUpdate, .buildTables, .endUpdate,
      .buildTables, .endUpdate, .writeMap 1, .beginUpdate, .storeTime 2, .buildTables, .endUpdate]
    ∃ s, Schedule.final step initial events = some s ∧ s.Idle ∧ s.needUpdate = false ∧
      s.used = s.globalPeerMap := by
  intro events
  obtain ⟨s, ran, idle, current⟩ : ∃ s, Schedule.final step initial events = some s ∧
      s.Idle ∧ s.needUpdate = false := ⟨_, rfl, ⟨rfl, rfl, rfl⟩, rfl⟩
  refine ⟨s, ran, idle, current, current_of_inTime ⟨rfl, rfl, rfl⟩ (by decide) ?_ ran idle current⟩
  simp [events, Schedule.moves, step, InTime, initial]

/-- A map that comes between the copy and the end of an update is not asked for again. -/
theorem refresh_during_update :
    ∃ s, Schedule.final step initial
        [.beginUpdate, .writeMap 1, .storeTime 2, .buildTables, .endUpdate] = some s ∧
      s.Idle ∧ s.needUpdate = false ∧ s.used ≠ s.globalPeerMap :=
  ⟨_, rfl, ⟨rfl, rfl, rfl⟩, rfl, by decide⟩

end CostState

end PeerLink.PeerCenter
