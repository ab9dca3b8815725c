import PeerLink.Connector.Places

/-!
# The panics of the manual connector

The tick unwraps the removal of a URL that it has collected from `connectors` and asserts that
it is not yet in `reconnecting`; a task unwraps its removal from there. None of them fails in a
run that adds no URL while it is being reconnected and lets no listing take out a URL that the tick
has collected (`careful_run_goes_on`). A URL that is added while it is being reconnected is
enough for a panic at the next tick.
-/

namespace PeerLink.ManualConnector

open Schedule

variable {Url : Type} [DecidableEq Url]

/-- No URL is added while it is in `reconnecting` or between the two sets, and
`handle_remove_connector` meets no URL in `removed_conn_urls` that the tick has collected and not
yet moved. -/
def Careful (m : Manager Url) : Event Url → Prop
  | .add url => url ∉ m.shared.reconnecting ∧ ∀ thread ∈ m.tasks, thread.view url ≠ .moving
  | .turn i (some url) => ∀ thread ∈ m.tasks[i]?, thread.kind (some url) url = .visits →
    ∀ other ∈ m.tasks, other.view url ≠ .outside true
  | _ => True

instance (m : Manager Url) : (event : Event Url) → Decidable (Careful m event)
  | .add _ => inferInstanceAs (Decidable (_ ∧ ∀ thread ∈ m.tasks, _))
  | .turn i (some _) =>
    inferInstanceAs (Decidable (∀ thread ∈ m.tasks[i]?, _ → ∀ other ∈ m.tasks, _))
  | .turn _ none | .call _ | .alive _ => .isTrue trivial

section
variable {m m' : Manager Url} {event : Event Url}

theorem Careful.added (careful : Careful m event) (url : Url) : AddedApart url m event := by
  cases event with
  | add other =>
    rintro rfl
    exact careful
  | _ => trivial

theorem kind_visits {thread : Thread Url} {take : Option Url} {url : Url}
    (visits : thread.kind take url = .visits) : take = some url := by
  have collects (phase : Collect Url) (visits : phase.kind take url = .visits) :
      take = some url := by
    obtain quiet | ⟨-, same⟩ := phase.kind_cases take url
    · rw [quiet] at visits
      cases visits
    · exact same
  unfold Thread.kind at visits
  split at visits
  case h_2 phase => exact collects phase visits
  case h_6 phase => exact collects phase visits
  all_goals first | split at visits <;> cases visits | cases visits

theorem Careful.visited (careful : Careful m event) (url : Url) : VisitedApart url m event := by
  cases event with
  | turn i take =>
    intro thread here visits
    obtain rfl := kind_visits visits
    exact careful thread here visits
  | _ => trivial

/-- The operations that may panic find what they need. -/
theorem operate_goes_on {data : ConnectorManagerData Url} {thread : Thread Url}
    (stands : ∀ url, Stands (data.sight url) (thread.view url))
    (picked : ∀ url, thread.view url = .outside true → url ∈ data.connectors) (take : Option Url) :
    ∃ result, thread.operate data take = some result := by
  cases thread with
  | tick phase =>
    cases phase with
    | idle => exact ⟨_, rfl⟩
    | collect phase =>
      obtain ⟨dead, rfl⟩ | working := phase.done_or_working
      · simp only [Thread.operate]
        split <;> exact ⟨_, rfl⟩
      · exact ⟨_, operate_tick_collect working⟩
    | reconnect dead =>
      cases take with
      | none =>
        simp only [Thread.operate]
        split <;> exact ⟨_, rfl⟩
      | some url =>
        by_cases inDead : url ∈ dead
        · have here := picked url (by simp [Thread.view, inDead])
          simp only [Thread.operate, if_pos inDead, if_pos here]
          exact ⟨_, rfl⟩
        · simp only [Thread.operate, if_neg inDead]
          exact ⟨_, rfl⟩
    | hold url dead =>
      have free := stands url
      simp only [Thread.view, if_true, Stands, ConnectorManagerData.sight_reconnecting,
        decide_eq_false_iff_not] at free
      simp only [Thread.operate, if_neg free.2]
      exact ⟨_, rfl⟩
  | call target phase =>
    cases phase with
    | collect connUrls phase =>
      obtain ⟨dead, rfl⟩ | working := phase.done_or_working
      · exact ⟨_, rfl⟩
      · exact ⟨_, operate_call_collect working⟩
    | insert url | ended listed => exact ⟨_, rfl⟩
    | _ =>
      simp only [Thread.operate]
      repeat' split
      all_goals exact ⟨_, rfl⟩
  | task url phase =>
    cases phase with
    | running =>
      have here := stands url
      simp only [Thread.view, if_true, Stands, ConnectorManagerData.sight_reconnecting,
        decide_eq_true_eq] at here
      simp only [Thread.operate, if_pos here]
      exact ⟨_, rfl⟩
    | inserting | ended => exact ⟨_, rfl⟩

theorem step_goes_on (placed : ∀ url, Placed url m) (picked : ∀ url, Picked url m)
    (event : Event Url) : ∃ m', m.step event = some m' := by
  cases event with
  | turn i take =>
    simp only [Manager.step]
    cases here : m.tasks[i]? with
    | none => exact ⟨_, rfl⟩
    | some thread =>
      obtain ⟨⟨data, thread', new⟩, operates⟩ := operate_goes_on
        (fun url => (placed url).each i thread here)
        (fun url => (picked url).each i thread here) take
      simp only [operates]
      cases new <;> exact ⟨_, rfl⟩
  | _ => exact ⟨_, rfl⟩

end

/-- **Careful runs do not panic.** Neither the `unwrap` of `connectors.remove`, nor that of
`reconnecting.remove`, nor the assertion fails, in any interleaving. -/
theorem careful_run_goes_on (events : List (Event Url))
    (careful : ∀ move ∈ moves Manager.step Manager.new events, Careful move.1 move.2) :
    ∃ m, final Manager.step (Manager.new : Manager Url) events = some m := by
  have goesOn (m : Manager Url) (event : Event Url)
      (inv : ∀ url, Placed url m ∧ Picked url m) (careful : Careful m event) :
      ∃ m', m.step event = some m' ∧ ∀ url, Placed url m' ∧ Picked url m' := by
    obtain ⟨m', stepped⟩ := step_goes_on (fun url => (inv url).1) (fun url => (inv url).2) event
    refine ⟨m', stepped, fun url => ⟨?_, ?_⟩⟩
    · exact step_placed (inv url).1 (careful.added url) stepped
    · exact step_picked (inv url).2 (careful.visited url) stepped
  obtain ⟨m, ran, -⟩ := final_of_moves goesOn (fun url => ⟨new_placed, new_picked⟩) careful
  exact ⟨m, ran⟩

/-- A tick that collects `url` and comes to its removal from `connectors`. -/
def collectAlone (url : Nat) : List (Event Nat) :=
  [.turn 0 none, .turn 0 none, .turn 0 none, .turn 0 none, .turn 0 (some url), .turn 0 none,
    .turn 0 (some url), .turn 0 none, .turn 0 none]

/-- The rest of that tick: `url` is moved to `reconnecting` and gets a task. -/
def reconnectAlone (url : Nat) : List (Event Nat) :=
  [.turn 0 (some url), .turn 0 none, .turn 0 none]

/-- A URL is added, moved to `reconnecting` by one tick and back by its task, moved again by
another tick, and listed meanwhile. -/
def reconnectedTwice : List (Event Nat) :=
  [[.add 1], collectAlone 1, reconnectAlone 1, [.turn 1 none, .turn 1 none, .call none],
    collectAlone 1, [.turn 2 (some 1), .turn 2 none, .turn 2 none], reconnectAlone 1].flatten

theorem reconnectedTwice_goes_on :
    (∀ move ∈ moves Manager.step Manager.new reconnectedTwice, Careful move.1 move.2) ∧
      ∃ m, final Manager.step (Manager.new : Manager Nat) reconnectedTwice = some m ∧
        m.shared.reconnecting = {1} := by
  have careful : ∀ move ∈ moves Manager.step Manager.new reconnectedTwice,
      Careful move.1 move.2 := by decide +kernel
  obtain ⟨m, ran⟩ := careful_run_goes_on reconnectedTwice careful
  refine ⟨careful, m, ran, ?_⟩
  have ends : (final Manager.step (Manager.new : Manager Nat) reconnectedTwice).map
      (fun m => m.shared.reconnecting) = some {1} := by decide +kernel
  rw [ran] at ends
  exact Option.some.inj ends

/-- The URL is added again while its task is running. The next tick collects it, takes it out of
`connectors`, and finds it in `reconnecting`. -/
theorem added_while_reconnecting :
    let events := [[.add 1], collectAlone 1, reconnectAlone 1, [.add 1], collectAlone 1,
      [.turn 0 (some 1)]].flatten
    (final Manager.step (Manager.new : Manager Nat) events).isSome = true ∧
      final Manager.step (Manager.new : Manager Nat) (events ++ [.turn 0 none]) = none := by
  decide +kernel

end PeerLink.ManualConnector
