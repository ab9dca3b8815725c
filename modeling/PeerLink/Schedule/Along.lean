/-!
# Along a run

A step that may end a run, and what a run goes through: its states (`visited`) and its steps,
each as the state before it and the event (`moves`). Where one step keeps a property just if
the event fits the state, a property of all states is the same as every step fitting
(`visited_iff_moves`).
-/

namespace PeerLink.Schedule

variable {S E : Type} (step : S → E → Option S)

/-- The state that a run ends in. -/
def final (s : S) : List E → Option S
  | [] => some s
  | event :: events => (step s event).bind fun s => final s events

def visited (s : S) : List E → List S
  | [] => [s]
  | event :: events => s :: ((step s event).map fun s => visited s events).getD []

def moves (s : S) : List E → List (S × E)
  | [] => []
  | event :: events => (s, event) :: ((step s event).map fun s => moves s events).getD []

variable {step} {inv : S → Prop} {fits : S → E → Prop} {s s' : S} {events : List E}

theorem event_of_moves {move : S × E}
    (mem : move ∈ moves step s events) : move.2 ∈ events := by
  induction events generalizing s with
  | nil => cases mem
  | cons event events ih =>
    obtain rfl | later := List.mem_cons.mp mem
    · exact List.mem_cons_self
    · cases stepped : step s event with
      | none =>
        rw [stepped] at later
        cases later
      | some next =>
        rw [stepped] at later
        exact List.mem_cons_of_mem event (ih later)

/-- A run goes on to its end where each step that fits goes on and keeps the invariant. -/
theorem final_of_moves
    (goesOn : ∀ s event, inv s → fits s event → ∃ s', step s event = some s' ∧ inv s')
    (start : inv s) (along : ∀ move ∈ moves step s events, fits move.1 move.2) :
    ∃ s', final step s events = some s' ∧ inv s' := by
  induction events generalizing s with
  | nil => exact ⟨s, rfl, start⟩
  | cons event events ih =>
    rw [moves, List.forall_mem_cons] at along
    obtain ⟨mid, stepped, inv⟩ := goesOn s event start along.1
    rw [stepped, Option.map_some, Option.getD_some] at along
    obtain ⟨last, ran, inv⟩ := ih inv along.2
    exact ⟨last, by rw [final, stepped, Option.bind_some, ran], inv⟩

theorem final_of_invariant
    (goesOn : ∀ s event, inv s → ∃ s', step s event = some s' ∧ inv s') (start : inv s)
    (events : List E) : ∃ s', final step s events = some s' ∧ inv s' := by
  apply @final_of_moves S E step inv (fun _ _ => True)
  · exact fun s event inv _ => goesOn s event inv
  · exact start
  · exact fun _ _ => trivial

/-- What steps that fit keep holds at the end of a run, if there is one. -/
theorem inv_of_final
    (keeps : ∀ s event s', inv s → fits s event → step s event = some s' → inv s')
    (start : inv s) (along : ∀ move ∈ moves step s events, fits move.1 move.2)
    (ran : final step s events = some s') : inv s' := by
  induction events generalizing s with
  | nil => exact Option.some.inj ran ▸ start
  | cons event events ih =>
    rw [moves, List.forall_mem_cons] at along
    obtain ⟨mid, stepped, ran⟩ := Option.bind_eq_some_iff.mp ran
    rw [stepped, Option.map_some, Option.getD_some] at along
    exact ih (keeps s event mid start along.1 stepped) along.2 ran

/-- What each step keeps just if the event fits holds all along a run just if all of its
events fit. -/
theorem visited_iff_moves {admitted : E → Prop} {holds : S → Prop}
    (keeps : ∀ s event, admitted event → inv s → holds s →
      ∃ s', step s event = some s' ∧ inv s' ∧ (holds s' ↔ fits s event))
    (allowed : ∀ event ∈ events, admitted event) (start : inv s) (initially : holds s) :
    (∀ s' ∈ visited step s events, holds s') ↔
      ∀ move ∈ moves step s events, fits move.1 move.2 := by
  induction events generalizing s with
  | nil => simp [visited, moves, initially]
  | cons event events ih =>
    obtain ⟨here, later⟩ := List.forall_mem_cons.mp allowed
    obtain ⟨next, stepped, inv, kept⟩ := keeps s event here start initially
    have first : next ∈ visited step next events := by
      cases events <;> exact List.mem_cons_self
    rw [visited, moves, stepped, Option.map_some, Option.map_some, Option.getD_some,
      Option.getD_some, List.forall_mem_cons, List.forall_mem_cons, ← kept]
    constructor
    · rintro ⟨-, rest⟩
      have onward := rest next first
      exact ⟨onward, (ih later inv onward).mp rest⟩
    · rintro ⟨onward, rest⟩
      exact ⟨initially, (ih later inv onward).mpr rest⟩

/-- Every event of a run fits the state that it meets, where every step goes on. -/
def Throughout (step : S → E → S) (fits : S → E → Prop) (s : S) : List E → Prop
  | [] => True
  | event :: events => fits s event ∧ Throughout step fits (step s event) events

instance Throughout.decidable (step : S → E → S) (fits : S → E → Prop)
    [∀ s event, Decidable (fits s event)] :
    ∀ s events, Decidable (Throughout step fits s events)
  | _, [] => inferInstanceAs (Decidable True)
  | s, event :: events =>
    have := Throughout.decidable step fits (step s event) events
    inferInstanceAs (Decidable (fits s event ∧ Throughout step fits (step s event) events))

theorem Throughout.foldl {step : S → E → S}
    (keeps : ∀ s event, inv s → fits s event → inv (step s event)) (start : inv s)
    (along : Throughout step fits s events) : inv (events.foldl step s) := by
  induction events generalizing s with
  | nil => exact start
  | cons event events ih => exact ih (keeps s event start along.1) along.2

end PeerLink.Schedule
