import Mathlib.Data.List.Basic

/-!
# Tasks on a shared state

A pool of tasks, each with a state of its own, that take turns on a shared state. `Sound` is
the usual invariant of such a pool: one of the shared state, an assertion of every task about
the shared state, and a relation between any two tasks. A turn keeps it if the task that takes
the turn establishes its new assertion and does not interfere with those of the others
(`Sound.turn`); likewise for a new task (`Sound.spawn`) and for a change that no task makes
(`Sound.change`).
-/

namespace PeerLink.Schedule

structure Pool (S T : Type) where
  shared : S
  tasks : List T

namespace Pool

variable {S T : Type}

/-- Task `i` takes a turn: it is `t` now, and the shared state is `s`. -/
def turn (pool : Pool S T) (i : Nat) (s : S) (t : T) : Pool S T := ⟨s, pool.tasks.set i t⟩

def spawn (pool : Pool S T) (s : S) (t : T) : Pool S T := ⟨s, pool.tasks ++ [t]⟩

def change (pool : Pool S T) (s : S) : Pool S T := ⟨s, pool.tasks⟩

variable (inv : S → Prop) (asserts : S → T → Prop) (apart : T → T → Prop)

structure Sound (pool : Pool S T) : Prop where
  shared : inv pool.shared
  each : ∀ (i : Nat) (t : T), pool.tasks[i]? = some t → asserts pool.shared t
  pairs : ∀ (i j : Nat) (t u : T), pool.tasks[i]? = some t → pool.tasks[j]? = some u →
    i ≠ j → apart t u

variable {inv asserts apart} {pool : Pool S T} {s : S} {t : T} {i : Nat}

variable {j : Nat} {u before : T}

theorem getElem?_turn (found : (pool.turn i s t).tasks[j]? = some u) :
    j = i ∧ u = t ∨ j ≠ i ∧ pool.tasks[j]? = some u := by
  unfold turn at found
  by_cases same : j = i
  · subst same
    rw [List.getElem?_set_self'] at found
    obtain ⟨-, -, rfl⟩ := Option.map_eq_some_iff.mp found
    exact .inl ⟨rfl, rfl⟩
  · rw [List.getElem?_set_ne (Ne.symm same)] at found
    exact .inr ⟨same, found⟩

theorem getElem?_spawn (found : (pool.spawn s t).tasks[j]? = some u) :
    j = pool.tasks.length ∧ u = t ∨ pool.tasks[j]? = some u := by
  unfold spawn at found
  rw [List.getElem?_append] at found
  split at found
  · exact .inr found
  · rw [List.getElem?_singleton] at found
    split at found
    · exact .inl ⟨by omega, (Option.some.inj found).symm⟩
    · cases found

theorem turn_self (here : pool.tasks[i]? = some before) :
    (pool.turn i s t).tasks[i]? = some t :=
  List.getElem?_set_self (List.getElem?_eq_some_iff.mp here).1

theorem turn_other (other : i ≠ j) :
    (pool.turn i s t).tasks[j]? = pool.tasks[j]? :=
  List.getElem?_set_ne other

/-- The tasks that do not take the turn stay. -/
theorem mem_turn (here : pool.tasks[i]? = some before) (mem : u ∈ pool.tasks) (other : u ≠ before) :
    u ∈ (pool.turn i s t).tasks := by
  obtain ⟨j, found⟩ := List.mem_iff_getElem?.mp mem
  have apart : i ≠ j := by
    rintro rfl
    exact other (Option.some.inj (found.symm.trans here))
  exact List.mem_of_getElem? ((turn_other apart).trans found)

theorem spawn_other (found : pool.tasks[j]? = some u) :
    (pool.spawn s t).tasks[j]? = some u :=
  (List.getElem?_append_left (List.getElem?_eq_some_iff.mp found).1).trans found

theorem getElem?_spawn_self : (pool.spawn s t).tasks[pool.tasks.length]? = some t := by
  simp [spawn]

/-- A pool without tasks. -/
theorem Sound.idle (shared : inv s) : (⟨s, []⟩ : Pool S T).Sound inv asserts apart := by
  refine ⟨shared, fun i t found => ?_, fun i j t u found => ?_⟩
  all_goals
    rw [List.getElem?_nil] at found
    cases found

theorem Sound.single (shared : inv s) (own : asserts s t) :
    (⟨s, [t]⟩ : Pool S T).Sound inv asserts apart := by
  refine ⟨shared, fun i u found => ?_, fun i j u v found found' ne => ?_⟩
  · cases i <;> cases found
    exact own
  · cases i <;> cases found
    cases j <;> cases found'
    exact absurd rfl ne

variable (sound : pool.Sound inv asserts apart)
include sound

section
variable (symm : ∀ t u, apart t u → apart u t)
include symm

/-- A turn that looks at what each of the other tasks is. -/
theorem Sound.turn_at (shared : inv s) (own : asserts s t)
    (others : ∀ (j : Nat) (u : T), j ≠ i → pool.tasks[j]? = some u → asserts s u ∧ apart t u) :
    (pool.turn i s t).Sound inv asserts apart := by
  refine ⟨shared, fun j u found => ?_, fun j k u v foundJ foundK ne => ?_⟩
  · obtain ⟨-, rfl⟩ | ⟨ne, old⟩ := getElem?_turn found
    · exact own
    · exact (others j u ne old).1
  · obtain ⟨rfl, rfl⟩ | ⟨neJ, oldJ⟩ := getElem?_turn foundJ
    · obtain ⟨rfl, -⟩ | ⟨neK, oldK⟩ := getElem?_turn foundK
      · exact absurd rfl ne
      · exact (others k v neK oldK).2
    · obtain ⟨rfl, rfl⟩ | ⟨neK, oldK⟩ := getElem?_turn foundK
      · exact symm _ _ (others j u neJ oldJ).2
      · exact sound.pairs j k u v oldJ oldK ne

theorem Sound.turn (here : pool.tasks[i]? = some before) (shared : inv s) (own : asserts s t)
    (others : ∀ u, apart before u → asserts pool.shared u → asserts s u ∧ apart t u) :
    (pool.turn i s t).Sound inv asserts apart := by
  apply sound.turn_at symm shared own
  intro j u ne found
  exact others u (sound.pairs i j before u here found (Ne.symm ne)) (sound.each j u found)

theorem Sound.spawn (shared : inv s) (own : asserts s t)
    (others : ∀ (j : Nat) (u : T), pool.tasks[j]? = some u → asserts s u ∧ apart t u) :
    (pool.spawn s t).Sound inv asserts apart := by
  refine ⟨shared, fun j u found => ?_, fun j k u v foundJ foundK ne => ?_⟩
  · obtain ⟨-, rfl⟩ | old := getElem?_spawn found
    · exact own
    · exact (others j u old).1
  · obtain ⟨lastJ, rfl⟩ | oldJ := getElem?_spawn foundJ
    · obtain ⟨lastK, -⟩ | oldK := getElem?_spawn foundK
      · exact absurd (lastJ.trans lastK.symm) ne
      · exact (others k v oldK).2
    · obtain ⟨-, rfl⟩ | oldK := getElem?_spawn foundK
      · exact symm _ _ (others j u oldJ).2
      · exact sound.pairs j k u v oldJ oldK ne

/-- Task `i` takes a turn, and starts a task. -/
theorem Sound.fork {new : T} (shared : inv s) (own : asserts s t) (started : asserts s new)
    (both : apart new t)
    (others : ∀ (j : Nat) (u : T), j ≠ i → pool.tasks[j]? = some u →
      asserts s u ∧ apart t u ∧ apart new u) :
    ((pool.turn i s t).spawn s new).Sound inv asserts apart := by
  have turned : (pool.turn i s t).Sound inv asserts apart := by
    apply sound.turn_at symm shared own
    intro j u ne found
    obtain ⟨still, one, -⟩ := others j u ne found
    exact ⟨still, one⟩
  apply turned.spawn symm shared started
  intro j u found
  obtain ⟨-, rfl⟩ | ⟨ne, old⟩ := getElem?_turn found
  · exact ⟨own, both⟩
  · obtain ⟨still, -, two⟩ := others j u ne old
    exact ⟨still, two⟩

end

theorem Sound.change {inv' : S → Prop} {asserts' : S → T → Prop} (shared : inv' s)
    (others : ∀ u, asserts pool.shared u → asserts' s u) :
    (pool.change s).Sound inv' asserts' apart :=
  ⟨shared, fun i u found => others u (sound.each i u found), sound.pairs⟩

end Pool

end PeerLink.Schedule
