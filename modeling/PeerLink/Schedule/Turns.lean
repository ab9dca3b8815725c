import Mathlib.Data.List.Flatten
import Mathlib.Data.List.Perm.Basic

/-!
# Interleavings

Threads with a list of atomic actions each, which take turns on a shared state. When
all are done, the actions have run in some order that is a permutation of all of them
(`Finished.permuted`), so whatever does not depend on the order of the actions does not
depend on the interleaving.
-/

namespace PeerLink.Schedule

variable {S A : Type}

/-- The shared state, and what every thread still has to do. -/
structure Threads (S A : Type) where
  state : S
  todo : List (List A)

/-- One thread takes its next action. -/
inductive Turn (act : S → A → S) : Threads S A → Threads S A → Prop
  | turn (s : S) (before : List (List A)) (a : A) (rest : List A) (after : List (List A)) :
      Turn act ⟨s, before ++ (a :: rest) :: after⟩ ⟨act s a, before ++ rest :: after⟩

/-- Any number of turns. -/
abbrev Turns (act : S → A → S) : Threads S A → Threads S A → Prop :=
  Relation.ReflTransGen (Turn act)

def Finished (threads : Threads S A) : Prop := ∀ todo ∈ threads.todo, todo = []

variable {act : S → A → S} {threads threads' : Threads S A}

/-- What has run and what is left are together what there was. -/
theorem Turns.permuted (turns : Turns act threads threads') :
    ∃ done : List A, threads'.state = done.foldl act threads.state ∧
      (done ++ threads'.todo.flatten).Perm threads.todo.flatten := by
  induction turns with
  | refl => exact ⟨[], rfl, .refl _⟩
  | tail _ turn ih =>
    obtain ⟨done, state, perm⟩ := ih
    cases turn with
    | turn s before a rest after =>
      refine ⟨done ++ [a], by simp [← state], .trans ?_ perm⟩
      simp only [List.append_assoc, List.flatten_append, List.flatten_cons, List.cons_append,
        List.nil_append]
      exact List.perm_middle.symm.append_left done

theorem Finished.flatten (finished : Finished threads) : threads.todo.flatten = [] :=
  List.flatten_eq_nil_iff.mpr finished

theorem Finished.permuted (finished : Finished threads') (turns : Turns act threads threads') :
    ∃ done : List A, threads'.state = done.foldl act threads.state ∧
      done.Perm threads.todo.flatten := by
  obtain ⟨done, state, perm⟩ := turns.permuted
  rw [finished.flatten, List.append_nil] at perm
  exact ⟨done, state, perm⟩

/-- One thread runs to its end. -/
theorem Turns.thread (s : S) (before : List (List A)) (todo : List A) (after : List (List A)) :
    Turns act ⟨s, before ++ todo :: after⟩ ⟨todo.foldl act s, before ++ [] :: after⟩ := by
  induction todo generalizing s with
  | nil => exact .refl
  | cons a rest ih => exact .head (.turn s before a rest after) (ih (act s a))

/-- One thread after the other, all can finish. -/
theorem Turns.sequential (s : S) (before todo : List (List A)) :
    Turns act ⟨s, before ++ todo⟩
      ⟨todo.flatten.foldl act s, before ++ todo.map fun _ => []⟩ := by
  induction todo generalizing s before with
  | nil => exact .refl
  | cons thread rest ih =>
    have first := @Turns.thread S A act s before thread rest
    have later := ih (thread.foldl act s) (before ++ [[]])
    simp only [List.append_assoc, List.cons_append, List.nil_append] at later
    rw [List.flatten_cons, List.foldl_append]
    exact first.trans later

theorem exists_finished (act : S → A → S) (s : S) (todo : List (List A)) :
    ∃ threads, Turns act ⟨s, todo⟩ threads ∧ Finished threads ∧
      threads.state = todo.flatten.foldl act s :=
  ⟨_, Turns.sequential s [] todo, by simp [Finished], rfl⟩

end PeerLink.Schedule
