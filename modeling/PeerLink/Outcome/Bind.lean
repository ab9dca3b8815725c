import Mathlib.Data.List.Forall2

/-!
# Computations that may fail

What a computation that succeeded has gone through.
-/

namespace PeerLink

variable {ε α β : Type}

/-- A computation that succeeded after a bind succeeded in both halves. -/
theorem bind_ok {x : Except ε α} {f : α → Except ε β} {b : β} :
    (x >>= f) = .ok b ↔ ∃ a, x = .ok a ∧ f a = .ok b := by
  cases x with
  | error e | ok a => simp [bind, Except.bind]

theorem pure_ok {a b : α} : (pure a : Except ε α) = .ok b ↔ a = b := by
  simp [pure, Except.pure]

theorem map_ok {x : Except ε α} {f : α → β} {b : β} :
    x.map f = .ok b ↔ ∃ a, x = .ok a ∧ f a = b := by
  cases x with
  | error e | ok a => simp [Except.map]

theorem exists_of_isOk {x : Except ε α} (succeeds : x.isOk = true) : ∃ a, x = .ok a := by
  cases x with
  | error e => cases succeeds
  | ok a => exact ⟨a, rfl⟩

section
variable {write : α → β} {read : β → Except ε α} {as : List α}

/-- What was written value by value is read back. -/
theorem mapM_map_ok (inverse : ∀ a ∈ as, read (write a) = .ok a) :
    (as.map write).mapM read = .ok as := by
  induction as with
  | nil => rfl
  | cons a as ih =>
    obtain ⟨here, later⟩ := List.forall_mem_cons.mp inverse
    rw [List.map_cons, List.mapM_cons, here, ih later]
    rfl

/-- Where every value could be read, each was. -/
theorem forall₂_of_mapM_ok {bs : List β} {as : List α} (done : bs.mapM read = .ok as) :
    List.Forall₂ (fun b a => read b = .ok a) bs as := by
  induction bs generalizing as with
  | nil =>
    cases done
    exact .nil
  | cons b bs ih =>
    rw [List.mapM_cons, bind_ok] at done
    obtain ⟨a, here, rest⟩ := done
    obtain ⟨as', later, made⟩ := bind_ok.mp rest
    cases made
    exact .cons here (ih later)

theorem eq_of_mapM_map_ok (sound : ∀ a b, read (write a) = .ok b → b = a) {bs : List α}
    (done : (as.map write).mapM read = .ok bs) : bs = as := by
  have pairs := (List.forall₂_map_left_iff.mp (forall₂_of_mapM_ok done)).imp sound
  simpa [eq_comm] using pairs

end

end PeerLink
