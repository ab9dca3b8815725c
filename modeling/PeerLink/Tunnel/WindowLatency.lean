import Mathlib.Algebra.BigOperators.Group.List.Basic
import Mathlib.Algebra.GroupWithZero.Nat

/-!
# The latency over a window

A ring of the last samples, with their sum kept up to date by the difference between the new sample
and the one that it replaces. All numbers are of 32 bits.
-/

namespace PeerLink.Stats

open Function (update update_of_ne update_self)

structure WindowLatency where
  latencyUsWindow : Nat → Nat
  latencyUsWindowIndex : Nat
  latencyUsWindowSize : Nat
  sum : Nat
  count : Nat

namespace WindowLatency

def new (windowSize : Nat) : WindowLatency := ⟨fun _ => 0, 0, windowSize, 0, 0⟩

variable (s : WindowLatency)

def slot : Nat := s.latencyUsWindowIndex % s.latencyUsWindowSize

/-- The sample that the next one replaces. -/
def oldLat : Nat := s.latencyUsWindow s.slot

def recordLatency (latencyUs : Nat) : WindowLatency where
  latencyUsWindow := update s.latencyUsWindow s.slot latencyUs
  latencyUsWindowIndex := (s.latencyUsWindowIndex + 1) % 2 ^ 32
  latencyUsWindowSize := s.latencyUsWindowSize
  sum :=
    if s.oldLat < latencyUs then (s.sum + (latencyUs - s.oldLat)) % 2 ^ 32
    else (s.sum + 2 ^ 32 - (s.oldLat - latencyUs)) % 2 ^ 32
  count := if s.count < s.latencyUsWindowSize then s.count + 1 else s.count

def getLatencyUs {T : Type} [NatCast T] [Div T] (s : WindowLatency) : T :=
  if s.count = 0 then ((0 : Nat) : T) else (s.sum : T) / (s.count : T)

/-- The window after the samples, of which the latest comes first. -/
def record (w : Nat) : List Nat → WindowLatency
  | [] => new w
  | latencyUs :: samples => (record w samples).recordLatency latencyUs

/-- The sum neither overflows nor underflows at the next sample. -/
def Exact (latencyUs : Nat) : Prop :=
  if s.oldLat < latencyUs then s.sum + (latencyUs - s.oldLat) < 2 ^ 32
  else s.oldLat - latencyUs ≤ s.sum

structure Holds (w : Nat) (samples : List Nat) (s : WindowLatency) : Prop where
  size : s.latencyUsWindowSize = w
  index : s.latencyUsWindowIndex = samples.length
  sum : s.sum = (samples.take w).sum
  count : s.count = min samples.length w
  slots : ∀ j < w, s.latencyUsWindow ((samples.length + (w - 1 - j)) % w) = samples.getD j 0

variable {w : Nat} {samples : List Nat} {s : WindowLatency}

theorem Holds.replaces (holds : s.Holds w samples) (positive : 0 < w) (latencyUs : Nat) :
    ((latencyUs :: samples).take w).sum + s.oldLat = s.sum + latencyUs := by
  obtain ⟨w, rfl⟩ := Nat.exists_eq_add_one.mpr positive
  have old := holds.slots w (Nat.lt_succ_self w)
  rw [Nat.add_sub_cancel, Nat.sub_self, Nat.add_zero, List.getD_eq_getElem?_getD] at old
  rw [oldLat, slot, holds.index, holds.size, old, holds.sum, List.take_succ_cons, List.take_add_one,
    List.sum_cons, List.sum_append]
  cases samples[w]? <;> simp <;> omega

theorem Holds.recordLatency (holds : s.Holds w samples) (positive : 0 < w) {latencyUs : Nat}
    (few : samples.length + 1 < 2 ^ 32) (fits : ((latencyUs :: samples).take w).sum < 2 ^ 32) :
    s.Exact latencyUs ∧ (s.recordLatency latencyUs).Holds w (latencyUs :: samples) := by
  have replaces := holds.replaces positive latencyUs
  have exact : s.Exact latencyUs := by
    unfold Exact
    split <;> omega
  obtain ⟨size, index, -, count, slots⟩ := holds
  refine ⟨exact, size, ?_, ?_, ?_, fun j bound => ?_⟩
  · rw [WindowLatency.recordLatency, index, Nat.mod_eq_of_lt few, List.length_cons]
  · unfold Exact at exact
    simp only [WindowLatency.recordLatency]
    split
    · rw [if_pos ‹_›] at exact
      omega
    · rw [if_neg ‹_›] at exact
      omega
  · simp only [WindowLatency.recordLatency, size, count, List.length_cons]
    split <;> omega
  · simp only [WindowLatency.recordLatency, slot, index, size, List.length_cons]
    cases j with
    | zero =>
      have around : samples.length + 1 + (w - 1 - 0) = samples.length + w := by omega
      rw [around, Nat.add_mod_right, update_self, List.getD_cons_zero]
    | succ j =>
      have next : samples.length + 1 + (w - 1 - (j + 1)) = samples.length + (w - 1 - j) := by omega
      have apart : (samples.length + (w - 1 - j)) % w ≠ samples.length % w := by
        intro same
        have none := Nat.sub_mod_eq_zero_of_mod_eq same
        rw [Nat.add_sub_cancel_left, Nat.mod_eq_of_lt (by omega)] at none
        omega
      rw [next, update_of_ne apart, slots j (by omega), List.getD_cons_succ]

theorem record_holds (positive : 0 < w) (few : samples.length < 2 ^ 32)
    (fits : ∀ recorded ∈ samples.tails, (recorded.take w).sum < 2 ^ 32) :
    (record w samples).Holds w samples ∧
      ∀ latencyUs before, latencyUs :: before ∈ samples.tails →
        (record w before).Exact latencyUs := by
  induction samples with
  | nil =>
    refine ⟨⟨rfl, rfl, ?_, (Nat.zero_min w).symm, fun _ _ => rfl⟩, by simp⟩
    rw [List.take_nil]
    rfl
  | cons next samples ih =>
    rw [List.tails, List.forall_mem_cons] at fits
    obtain ⟨holds, exact⟩ := ih (Nat.lt_of_succ_lt few) fits.2
    obtain ⟨here, after⟩ := holds.recordLatency positive few fits.1
    refine ⟨after, fun latencyUs before mem => ?_⟩
    obtain same | earlier := List.mem_cons.mp mem
    · cases same
      exact here
    · exact exact latencyUs before earlier

/-- **The latency is the average of the last samples**, rounded down by the division of integers;
another type divides the sum in its own way. The sum stays exact on the way. -/
theorem latency_averaged (positive : 0 < w) (few : samples.length < 2 ^ 32)
    (fits : ∀ recorded ∈ samples.tails, (recorded.take w).sum < 2 ^ 32) :
    (record w samples).getLatencyUs = (samples.take w).sum / min samples.length w ∧
      (∀ (T : Type) [NatCast T] [Div T], samples ≠ [] → (record w samples).getLatencyUs =
        ((samples.take w).sum : T) / ((min samples.length w : Nat) : T)) ∧
      ∀ latencyUs before, latencyUs :: before ∈ samples.tails →
        (record w before).Exact latencyUs := by
  obtain ⟨holds, exact⟩ := record_holds positive few fits
  refine ⟨?_, fun T _ _ some => ?_, exact⟩
  · rw [getLatencyUs, holds.count, holds.sum]
    split
    · rename_i none
      rw [none, Nat.div_zero]
      rfl
    · rfl
  · have many := List.length_pos_iff.mpr some
    rw [getLatencyUs, holds.count, holds.sum, if_neg (by omega)]

theorem three_in_window_of_two : (record 2 [7, 4, 9]).getLatencyUs = 5 :=
  (@latency_averaged 2 [7, 4, 9] (by decide) (by decide) (by decide)).1

end WindowLatency

end PeerLink.Stats
