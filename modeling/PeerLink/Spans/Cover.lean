import Mathlib.Algebra.GroupWithZero.Nat
import Mathlib.Order.Interval.Finset.Nat

/-!
# Spans that fill a range

Spans of numbers, each with a start and a length, in no order. If no two of them meet and all
lie below a bound, their lengths add up to the bound at most (`sum_length_le`); if they add up
to the bound, they leave nothing out (`exists_cell`). If moreover each starts at a multiple of
some number, the first one is as long as that (`exists_first`).
-/

namespace PeerLink.Spans

structure Span where
  start : Nat
  length : Nat

namespace Span

def cells (s : Span) : Finset Nat := Finset.Ico s.start (s.start + s.length)

@[simp] theorem mem_cells {s : Span} {n : Nat} :
    n ∈ s.cells ↔ s.start ≤ n ∧ n < s.start + s.length := Finset.mem_Ico

@[simp] theorem card_cells (s : Span) : s.cells.card = s.length := by simp [cells]

/-- The two have no number in common. -/
def Apart (s t : Span) : Prop := Disjoint s.cells t.cells

instance : Std.Symm Apart := ⟨fun _ _ apart => Disjoint.symm apart⟩

end Span

/-- All the numbers of the spans. -/
def covered : List Span → Finset Nat
  | [] => ∅
  | s :: spans => s.cells ∪ covered spans

section

variable {spans : List Span} {total : Nat}

theorem mem_covered {n : Nat} : n ∈ covered spans ↔ ∃ s ∈ spans, n ∈ s.cells := by
  induction spans with
  | nil => simp [covered]
  | cons s spans ih => rw [covered, Finset.mem_union, ih, List.exists_mem_cons_iff]

theorem card_covered (apart : spans.Pairwise Span.Apart) :
    (covered spans).card = (spans.map Span.length).sum := by
  induction spans with
  | nil => rfl
  | cons s spans ih =>
    obtain ⟨here, later⟩ := List.pairwise_cons.mp apart
    have disjoint : Disjoint s.cells (covered spans) := by
      rw [Finset.disjoint_left]
      intro n inFirst inRest
      obtain ⟨t, mem, inT⟩ := mem_covered.mp inRest
      exact Finset.disjoint_left.mp (here t mem) inFirst inT
    rw [covered, Finset.card_union_of_disjoint disjoint, ih later, Span.card_cells, List.map_cons,
      List.sum_cons]

variable (within : ∀ s ∈ spans, s.start + s.length ≤ total) (apart : spans.Pairwise Span.Apart)

include within in
theorem covered_subset : covered spans ⊆ Finset.range total := by
  intro n mem
  obtain ⟨s, listed, cell⟩ := mem_covered.mp mem
  have bound := within s listed
  rw [Span.mem_cells] at cell
  exact Finset.mem_range.mpr (by omega)

include within apart

theorem sum_length_le : (spans.map Span.length).sum ≤ total := by
  rw [← card_covered apart, ← Finset.card_range total]
  exact Finset.card_le_card (covered_subset within)

variable (full : (spans.map Span.length).sum = total)

include full

theorem exists_cell {n : Nat} (below : n < total) : ∃ s ∈ spans, n ∈ s.cells := by
  have all : covered spans = Finset.range total := by
    refine Finset.eq_of_subset_of_card_le (covered_subset within) ?_
    rw [Finset.card_range, card_covered apart, full]
  exact mem_covered.mp (all ▸ Finset.mem_range.mpr below)

/-- The number behind a first span that is too short would be in a span that starts at 0
too. -/
theorem exists_first {k : Nat} (positive : 0 < k) (aligned : ∀ s ∈ spans, k ∣ s.start)
    (long : k ≤ total) : ∃ s ∈ spans, s.start = 0 ∧ k ≤ s.length := by
  obtain ⟨s, mem, cell⟩ := exists_cell within apart full (by omega : 0 < total)
  rw [Span.mem_cells] at cell
  refine ⟨s, mem, by omega, ?_⟩
  by_contra short
  obtain ⟨t, mem', cell'⟩ := exists_cell within apart full (by omega : s.length < total)
  rw [Span.mem_cells] at cell'
  have start : t.start = 0 := Nat.eq_zero_of_dvd_of_lt (aligned t mem') (by omega)
  have differ : s ≠ t := by
    rintro rfl
    omega
  have disjoint : Span.Apart s t := apart.forall mem mem' differ
  exact Finset.disjoint_left.mp disjoint
    (Span.mem_cells.mpr cell) (Span.mem_cells.mpr (by omega))

end

end PeerLink.Spans
