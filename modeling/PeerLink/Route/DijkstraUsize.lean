import Mathlib.Algebra.Group.Fin.Basic
import Mathlib.Data.Fintype.Card
import PeerLink.Route.Dijkstra

/-!
# `dijkstra_with_first_hop` over `usize`

The scores of the code are machine words, and `node_score + edge_cost(edge)`
wraps. As long as no sum reaches the size of a word, the search over words does
the same as the search over natural numbers (`loop_fits`), whose heap is the
word heap read through the values of its entries. What each sum is was said
there: a path that repeats no node, and one more edge.
-/

namespace PeerLink.Route

open PeerLink.Graph

/-- A machine word of `width` bits, with the addition that wraps. -/
abbrev Usize (width : Nat) := Fin (2 ^ width)

variable {V W : Type} {width : Nat}

/-! ## A heap of words as a heap of numbers -/

def entryValue (entry : Usize width × V) : Nat × V := (entry.1.val, entry.2)

def entryWord (width : Nat) (entry : Nat × V) : Usize width × V :=
  (Fin.ofNat (2 ^ width) entry.1, entry.2)

@[simp] theorem entryWord_entryValue (entry : Usize width × V) :
    entryWord width (entryValue entry) = entry := by
  simp [entryWord, entryValue]

theorem entryValue_entryWord {entry : Nat × V} (fits : entry.1 < 2 ^ width) :
    entryValue (entryWord width entry) = entry := by
  simp [entryWord, entryValue, Nat.mod_eq_of_lt fits]

theorem map_entryValue_entryWord {entries : List (Nat × V)}
    (fit : ∀ x ∈ entries, x.1 < 2 ^ width) :
    (entries.map (entryWord width)).map entryValue = entries := by
  have same := List.map_congr_left (g := id) fun x hx => entryValue_entryWord (fit x hx)
  rw [List.map_map]
  exact same.trans (List.map_id entries)

variable (entries : List (Usize width × V)) (heap : MinHeap V (Usize width))

theorem map_entryWord_entryValue : (entries.map entryValue).map (entryWord width) = entries := by
  rw [List.map_map]
  exact List.map_id'' entryWord_entryValue entries

theorem entryValue_fits : ∀ x ∈ entries.map entryValue, x.1 < 2 ^ width := by
  intro x hx
  obtain ⟨entry, -, rfl⟩ := List.mem_map.mp hx
  exact entry.1.isLt

/-- The heap of words, on entries that are numbers. Entries that are too large
for a word never meet it, and are kept in a list. -/
def MinHeap.values (heap : MinHeap V (Usize width)) : MinHeap V Nat where
  push x h :=
    if ∀ y ∈ x :: h, y.1 < 2 ^ width then
      (heap.push (entryWord width x) (h.map (entryWord width))).map entryValue
    else x :: h
  pop h :=
    if ∀ y ∈ h, y.1 < 2 ^ width then
      (heap.pop (h.map (entryWord width))).map fun r => (entryValue r.1, r.2.map entryValue)
    else popLeast h
  push_perm x h := by
    split_ifs with fit
    · have perm := (heap.push_perm (entryWord width x) (h.map (entryWord width))).map entryValue
      rwa [← List.map_cons (f := entryWord width), map_entryValue_entryWord fit] at perm
    · exact .refl _
  pop_none h empty := by
    split at empty
    · have words := heap.pop_none _ (Option.map_eq_none_iff.mp empty)
      exact List.map_eq_nil_iff.mp words
    · exact popLeast_none h empty
  pop_some h x rest popped := by
    split_ifs at popped with fit
    · obtain ⟨⟨least, others⟩, taken, same⟩ := Option.map_eq_some_iff.mp popped
      cases same
      obtain ⟨perm, low⟩ := heap.pop_some _ _ _ taken
      have perm' := perm.map entryValue
      rw [map_entryValue_entryWord fit] at perm'
      refine ⟨perm', fun y hy => ?_⟩
      have below := low _ (List.mem_map_of_mem hy)
      rw [← entryValue_entryWord (fit y hy)]
      exact below
    · exact popLeast_some h x rest popped

theorem MinHeap.values_push (x : Usize width × V) (h : List (Usize width × V)) :
    heap.values.push (entryValue x) (h.map entryValue) = (heap.push x h).map entryValue := by
  have fit : ∀ y ∈ entryValue x :: h.map entryValue, y.1 < 2 ^ width :=
    entryValue_fits (x :: h)
  simp only [MinHeap.values]
  rw [if_pos fit, entryWord_entryValue, map_entryWord_entryValue]

theorem MinHeap.values_pop (h : List (Usize width × V)) :
    heap.values.pop (h.map entryValue) =
      (heap.pop h).map fun r => (entryValue r.1, r.2.map entryValue) := by
  simp only [MinHeap.values]
  rw [if_pos (entryValue_fits h), map_entryWord_entryValue]

/-! ## The two searches -/

variable [DecidableEq V]

/-- The search over numbers is where the search over words is. -/
structure Search.Values (st : Search V (Usize width)) (st' : Search V Nat) : Prop where
  visited : st'.visited = st.visited
  scores : ∀ v, st'.scores.lookup v = (st.scores.lookup v).map Fin.val
  firstHop : st'.firstHop = st.firstHop
  visitNext : st'.visitNext = st.visitNext.map entryValue

variable {heap : MinHeap V (Usize width)} {c : Arc V W → Usize width} {s node : V}
  {nodeScore : Usize width} {st : Search V (Usize width)} {st' after' : Search V Nat}
  {E : List (Arc V W)}

theorem lookup_insert_val {scores : AList fun _ : V => Usize width}
    {scores' : AList fun _ : V => Nat}
    (same : ∀ v, scores'.lookup v = (scores.lookup v).map Fin.val) (next : V)
    (score : Usize width) (v : V) :
    (scores'.insert next score.val).lookup v =
      ((scores.insert next score).lookup v).map Fin.val := by
  by_cases here : v = next
  · subst here
    rw [AList.lookup_insert, AList.lookup_insert, Option.map_some]
  · rw [AList.lookup_insert_ne here, AList.lookup_insert_ne here, same]

theorem Search.Values.improve (h : st.Values st') {next : V} {score : Usize width}
    (improved : st'.improve heap.values s node next score.val = some after') :
    ∃ after, st.improve heap s node next score = some after ∧ after.Values after' := by
  obtain ⟨hop, found, same⟩ := Option.bind_eq_some_iff.mp improved
  have found' : st.hop s node next = some hop := by
    rw [← found, Search.hop, Search.hop, h.firstHop]
  refine ⟨_, Option.bind_eq_some_iff.mpr ⟨hop, found', rfl⟩, ?_⟩
  rw [← Option.some.inj same]
  refine ⟨h.visited, lookup_insert_val h.scores next score, ?_, ?_⟩
  · exact congrArg (AList.insert next (hop.1, hop.2 + 1)) h.firstHop
  · exact (congrArg _ h.visitNext).trans (heap.values_push (score, next) st.visitNext)

/-- Scanning an edge, when the sum fits in a word. -/
theorem Search.Values.relax (h : st.Values st') {a : Arc V W}
    (fits : a.tgt ∉ st.visited → nodeScore.val + (c a).val < 2 ^ width)
    (relaxed : st'.relax heap.values (fun a => (c a).val) s node nodeScore.val a = some after') :
    ∃ after, st.relax heap c s node nodeScore a = some after ∧ after.Values after' := by
  simp only [Search.relax, h.visited] at relaxed ⊢
  by_cases seen : a.tgt ∈ st.visited
  · rw [if_pos seen] at relaxed ⊢
    exact ⟨st, rfl, Option.some.inj relaxed ▸ h⟩
  · have sum : nodeScore.val + (c a).val = (nodeScore + c a).val := by
      rw [Fin.val_add, Nat.mod_eq_of_lt (fits seen)]
    rw [if_neg seen, h.scores, sum] at relaxed
    rw [if_neg seen]
    cases found : st.scores.lookup a.tgt with
    | none =>
      simp only [found, Option.map_none] at relaxed
      exact h.improve relaxed
    | some old =>
      simp only [found, Option.map_some, Fin.val_fin_lt] at relaxed
      by_cases better : nodeScore + c a < old
      · simp only [if_pos better] at relaxed ⊢
        exact h.improve relaxed
      · simp only [if_neg better] at relaxed ⊢
        exact ⟨st, rfl, Option.some.inj relaxed ▸ h⟩

theorem relax_visited {K : Type} [AddCommMonoid K] [LinearOrder K] {heap : MinHeap V K}
    {c : Arc V W → K} {nodeScore : K} {st after : Search V K} {a : Arc V W}
    (relaxed : st.relax heap c s node nodeScore a = some after) : after.visited = st.visited := by
  obtain rfl | ⟨-, hop, -, rfl⟩ := relax_cases heap relaxed <;> rfl

theorem Search.Values.relax_all (h : st.Values st') {edges : List (Arc V W)}
    (fits : ∀ a ∈ edges, a.tgt ∉ st.visited → nodeScore.val + (c a).val < 2 ^ width)
    (scan : edges.foldlM
      (Search.relax heap.values (fun a => (c a).val) s node nodeScore.val) st' = some after') :
    ∃ after, edges.foldlM (Search.relax heap c s node nodeScore) st = some after ∧
      after.Values after' := by
  induction edges generalizing st st' with
  | nil => exact ⟨st, rfl, Option.some.inj scan ▸ h⟩
  | cons a rest ih =>
    rw [List.foldlM_cons] at scan
    obtain ⟨mid', step', steps'⟩ := Option.bind_eq_some_iff.mp scan
    obtain ⟨mid, step, values⟩ := h.relax (fits a List.mem_cons_self) step'
    have later : ∀ b ∈ rest, b.tgt ∉ mid.visited → nodeScore.val + (c b).val < 2 ^ width := by
      rw [relax_visited step]
      exact fun b hb => fits b (List.mem_cons_of_mem a hb)
    obtain ⟨after, steps, values'⟩ := ih values later steps'
    exact ⟨after, by rw [List.foldlM_cons, step]; exact steps, values'⟩

/-- A run whose sums all fit in a word. -/
theorem loop_fits {fuel : Nat} (h : st.Values st')
    (fits : ∀ k ∈ Search.sums heap.values (fun a => (c a).val) s E fuel st', k < 2 ^ width)
    (run : Search.loop heap.values (fun a => (c a).val) s E fuel st' = some after') :
    ∃ after, Search.loop heap c s E fuel st = some after ∧ after.Values after' := by
  induction fuel generalizing st st' with
  | zero => cases run
  | succ fuel ih =>
    rw [Search.sums, h.visitNext, heap.values_pop] at fits
    rw [Search.loop, h.visitNext, heap.values_pop] at run
    rw [Search.loop]
    cases popped : heap.pop st.visitNext with
    | none =>
      simp only [popped, Option.map_none] at run
      exact ⟨st, rfl, Option.some.inj run ▸ h⟩
    | some entry =>
      obtain ⟨⟨nodeScore, node⟩, rest⟩ := entry
      simp only [popped, Option.map_some, entryValue] at run fits ⊢
      have shorter : { st with visitNext := rest }.Values
          { st' with visitNext := rest.map entryValue } :=
        ⟨h.visited, h.scores, h.firstHop, rfl⟩
      by_cases seen : node ∈ st.visited
      · rw [if_pos (h.visited ▸ seen)] at run fits
        rw [if_pos seen]
        exact ih shorter fits run
      · rw [if_neg (h.visited ▸ seen)] at run fits
        rw [if_neg seen]
        obtain ⟨mid', scan', run'⟩ := Option.bind_eq_some_iff.mp run
        have here : ∀ a ∈ edgesOf E node, a.tgt ∉ st.visited →
            nodeScore.val + (c a).val < 2 ^ width := by
          intro a ha unvisited
          apply fits
          refine List.mem_append_left _ (List.mem_map.mpr ⟨a, ?_, rfl⟩)
          exact List.mem_filter.mpr ⟨ha, by simpa [h.visited] using unvisited⟩
        obtain ⟨mid, scan, values⟩ := shorter.relax_all here scan'
        have visit : { mid with visited := insert node mid.visited }.Values
            { mid' with visited := insert node mid'.visited } :=
          ⟨congrArg (insert node) values.visited, values.scores, values.firstHop,
            values.visitNext⟩
        rw [scan]
        refine ih visit (fun k hk => fits k (List.mem_append_right _ ?_)) run'
        rw [scan']
        exact hk

theorem init_values : (Search.init s : Search V (Usize width)).Values (Search.init s) := by
  have empty : ∀ v : V, (∅ : AList fun _ : V => Nat).lookup v =
      ((∅ : AList fun _ : V => Usize width).lookup v).map Fin.val := fun _ => rfl
  exact ⟨rfl, lookup_insert_val empty s 0, rfl, rfl⟩

/-! ## Correctness over words -/

/-- No path sum overflows: each path from `s` that repeats no node costs less
than a word holds, also when its last edge leads from a node to itself. -/
def PathSumsFit (width : Nat) (c : Arc V W → Nat) (s : V) (E : List (Arc V W)) : Prop :=
  ∀ p a, IsWalk {a | a ∈ E} s (p ++ [a]) a.tgt → (vertices s p).Nodup →
    (a.tgt ∈ vertices s p → a.tgt = a.src) → cost c (p ++ [a]) < 2 ^ width

theorem PathSumsFit.dijkstraSums {c : Arc V W → Nat} (h : PathSumsFit width c s E)
    (heap : MinHeap V Nat) : ∀ k ∈ dijkstraSums heap c s E, k < 2 ^ width := by
  intro k mem
  obtain ⟨p, a, shortest, inE, rfl, nodup, loop⟩ := mem_dijkstraSums_simple heap mem
  have fits := h p a (shortest.walk.concat inE) nodup loop
  simpa using fits

/-- **The search over words is correct.** Both maps have exactly the reachable
nodes as keys, each score is the cost of a shortest path, and a first hop entry
describes a shortest path. -/
theorem dijkstra_correct (heap : MinHeap V (Usize width)) (edgeCost : Arc V W → Usize width)
    (start : V) (edges : List (Arc V W))
    (fits : PathSumsFit width (fun a => (edgeCost a).val) start edges) :
    ∃ scores firstHop, dijkstraWithFirstHop heap edgeCost start edges = some (scores, firstHop) ∧
      (∀ v, v ∈ scores ↔ Reachable {a | a ∈ edges} start v) ∧
      (∀ v, v ∈ firstHop ↔ Reachable {a | a ∈ edges} start v) ∧
      (∀ v k, scores.lookup v = some k →
        IsDist {a | a ∈ edges} (fun a => (edgeCost a).val) start v k.val) ∧
      ∀ v h k, v ≠ start → firstHop.lookup v = some (h, k) → ∃ first rest,
        IsShortest {a | a ∈ edges} (fun a => (edgeCost a).val) start (first :: rest) v ∧
          first.tgt = h ∧ (first :: rest).length = k := by
  obtain ⟨costs, nextHops, run, keys, sameKeys, described⟩ :=
    dijkstraWithFirstHop_spec heap.values (fun a => (edgeCost a).val) start edges
  obtain ⟨after', loop', same⟩ := Option.bind_eq_some_iff.mp run
  cases same
  obtain ⟨after, loop, values⟩ := loop_fits init_values (fits.dijkstraSums heap.values) loop'
  have scored : ∀ v, v ∈ after.scores ↔ v ∈ after'.scores := by
    intro v
    rw [← AList.lookup_isSome, ← AList.lookup_isSome, values.scores, Option.isSome_map]
  rw [values.firstHop] at keys sameKeys described
  refine ⟨after.scores, after.firstHop, Option.bind_eq_some_iff.mpr ⟨after, loop, rfl⟩, ?_, keys,
    ?_, ?_⟩
  · intro v
    rw [scored, sameKeys, keys]
  · intro v k found
    have mem : v ∈ after.firstHop := by
      rw [← sameKeys, ← scored]
      exact Best.mem_iff_lookup.mpr ⟨_, found⟩
    obtain ⟨p, shortest, price, -⟩ := described v mem
    rw [values.scores, found] at price
    exact ⟨p, shortest, (Option.some.inj price).symm⟩
  · intro v h k other found
    have mem : v ∈ after.firstHop := Best.mem_iff_lookup.mpr ⟨_, found⟩
    obtain ⟨p, shortest, -, hop⟩ := described v mem
    have entry := Option.some.inj (found.symm.trans hop)
    cases p with
    | nil => exact absurd shortest.walk.symm other
    | cons first rest => exact ⟨first, rest, shortest, (congrArg Prod.fst entry).symm,
        (congrArg Prod.snd entry).symm⟩

omit [DecidableEq V] in
theorem pathSumsFit_of_bounded [Fintype V] {c : Arc V W → Nat} (bound : Nat)
    (bounded : ∀ a ∈ E, c a ≤ bound) (room : Fintype.card V * bound < 2 ^ width) :
    PathSumsFit width c s E := by
  intro p a walk nodup _
  have short : (vertices s p).length ≤ Fintype.card V := nodup.length_le_card
  have price := cost_le_length_mul fun b hb => bounded b (walk.arcs b hb)
  rw [length_vertices] at short
  rw [List.length_append, List.length_singleton] at price
  have rest := Nat.mul_le_mul_right bound short
  omega

/-- Two edges side by side, one of cost zero, and an edge from a node to itself. -/
def smallGraph : List (Arc (Fin 4) Nat) :=
  [⟨0, 1, 3⟩, ⟨0, 1, 5⟩, ⟨1, 1, 2⟩, ⟨1, 2, 0⟩, ⟨0, 2, 3⟩, ⟨3, 0, 1⟩]

theorem smallGraph_searched :
    let c : Arc (Fin 4) Nat → Usize 64 := fun a => Fin.ofNat (2 ^ 64) a.weight
    PathSumsFit 64 (fun a => (c a).val) 0 smallGraph ∧
      ∃ scores firstHop, dijkstraWithFirstHop MinHeap.selection c 0 smallGraph =
          some (scores, firstHop) ∧
        (∀ v, v ∈ scores ↔ Reachable {a | a ∈ smallGraph} 0 v) ∧
        ∀ v k, scores.lookup v = some k →
          IsDist {a | a ∈ smallGraph} (fun a => (c a).val) 0 v k.val := by
  intro c
  have fits : PathSumsFit 64 (fun a => (c a).val) 0 smallGraph :=
    pathSumsFit_of_bounded 5 (by decide) (by decide)
  obtain ⟨scores, firstHop, run, keys, -, scored, -⟩ :=
    dijkstra_correct MinHeap.selection c 0 smallGraph fits
  exact ⟨fits, scores, firstHop, run, keys, scored⟩

end PeerLink.Route
