import Mathlib.Data.Finset.Insert
import PeerLink.Best.Keep
import PeerLink.Graph.Walk

/-!
# `dijkstra_with_first_hop`

The search keeps, next to the usual scores, the first hop and the length of the
walk that gave each score. `relax_open` is the one step lemma: what scanning an
edge keeps while a node is open. `loop_settled` carries it over the whole run,
and `dijkstraWithFirstHop_spec` reads the result off the settled state.
-/

namespace PeerLink.Route

open PeerLink.Graph

/-- The `BinaryHeap` of `MinScored` entries. It returns an entry of least
score, and which one among equals is left open. -/
structure MinHeap (V K : Type) [LE K] where
  push : K × V → List (K × V) → List (K × V)
  pop : List (K × V) → Option ((K × V) × List (K × V))
  push_perm : ∀ x h, (push x h).Perm (x :: h)
  pop_none : ∀ h, pop h = none → h = []
  pop_some : ∀ h x rest, pop h = some (x, rest) →
    h.Perm (x :: rest) ∧ ∀ y ∈ h, x.1 ≤ y.1

section
variable {V K : Type} [LinearOrder K]

/-- Takes out an entry of least score by scanning the list. -/
def popLeast : List (K × V) → Option ((K × V) × List (K × V))
  | [] => none
  | x :: h =>
    match popLeast h with
    | none => some (x, [])
    | some (y, rest) => if x.1 ≤ y.1 then some (x, y :: rest) else some (y, x :: rest)

theorem popLeast_none (h : List (K × V)) (none_left : popLeast h = none) : h = [] := by
  cases h with
  | nil => rfl
  | cons x h =>
    simp only [popLeast] at none_left
    split at none_left
    · cases none_left
    · split at none_left <;> cases none_left

theorem popLeast_some (h : List (K × V)) (x : K × V) (rest : List (K × V))
    (popped : popLeast h = some (x, rest)) :
    h.Perm (x :: rest) ∧ ∀ y ∈ h, x.1 ≤ y.1 := by
  induction h generalizing x rest with
  | nil => cases popped
  | cons z h ih =>
    simp only [popLeast] at popped
    split at popped
    · rename_i empty
      cases popped
      simp [popLeast_none h empty]
    · rename_i y others least
      obtain ⟨perm, low⟩ := ih y others least
      split at popped <;> cases popped
      · rename_i le
        refine ⟨perm.cons _, fun w hw => ?_⟩
        obtain rfl | hw := List.mem_cons.mp hw
        · exact le_rfl
        · exact le.trans (low w hw)
      · rename_i lt
        refine ⟨(perm.cons z).trans (List.Perm.swap _ _ _), fun w hw => ?_⟩
        obtain rfl | hw := List.mem_cons.mp hw
        · exact (not_le.mp lt).le
        · exact low w hw

/-- A heap as the simplest program that meets the specification. -/
def MinHeap.selection : MinHeap V K where
  push := List.cons
  pop := popLeast
  push_perm _ _ := .refl _
  pop_none := popLeast_none
  pop_some := popLeast_some

end

variable {V W K : Type} [DecidableEq V] [AddCommMonoid K] [LinearOrder K]

structure Search (V K : Type) where
  visited : Finset V
  scores : AList fun _ : V => K
  firstHop : AList fun _ : V => V × Nat
  visitNext : List (K × V)

/-- `graph.edges(node)`: the outgoing edges, the latest first. -/
def edgesOf (edges : List (Arc V W)) (node : V) : List (Arc V W) :=
  (edges.filter (·.src = node)).reverse

section
variable (heap : MinHeap V K) (edgeCost : Arc V W → K) (start : V)

/-- A node next to the start is its own first hop, every other inherits its
predecessor's. `first_hop[&node]` panics when there is no such entry. -/
def Search.hop (node next : V) (st : Search V K) : Option (V × Nat) :=
  if node = start then some (next, 0) else st.firstHop.lookup node

/-- Both arms of the `match` on `scores.entry(next)` that store a better score. -/
def Search.improve (node next : V) (nextScore : K) (st : Search V K) :
    Option (Search V K) := do
  let hop ← st.hop start node next
  return { st with
    scores := st.scores.insert next nextScore
    visitNext := heap.push (nextScore, next) st.visitNext
    firstHop := st.firstHop.insert next (hop.1, hop.2 + 1) }

/-- The state with a better score. -/
def Search.better (next : V) (score : K) (hop : V × Nat) (st : Search V K) : Search V K :=
  { st with
    scores := st.scores.insert next score
    visitNext := heap.push (score, next) st.visitNext
    firstHop := st.firstHop.insert next (hop.1, hop.2 + 1) }

def Search.relax (node : V) (nodeScore : K) (st : Search V K) (edge : Arc V W) :
    Option (Search V K) :=
  let next := edge.tgt
  if next ∈ st.visited then
    some st
  else
    let nextScore := nodeScore + edgeCost edge
    match st.scores.lookup next with
    | some old =>
      if nextScore < old then st.improve heap start node next nextScore else some st
    | none => st.improve heap start node next nextScore

/-- The `while let` loop; without fuel it has no result. -/
def Search.loop (edges : List (Arc V W)) : Nat → Search V K → Option (Search V K)
  | 0, _ => none
  | fuel + 1, st =>
    match heap.pop st.visitNext with
    | none => some st
    | some ((nodeScore, node), rest) =>
      if node ∈ st.visited then
        Search.loop edges fuel { st with visitNext := rest }
      else do
        let st ← (edgesOf edges node).foldlM
          (Search.relax heap edgeCost start node nodeScore) { st with visitNext := rest }
        Search.loop edges fuel { st with visited := insert node st.visited }

def Search.init : Search V K where
  visited := ∅
  scores := AList.insert start 0 ∅
  firstHop := AList.insert start (start, 0) ∅
  visitNext := [(0, start)]

/-- Each edge is pushed at most once, so the fuel is never used up. -/
def dijkstraWithFirstHop (edges : List (Arc V W)) :
    Option ((AList fun _ : V => K) × AList fun _ : V => V × Nat) := do
  let st ← Search.loop heap edgeCost start edges (edges.length + 2) (Search.init start)
  return (st.scores, st.firstHop)

/-- The values of `node_score + edge_cost(edge)`, in the order of a run. -/
def Search.sums (edges : List (Arc V W)) : Nat → Search V K → List K
  | 0, _ => []
  | fuel + 1, st =>
    match heap.pop st.visitNext with
    | none => []
    | some ((nodeScore, node), rest) =>
      if node ∈ st.visited then
        Search.sums edges fuel { st with visitNext := rest }
      else
        ((edgesOf edges node).filter (·.tgt ∉ st.visited)).map (nodeScore + edgeCost ·) ++
          match (edgesOf edges node).foldlM (Search.relax heap edgeCost start node nodeScore)
              { st with visitNext := rest } with
          | none => []
          | some st => Search.sums edges fuel { st with visited := insert node st.visited }

/-- All sums of a search. -/
def dijkstraSums (edges : List (Arc V W)) : List K :=
  Search.sums heap edgeCost start edges (edges.length + 2) (Search.init start)

end

theorem mem_edgesOf {edges : List (Arc V W)} {node : V} {a : Arc V W} :
    a ∈ edgesOf edges node ↔ a ∈ edges ∧ a.src = node := by
  simp [edgesOf]

/-! ## The search invariant -/

section
variable (E : List (Arc V W)) (c : Arc V W → K) (s : V)

/-- Every score is the cost of a walk, and the first hop entry describes it. -/
structure Search.Sound (st : Search V K) : Prop where
  start : st.scores.lookup s = some 0
  walk : ∀ v k, st.scores.lookup v = some k → ∃ p, IsWalk {a | a ∈ E} s p v ∧
    cost c p = k ∧ st.firstHop.lookup v = some (Graph.firstHop s p, p.length)
  domain : ∀ v, v ∈ st.firstHop → v ∈ st.scores
  visited : ∀ v ∈ st.visited, v ∈ st.scores

def Search.Relaxed (st : Search V K) (a : Arc V W) : Prop :=
  ∀ k, st.scores.lookup a.src = some k →
    ∃ k', st.scores.lookup a.tgt = some k' ∧ k' ≤ k + c a

/-- Between two pops. -/
structure Search.Settled (st : Search V K) : Prop where
  sound : st.Sound E c s
  queued : ∀ v k, v ∉ st.visited → st.scores.lookup v = some k → (k, v) ∈ st.visitNext
  heap : ∀ x ∈ st.visitNext, ∃ k, st.scores.lookup x.2 = some k ∧ k ≤ x.1
  floor : ∀ v ∈ st.visited, ∀ k, st.scores.lookup v = some k → ∀ x ∈ st.visitNext, k ≤ x.1
  relaxed : ∀ a ∈ E, a.src ∈ st.visited → st.Relaxed c a

/-- While `node` is open and the edges in `done` have been scanned. -/
structure Search.Open (node : V) (nodeScore : K) (done : List (Arc V W))
    (st : Search V K) : Prop where
  sound : st.Sound E c s
  current : st.scores.lookup node = some nodeScore
  fresh : node ∉ st.visited
  queued : ∀ v k, v ≠ node → v ∉ st.visited → st.scores.lookup v = some k →
    (k, v) ∈ st.visitNext
  heap : ∀ x ∈ st.visitNext, ∃ k, st.scores.lookup x.2 = some k ∧ k ≤ x.1
  above : ∀ x ∈ st.visitNext, nodeScore ≤ x.1
  floor : ∀ v ∈ st.visited, ∀ k, st.scores.lookup v = some k → k ≤ nodeScore
  relaxed : ∀ a ∈ E, a.src ∈ st.visited ∨ a ∈ done → st.Relaxed c a
  scanned : ∀ a ∈ done, a.src = node

end

omit [LinearOrder K] in
/-- The walk to an open node, extended by one of its edges. -/
theorem Search.Sound.extend {E : List (Arc V W)} {c : Arc V W → K} {s : V} {nodeScore : K}
    {st : Search V K} {a : Arc V W} (h : st.Sound E c s)
    (current : st.scores.lookup a.src = some nodeScore) (mem : a ∈ E) :
    ∃ p hop, IsWalk {a | a ∈ E} s p a.tgt ∧ cost c p = nodeScore + c a ∧
      st.hop s a.src a.tgt = some hop ∧ (hop.1, hop.2 + 1) = (Graph.firstHop s p, p.length) := by
  by_cases first : a.src = s
  · have zero : nodeScore = 0 := by
      rw [first, h.start] at current
      exact (Option.some.inj current).symm
    exact ⟨[a], (a.tgt, 0), ⟨mem, first, rfl⟩, by simp [zero],
      by simp [Search.hop, first], rfl⟩
  · obtain ⟨p, walk, price, hop⟩ := h.walk a.src nodeScore current
    have nonempty : p ≠ [] := by
      rintro rfl
      exact first walk.symm
    refine ⟨p ++ [a], _, walk.concat mem, by simp [price],
      by rw [Search.hop, if_neg first, hop], ?_⟩
    rw [firstHop_append nonempty, List.length_append, List.length_singleton]

variable (heap : MinHeap V K) {E : List (Arc V W)} {c : Arc V W → K} {s node : V} {nodeScore : K}
  {done : List (Arc V W)} {st : Search V K} {a : Arc V W}

variable {rest : List (K × V)} {v : V} {k : K} {p edges : List (Arc V W)} {fuel : Nat}
  {st' : Search V K} {left : Finset V}

/-- An edge that cannot improve its target is relaxed already. -/
theorem Search.Open.skip (h : st.Open E c s a.src nodeScore done)
    (low : ∃ k, st.scores.lookup a.tgt = some k ∧ k ≤ nodeScore + c a) :
    st.Open E c s a.src nodeScore (a :: done) := by
  refine { h with relaxed := ?_, scanned := ?_ }
  · intro b hb later
    obtain hv | hd := later
    · exact h.relaxed b hb (.inl hv)
    · obtain rfl | hd := List.mem_cons.mp hd
      · intro k hk
        have : nodeScore = k := Option.some.inj (h.current.symm.trans hk)
        exact this ▸ low
      · exact h.relaxed b hb (.inr hd)
  · intro b hb
    obtain rfl | hb := List.mem_cons.mp hb
    · rfl
    · exact h.scanned b hb

/-- Popping the least entry of an unvisited node opens it. -/
theorem Search.Settled.pop (h : st.Settled E c s)
    (popped : heap.pop st.visitNext = some ((nodeScore, node), rest))
    (unvisited : node ∉ st.visited) :
    { st with visitNext := rest }.Open E c s node nodeScore [] := by
  obtain ⟨perm, least⟩ := heap.pop_some _ _ _ popped
  have old : ∀ x ∈ rest, x ∈ st.visitNext := fun x hx =>
    perm.mem_iff.mpr (List.mem_cons_of_mem _ hx)
  have top : (nodeScore, node) ∈ st.visitNext := perm.mem_iff.mpr List.mem_cons_self
  obtain ⟨k, hk, le⟩ := h.heap _ top
  have exact_score : k = nodeScore :=
    le_antisymm le (least _ (h.queued node k unvisited hk))
  subst exact_score
  constructor
  · exact ⟨h.sound.start, h.sound.walk, h.sound.domain, h.sound.visited⟩
  · exact hk
  · exact unvisited
  · intro v k' hne hv hk'
    have queued := perm.mem_iff.mp (h.queued v k' hv hk')
    obtain same | queued := List.mem_cons.mp queued
    · exact absurd (congrArg Prod.snd same) hne
    · exact queued
  · exact fun x hx => h.heap x (old x hx)
  · exact fun x hx => least x (old x hx)
  · exact fun v hv k' hk' => h.floor v hv k' hk' _ top
  · intro a ha later
    exact h.relaxed a ha (later.resolve_right (by simp))
  · simp

/-- Dropping a stale entry of a visited node. -/
theorem Search.Settled.drop {x : K × V} (h : st.Settled E c s)
    (popped : heap.pop st.visitNext = some (x, rest)) (seen : x.2 ∈ st.visited) :
    { st with visitNext := rest }.Settled E c s := by
  obtain ⟨perm, -⟩ := heap.pop_some _ _ _ popped
  have old : ∀ y ∈ rest, y ∈ st.visitNext := fun y hy =>
    perm.mem_iff.mpr (List.mem_cons_of_mem _ hy)
  constructor
  · exact ⟨h.sound.start, h.sound.walk, h.sound.domain, h.sound.visited⟩
  · intro v k hv hk
    obtain same | queued := List.mem_cons.mp (perm.mem_iff.mp (h.queued v k hv hk))
    · exact absurd seen (by rw [← same]; exact hv)
    · exact queued
  · exact fun y hy => h.heap y (old y hy)
  · exact fun v hv k hk y hy => h.floor v hv k hk y (old y hy)
  · exact h.relaxed

/-- Once all its edges are scanned, the open node may be marked visited. -/
theorem Search.Open.visit (h : st.Open E c s node nodeScore done)
    (all : ∀ a ∈ E, a.src = node → a ∈ done) :
    { st with visited := insert node st.visited }.Settled E c s := by
  constructor
  · refine ⟨h.sound.start, h.sound.walk, h.sound.domain, ?_⟩
    intro v hv
    obtain rfl | hv := Finset.mem_insert.mp hv
    · exact Best.mem_iff_lookup.mpr ⟨_, h.current⟩
    · exact h.sound.visited v hv
  · intro v k hv hk
    obtain ⟨hne, hv⟩ := not_or.mp (mt Finset.mem_insert.mpr hv)
    exact h.queued v k hne hv hk
  · exact h.heap
  · intro v hv k hk x hx
    obtain rfl | hv := Finset.mem_insert.mp hv
    · have : nodeScore = k := Option.some.inj (h.current.symm.trans hk)
      exact this ▸ h.above x hx
    · exact (h.floor v hv k hk).trans (h.above x hx)
  · intro a ha hv
    obtain same | hv := Finset.mem_insert.mp hv
    · exact h.relaxed a ha (.inr (all a ha same))
    · exact h.relaxed a ha (.inl hv)

omit [AddCommMonoid K] in
/-- Scores only get better. -/
theorem lookup_insert_le {scores : AList fun _ : V => K} {next : V} {score : K}
    (better : ∀ old, scores.lookup next = some old → score < old)
    (found : scores.lookup v = some k) :
    ∃ k', (scores.insert next score).lookup v = some k' ∧ k' ≤ k := by
  by_cases same : v = next
  · subst same
    exact ⟨score, AList.lookup_insert _, (better k found).le⟩
  · exact ⟨k, (AList.lookup_insert_ne same).trans found, le_rfl⟩

/-- The cost of a walk is stored with the walk's first hop. -/
theorem Search.Sound.better (h : st.Sound E c s) {hop : V × Nat} (other : s ≠ v)
    (walk : IsWalk {a | a ∈ E} s p v) (price : cost c p = k)
    (eq : (hop.1, hop.2 + 1) = (Graph.firstHop s p, p.length)) :
    (st.better heap v k hop).Sound E c s := by
  constructor
  · exact (AList.lookup_insert_ne other).trans h.start
  · intro w k' stored
    by_cases same : w = v
    · subst same
      have : k = k' := Option.some.inj ((AList.lookup_insert _).symm.trans stored)
      exact ⟨p, walk, price.trans this, (AList.lookup_insert _).trans (congrArg some eq)⟩
    · obtain ⟨q, walk', price', hop'⟩ := h.walk w k'
        ((AList.lookup_insert_ne same).symm.trans stored)
      exact ⟨q, walk', price', (AList.lookup_insert_ne same).trans hop'⟩
  · intro w mem
    obtain same | mem := AList.mem_insert _ |>.mp mem
    · exact AList.mem_insert _ |>.mpr (.inl same)
    · exact AList.mem_insert _ |>.mpr (.inr (h.domain w mem))
  · exact fun w mem => AList.mem_insert _ |>.mpr (.inr (h.visited w mem))

omit [LinearOrder K] in
theorem lookup_init
    (found : (Search.init s : Search V K).scores.lookup v = some k) : v = s ∧ 0 = k := by
  obtain none_left | ⟨rfl, rfl⟩ := Best.lookup_insert_origin found
  · cases none_left
  · exact ⟨rfl, rfl⟩

theorem init_settled : (Search.init s : Search V K).Settled E c s := by
  have zero : (Search.init s : Search V K).scores.lookup s = some 0 := AList.lookup_insert _
  constructor
  · refine ⟨zero, ?_, ?_, by simp [Search.init]⟩
    · intro v k hk
      obtain ⟨rfl, rfl⟩ := lookup_init hk
      exact ⟨[], rfl, rfl, AList.lookup_insert _⟩
    · intro v hv
      obtain here | none_left := (AList.mem_insert _).mp hv
      · exact (AList.mem_insert _).mpr (.inl here)
      · exact absurd none_left (AList.notMem_empty v)
  · intro v k _ hk
    obtain ⟨rfl, rfl⟩ := lookup_init hk
    exact List.mem_singleton.mpr rfl
  · intro x hx
    rw [List.mem_singleton.mp hx]
    exact ⟨0, zero, le_rfl⟩
  · simp [Search.init]
  · simp [Search.init]

/-- Each score is the cost of a walk whose edges all leave nodes of `left`. -/
def Search.Traced (E : List (Arc V W)) (c : Arc V W → K) (s : V) (left : Finset V)
    (st : Search V K) : Prop :=
  ∀ v k, st.scores.lookup v = some k →
    ∃ p, IsWalk {a | a ∈ E} s p v ∧ cost c p = k ∧ ∀ a ∈ p, a.src ∈ left

omit [LinearOrder K] in
theorem init_traced : (Search.init s : Search V K).Traced E c s ∅ := by
  intro v k found
  obtain ⟨rfl, rfl⟩ := lookup_init found
  exact ⟨[], rfl, rfl, by simp⟩

/-- What scanning an edge can do. -/
theorem relax_cases (relaxed : st.relax heap c s node nodeScore a = some st') :
    st' = st ∨ a.tgt ∉ st.visited ∧ ∃ hop, st.hop s node a.tgt = some hop ∧
      st' = st.better heap a.tgt (nodeScore + c a) hop := by
  have stored (improved : st.improve heap s node a.tgt (nodeScore + c a) = some st') :
      ∃ hop, st.hop s node a.tgt = some hop ∧
        st' = st.better heap a.tgt (nodeScore + c a) hop := by
    obtain ⟨hop, found, same⟩ := Option.bind_eq_some_iff.mp improved
    exact ⟨hop, found, (Option.some.inj same).symm⟩
  simp only [Search.relax] at relaxed
  split_ifs at relaxed with unvisited
  · exact .inl (Option.some.inj relaxed).symm
  · split at relaxed
    · split at relaxed
      · exact .inr ⟨unvisited, stored relaxed⟩
      · exact .inl (Option.some.inj relaxed).symm
    · exact .inr ⟨unvisited, stored relaxed⟩

theorem Search.Traced.relax (h : st.Traced E c s left)
    (current : st.scores.lookup a.src = some nodeScore) (mem : a ∈ E) (inside : a.src ∈ left)
    (relaxed : st.relax heap c s a.src nodeScore a = some st') : st'.Traced E c s left := by
  obtain rfl | ⟨-, hop, -, rfl⟩ := relax_cases heap relaxed
  · exact h
  · intro v k found
    obtain before | ⟨rfl, rfl⟩ := Best.lookup_insert_origin found
    · exact h v k before
    · obtain ⟨p, walk, price, sources⟩ := h a.src nodeScore current
      refine ⟨p ++ [a], walk.concat mem, by simp [price], ?_⟩
      intro b hb
      obtain old | new := List.mem_append.mp hb
      · exact sources b old
      · exact (List.mem_singleton.mp new) ▸ inside

variable [CanonicallyOrderedAdd K]

/-- Storing a better score for the target of an edge of the open node. -/
theorem Search.Open.improve (h : st.Open E c s a.src nodeScore done) (mem : a ∈ E)
    (unvisited : a.tgt ∉ st.visited)
    (better : ∀ old, st.scores.lookup a.tgt = some old → nodeScore + c a < old) :
    ∃ st', st.improve heap s a.src a.tgt (nodeScore + c a) = some st' ∧
      st'.Open E c s a.src nodeScore (a :: done) ∧ st'.visited = st.visited ∧
      st'.visitNext.length = st.visitNext.length + 1 := by
  have notNode : a.src ≠ a.tgt := by
    intro same
    have := better nodeScore (same ▸ h.current)
    exact absurd this (not_lt.mpr le_self_add)
  have notStart : s ≠ a.tgt := by
    intro same
    have := better 0 (same ▸ h.sound.start)
    exact absurd this (not_lt.mpr zero_le)
  obtain ⟨p, hop, walk, price, found, eq⟩ := h.sound.extend h.current mem
  set st' := st.better heap a.tgt (nodeScore + c a) hop
  have new : st'.scores.lookup a.tgt = some (nodeScore + c a) := AList.lookup_insert _
  have old : ∀ v, v ≠ a.tgt → st'.scores.lookup v = st.scores.lookup v :=
    fun v hv => AList.lookup_insert_ne hv
  have pushed : ∀ x, x ∈ st'.visitNext ↔ x = (nodeScore + c a, a.tgt) ∨ x ∈ st.visitNext :=
    fun x => (heap.push_perm _ _).mem_iff.trans List.mem_cons
  have relaxed : ∀ b, b.src ≠ a.tgt → st.Relaxed c b → st'.Relaxed c b := by
    intro b hb hr k hk
    obtain ⟨k', hk', le⟩ := hr k (old _ hb ▸ hk)
    obtain ⟨k'', stored, le'⟩ := lookup_insert_le better hk'
    exact ⟨k'', stored, le'.trans le⟩
  have stored : st.improve heap s a.src a.tgt (nodeScore + c a) = some st' := by
    rw [Search.improve, found]
    rfl
  refine ⟨st', stored, ?_, rfl, (heap.push_perm _ _).length_eq⟩
  have opened : st'.Open E c s a.src nodeScore done := by
    constructor
    · exact h.sound.better heap notStart walk price eq
    · exact (old _ notNode).trans h.current
    · exact h.fresh
    · intro v k hne hv hk
      obtain before | ⟨rfl, rfl⟩ := Best.lookup_insert_origin hk
      · exact (pushed _).mpr (.inr (h.queued v k hne hv before))
      · exact (pushed _).mpr (.inl rfl)
    · intro x hx
      obtain rfl | hx := (pushed x).mp hx
      · exact ⟨_, new, le_rfl⟩
      · obtain ⟨k, hk, le⟩ := h.heap x hx
        obtain ⟨k', stored, le'⟩ := lookup_insert_le better hk
        exact ⟨k', stored, le'.trans le⟩
    · intro x hx
      obtain rfl | hx := (pushed x).mp hx
      · exact le_self_add
      · exact h.above x hx
    · intro v hv k hk
      have same : v ≠ a.tgt := fun same => unvisited (same ▸ hv)
      exact h.floor v hv k ((old v same).symm.trans hk)
    · intro b hb later
      refine relaxed b ?_ (h.relaxed b hb later)
      obtain hv | hd := later
      · exact fun same => unvisited (same ▸ hv)
      · exact h.scanned b hd ▸ notNode
    · exact h.scanned
  exact opened.skip ⟨_, new, le_rfl⟩

theorem relax_open (h : st.Open E c s a.src nodeScore done) (mem : a ∈ E) :
    ∃ st', st.relax heap c s a.src nodeScore a = some st' ∧
      st'.Open E c s a.src nodeScore (a :: done) ∧ st'.visited = st.visited ∧
      st'.visitNext.length ≤ st.visitNext.length + 1 := by
  unfold Search.relax
  by_cases seen : a.tgt ∈ st.visited
  · have scored := AList.lookup_isSome.mpr (h.sound.visited _ seen)
    obtain ⟨k, hk⟩ := Option.isSome_iff_exists.mp scored
    have low : k ≤ nodeScore + c a := (h.floor _ seen k hk).trans le_self_add
    exact ⟨st, by simp [seen], h.skip ⟨k, hk, low⟩, rfl, by omega⟩
  · have improved := h.improve heap mem seen
    cases found : st.scores.lookup a.tgt with
    | none =>
      obtain ⟨st', stored, after, same, grown⟩ := improved (by simp [found])
      exact ⟨st', by simpa [seen, found] using stored, after, same, grown.le⟩
    | some old =>
      by_cases better : nodeScore + c a < old
      · obtain ⟨st', stored, after, same, grown⟩ := improved (by simp [found, better])
        exact ⟨st', by simpa [seen, found, better] using stored, after, same, grown.le⟩
      · have covered := h.skip ⟨old, found, not_lt.mp better⟩
        exact ⟨st, by simp [seen, found, better], covered, rfl, by omega⟩

/-- The `for` loop over the edges of the open node. -/
theorem relax_all_open (mem : ∀ a ∈ edges, a ∈ E ∧ a.src = node)
    (h : st.Open E c s node nodeScore done) :
    ∃ st', edges.foldlM (Search.relax heap c s node nodeScore) st = some st' ∧
      st'.Open E c s node nodeScore (edges.reverse ++ done) ∧ st'.visited = st.visited ∧
      st'.visitNext.length ≤ st.visitNext.length + edges.length := by
  induction edges generalizing st done with
  | nil => exact ⟨st, rfl, h, rfl, by simp⟩
  | cons a rest ih =>
    obtain ⟨inE, rfl⟩ := mem a (by simp)
    obtain ⟨st₁, step, open₁, same₁, grown₁⟩ := relax_open heap h inE
    obtain ⟨st₂, steps, open₂, same₂, grown₂⟩ := ih (fun b hb => mem b (by simp [hb])) open₁
    refine ⟨st₂, by simp [step, steps], by simpa using open₂, same₂.trans same₁, ?_⟩
    simp only [List.length_cons]
    omega

theorem Search.Traced.relax_all
    (traced : st.Traced E c s left) (h : st.Open E c s node nodeScore done) (inside : node ∈ left)
    (mem : ∀ a ∈ edges, a ∈ E ∧ a.src = node)
    (scan : edges.foldlM (Search.relax heap c s node nodeScore) st = some st') :
    st'.Traced E c s left := by
  induction edges generalizing st done with
  | nil => exact Option.some.inj scan ▸ traced
  | cons a rest ih =>
    obtain ⟨inE, rfl⟩ := mem a (by simp)
    obtain ⟨st₁, step, open₁, -, -⟩ := relax_open heap h inE
    rw [List.foldlM_cons, step] at scan
    exact ih (traced.relax heap h.current inE inside step) open₁
      (fun b hb => mem b (by simp [hb])) scan

/-! ## The whole run -/

/-- Bounds the pops still to come: an entry each, and an edge of an unvisited
node can push one more. -/
def Search.budget (E : List (Arc V W)) (st : Search V K) : Nat :=
  st.visitNext.length + E.countP fun a => a.src ∉ st.visited

theorem countP_unvisited (E : List (Arc V W)) {visited : Finset V}
    (unvisited : node ∉ visited) :
    (E.countP fun a => a.src ∉ visited) =
      (E.countP fun a => a.src ∉ insert node visited) + (edgesOf E node).length := by
  induction E with
  | nil => simp [edgesOf]
  | cons b E ih =>
    by_cases here : b.src = node
    · simp [edgesOf, here, unvisited] at ih ⊢
      omega
    · by_cases seen : b.src ∈ visited <;>
        simp [edgesOf, here, seen] at ih ⊢ <;> omega

theorem loop_settled (h : st.Settled E c s) (enough : st.budget E < fuel) :
    ∃ st', Search.loop heap c s E fuel st = some st' ∧ st'.Settled E c s ∧
      st'.visitNext = [] := by
  induction fuel generalizing st with
  | zero => omega
  | succ fuel ih =>
    cases popped : heap.pop st.visitNext with
    | none => exact ⟨st, by simp [Search.loop, popped], h, heap.pop_none _ popped⟩
    | some entry =>
      obtain ⟨⟨nodeScore, node⟩, rest⟩ := entry
      have shorter : st.visitNext.length = rest.length + 1 :=
        (heap.pop_some _ _ _ popped).1.length_eq
      by_cases seen : node ∈ st.visited
      · have less : { st with visitNext := rest }.budget E < fuel := by
          unfold Search.budget at enough ⊢
          simp only
          omega
        obtain ⟨st', run, after, empty⟩ := ih (h.drop heap popped seen) less
        exact ⟨st', by simpa [Search.loop, popped, seen] using run, after, empty⟩
      · obtain ⟨st₁, scan, open₁, same, grown⟩ := relax_all_open heap
          (fun a ha => mem_edgesOf.mp ha) (h.pop heap popped seen)
        have visit := open₁.visit fun a ha src => by simp [mem_edgesOf, ha, src]
        have less : { st₁ with visited := insert node st₁.visited }.budget E < fuel := by
          have split := countP_unvisited E seen
          unfold Search.budget at enough ⊢
          rw [same]
          simp only at grown ⊢
          omega
        obtain ⟨st', run, after, empty⟩ := ih visit less
        refine ⟨st', ?_, after, empty⟩
        simp only [Search.loop, popped, if_neg seen, scan]
        exact run

variable [IsOrderedCancelAddMonoid K]

omit [CanonicallyOrderedAdd K] in
/-- With an empty heap the scores are the distances. -/
theorem Search.Settled.shortest (h : st.Settled E c s) (empty : st.visitNext = [])
    (walk : IsWalk {a | a ∈ E} s p v) :
    ∃ k, st.scores.lookup v = some k ∧ k ≤ cost c p := by
  have visited : ∀ v k, st.scores.lookup v = some k → v ∈ st.visited := by
    intro v k hk
    by_contra unvisited
    have queued := h.queued v k unvisited hk
    simp [empty] at queued
  have arcs : ∀ a ∈ {a | a ∈ E}, ∀ x, st.scores.lookup a.src = some x →
      ∃ y, st.scores.lookup a.tgt = some y ∧ y ≤ x + c a :=
    fun a ha x hx => h.relaxed a ha (visited _ x hx) x hx
  obtain ⟨k, hk, le⟩ := walk.label_le (fun v => st.scores.lookup v) arcs h.sound.start
  exact ⟨k, hk, by simpa using le⟩

/-- The search always returns. It scores exactly the reachable nodes, with
their distances, and each first hop entry describes a shortest walk. -/
theorem dijkstraWithFirstHop_spec (heap : MinHeap V K) (c : Arc V W → K) (s : V)
    (E : List (Arc V W)) :
    ∃ costs nextHops, dijkstraWithFirstHop heap c s E = some (costs, nextHops) ∧
      (∀ v, v ∈ nextHops ↔ Reachable {a | a ∈ E} s v) ∧ (∀ v, v ∈ costs ↔ v ∈ nextHops) ∧
      ∀ v ∈ nextHops, ∃ p, IsShortest {a | a ∈ E} c s p v ∧
        costs.lookup v = some (cost c p) ∧
        nextHops.lookup v = some (Graph.firstHop s p, p.length) := by
  have enough : (Search.init s : Search V K).budget E < E.length + 2 := by
    refine Nat.lt_of_le_of_lt (Nat.add_le_add_left List.countP_le_length _) ?_
    simp only [Search.init, List.length_singleton]
    omega
  obtain ⟨st, run, settled, empty⟩ := loop_settled heap init_settled enough
  have described : ∀ v k, st.scores.lookup v = some k → ∃ p,
      IsShortest {a | a ∈ E} c s p v ∧ cost c p = k ∧
      st.firstHop.lookup v = some (Graph.firstHop s p, p.length) := by
    intro v k hk
    obtain ⟨p, walk, price, hop⟩ := settled.sound.walk v k hk
    refine ⟨p, ⟨walk, fun q hq => ?_⟩, price, hop⟩
    obtain ⟨k', hk', le⟩ := settled.shortest empty hq
    rw [price, Option.some.inj (hk.symm.trans hk')]
    exact le
  have scored : ∀ v ∈ st.firstHop, ∃ k, st.scores.lookup v = some k := fun v hv =>
    Best.mem_iff_lookup.mp (settled.sound.domain v hv)
  refine ⟨st.scores, st.firstHop, by simp [dijkstraWithFirstHop, run], ?_, ?_, ?_⟩
  · intro v
    constructor
    · intro hv
      obtain ⟨k, hk⟩ := scored v hv
      obtain ⟨p, shortest, -⟩ := described v k hk
      exact ⟨p, shortest.walk⟩
    · rintro ⟨p, walk⟩
      obtain ⟨k, hk, -⟩ := settled.shortest empty walk
      obtain ⟨p, -, -, hop⟩ := described v k hk
      exact Best.mem_iff_lookup.mpr ⟨_, hop⟩
  · intro v
    refine ⟨fun hv => ?_, settled.sound.domain v⟩
    obtain ⟨k, hk⟩ := Best.mem_iff_lookup.mp hv
    obtain ⟨p, -, -, hop⟩ := described v k hk
    exact Best.mem_iff_lookup.mpr ⟨_, hop⟩
  · intro v hv
    obtain ⟨k, hk⟩ := scored v hv
    obtain ⟨p, shortest, rfl, hop⟩ := described v k hk
    exact ⟨p, shortest, hk, hop⟩

/-! ## The sums that a search computes -/

/-- A node that has just been opened has its distance as score. -/
theorem Search.Open.least (h : st.Open E c s node nodeScore [])
    (walk : IsWalk {a | a ∈ E} s p node) : nodeScore ≤ cost c p := by
  -- a vertex that is not visited has a score of at least `nodeScore`
  have unvisited : ∀ v k, v ∉ st.visited → st.scores.lookup v = some k → nodeScore ≤ k := by
    intro v k fresh found
    by_cases here : v = node
    · subst here
      exact (Option.some.inj (h.current.symm.trans found)).le
    · exact h.above _ (h.queued v k here fresh found)
  have reached : ∀ (q : List (Arc V W)) (u v : V) (paid : K), IsWalk {a | a ∈ E} u q v →
      (nodeScore ≤ paid ∨ u ∈ st.visited ∧ ∃ k, st.scores.lookup u = some k ∧ k ≤ paid) →
      nodeScore ≤ paid + cost c q ∨ v ∈ st.visited := by
    intro q
    induction q with
    | nil =>
      intro u v paid walk from_
      obtain rfl := isWalk_nil.mp walk
      exact from_.imp (fun le => le.trans le_self_add) And.left
    | cons a q ih =>
      rintro u v paid ⟨mem, rfl, walk⟩ from_
      rw [cost_cons, ← add_assoc]
      refine ih a.tgt v (paid + c a) walk ?_
      obtain enough | ⟨seen, k, found, le⟩ := from_
      · exact .inl (enough.trans le_self_add)
      · obtain ⟨k', found', le'⟩ := h.relaxed a mem (.inl seen) k found
        have paid' : k' ≤ paid + c a := le'.trans (add_le_add_left le (c a))
        by_cases later : a.tgt ∈ st.visited
        · exact .inr ⟨later, k', found', paid'⟩
        · exact .inl ((unvisited a.tgt k' later found').trans paid')
  have from_start : nodeScore ≤ 0 ∨ s ∈ st.visited ∧ ∃ k, st.scores.lookup s = some k ∧ k ≤ 0 := by
    by_cases seen : s ∈ st.visited
    · exact .inr ⟨seen, 0, h.sound.start, le_rfl⟩
    · exact .inl (unvisited s 0 seen h.sound.start)
  have result := reached p s node 0 walk from_start
  rw [zero_add] at result
  exact result.resolve_right h.fresh

/-- Each sum extends a shortest walk that repeats no vertex by one edge, to a
vertex that is not on it or to its own end. -/
theorem Search.Settled.sums (h : st.Settled E c s) (traced : st.Traced E c s st.visited)
    (mem : k ∈ Search.sums heap c s E fuel st) :
    ∃ p a, IsShortest {a | a ∈ E} c s p a.src ∧ a ∈ E ∧ k = cost c p + c a ∧
      (vertices s p).Nodup ∧ (a.tgt ∈ vertices s p → a.tgt = a.src) := by
  induction fuel generalizing st with
  | zero => cases mem
  | succ fuel ih =>
    rw [Search.sums] at mem
    cases popped : heap.pop st.visitNext with
    | none =>
      rw [popped] at mem
      cases mem
    | some entry =>
      obtain ⟨⟨nodeScore, node⟩, rest⟩ := entry
      simp only [popped] at mem
      by_cases seen : node ∈ st.visited
      · rw [if_pos seen] at mem
        exact ih (h.drop heap popped seen) traced mem
      · rw [if_neg seen] at mem
        have opened := h.pop heap popped seen
        obtain ⟨st₁, scan, open₁, same, -⟩ :=
          relax_all_open heap (fun a ha => mem_edgesOf.mp ha) opened
        obtain here | later := List.mem_append.mp mem
        · obtain ⟨a, ha, rfl⟩ := List.mem_map.mp here
          obtain ⟨inEdges, unvisited⟩ := List.mem_filter.mp ha
          obtain ⟨inE, src⟩ := mem_edgesOf.mp inEdges
          obtain ⟨p, walk, price, sources⟩ := traced node nodeScore opened.current
          obtain ⟨q, sub, walk', nodup⟩ := walk.exists_simple
          have cheap : cost c q ≤ nodeScore := price ▸ (sub.map c).sum_le_sum fun _ _ => zero_le
          have price' : cost c q = nodeScore := le_antisymm cheap (opened.least walk')
          refine ⟨q, a, ⟨src ▸ walk', fun r hr => ?_⟩, inE, by rw [price'], nodup, fun on => ?_⟩
          · rw [price']
            exact opened.least (src ▸ hr)
          · obtain ⟨b, hb, leaves⟩ | last := walk'.left_or_end on
            · have visited := sources b (sub.subset hb)
              rw [leaves] at visited
              simp [visited] at unvisited
            · exact last.trans src.symm
        · rw [scan] at later
          have wider : { st with visitNext := rest }.Traced E c s (insert node st.visited) := by
            intro v k found
            obtain ⟨p, walk, price, sources⟩ := traced v k found
            exact ⟨p, walk, price, fun b hb => Finset.mem_insert_of_mem (sources b hb)⟩
          have traced₁ := wider.relax_all heap opened (Finset.mem_insert_self _ _)
            (fun a ha => mem_edgesOf.mp ha) scan
          refine ih (open₁.visit fun a ha src => by simp [mem_edgesOf, ha, src]) ?_ later
          exact (congrArg (insert node) same).symm ▸ traced₁

theorem mem_dijkstraSums_simple (mem : k ∈ dijkstraSums heap c s E) :
    ∃ p a, IsShortest {a | a ∈ E} c s p a.src ∧ a ∈ E ∧ k = cost c p + c a ∧
      (vertices s p).Nodup ∧ (a.tgt ∈ vertices s p → a.tgt = a.src) :=
  init_settled.sums heap init_traced mem

theorem mem_dijkstraSums (mem : k ∈ dijkstraSums heap c s E) :
    ∃ p a, IsShortest {a | a ∈ E} c s p a.src ∧ a ∈ E ∧ k = cost c p + c a := by
  obtain ⟨p, a, shortest, inE, sum, -⟩ := mem_dijkstraSums_simple heap mem
  exact ⟨p, a, shortest, inE, sum⟩

end PeerLink.Route
