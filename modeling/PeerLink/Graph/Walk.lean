import Mathlib.Algebra.Order.BigOperators.Group.List
import Mathlib.Algebra.Order.Group.Nat
import Mathlib.Data.List.Nodup
import Mathlib.Order.WellFounded

/-!
# Walks in a directed multigraph

A walk is the list of arcs it takes. Costs add up along it, so every part of a
shortest walk is a shortest walk (`IsShortest.suffix`), and the arcs that are
tight for the distances carry exactly the shortest walks
(`isWalk_tight_iff`).
-/

namespace PeerLink.Graph

structure Arc (V W : Type) where
  src : V
  tgt : V
  weight : W
  deriving DecidableEq

variable {V W : Type}

/-- The arcs of `p`, all taken from `E`, lead from `u` to `v`. -/
def IsWalk (E : Set (Arc V W)) : V → List (Arc V W) → V → Prop
  | u, [], v => u = v
  | u, a :: p, v => a ∈ E ∧ a.src = u ∧ IsWalk E a.tgt p v

def Reachable (E : Set (Arc V W)) (u v : V) : Prop := ∃ p, IsWalk E u p v

/-- The first vertex after `u` on the walk, `u` itself on the empty walk. -/
def firstHop (u : V) : List (Arc V W) → V
  | [] => u
  | a :: _ => a.tgt

variable {E F : Set (Arc V W)} {u v w : V} {p q : List (Arc V W)} {a : Arc V W}

@[simp] theorem isWalk_nil : IsWalk E u [] v ↔ u = v := Iff.rfl

@[simp] theorem isWalk_cons :
    IsWalk E u (a :: p) v ↔ a ∈ E ∧ a.src = u ∧ IsWalk E a.tgt p v := Iff.rfl

theorem isWalk_append :
    IsWalk E u (p ++ q) v ↔ ∃ m, IsWalk E u p m ∧ IsWalk E m q v := by
  induction p generalizing u with
  | nil => simp
  | cons a p ih =>
    simp only [List.cons_append, isWalk_cons, ih]
    constructor
    · rintro ⟨mem, src, m, left, right⟩
      exact ⟨m, ⟨mem, src, left⟩, right⟩
    · rintro ⟨m, ⟨mem, src, left⟩, right⟩
      exact ⟨mem, src, m, left, right⟩

theorem IsWalk.append (left : IsWalk E u p v) (right : IsWalk E v q w) :
    IsWalk E u (p ++ q) w :=
  isWalk_append.mpr ⟨v, left, right⟩

theorem IsWalk.concat (walk : IsWalk E u p a.src) (mem : a ∈ E) :
    IsWalk E u (p ++ [a]) a.tgt :=
  walk.append ⟨mem, rfl, rfl⟩

theorem IsWalk.mono (sub : E ⊆ F) (walk : IsWalk E u p v) : IsWalk F u p v := by
  induction p generalizing u with
  | nil => exact walk
  | cons a p ih => exact ⟨sub walk.1, walk.2.1, ih walk.2.2⟩

theorem IsWalk.arcs (walk : IsWalk E u p v) : ∀ a ∈ p, a ∈ E := by
  induction p generalizing u with
  | nil => simp
  | cons a p ih =>
    intro b hb
    obtain rfl | hb := List.mem_cons.mp hb
    · exact walk.1
    · exact ih walk.2.2 b hb

theorem firstHop_append (nonempty : p ≠ []) : firstHop u (p ++ q) = firstHop u p := by
  cases p with
  | nil => exact absurd rfl nonempty
  | cons a p => rfl

/-! ## Images of walks -/

section
variable {V' W' : Type} (f : V → V') (g : W → W')

@[simps] def Arc.map (a : Arc V W) : Arc V' W' := ⟨f a.src, f a.tgt, g a.weight⟩

variable {f g} {E' : Set (Arc V' W')}

theorem IsWalk.map (arcs : ∀ a ∈ E, a.map f g ∈ E') (walk : IsWalk E u p v) :
    IsWalk E' (f u) (p.map (Arc.map f g)) (f v) := by
  induction p generalizing u with
  | nil => exact congrArg f walk
  | cons a p ih => exact ⟨arcs a walk.1, congrArg f walk.2.1, ih walk.2.2⟩

theorem firstHop_map : firstHop (f u) (p.map (Arc.map f g)) = f (firstHop u p) := by
  cases p <;> rfl

/-- When every arc out of `f u` is the image of an arc out of `u`, for `u` in a
set that these arcs do not leave, every walk out of `f u` is the image of a walk
out of `u`. -/
theorem IsWalk.lift {S : Set V}
    (arcs : ∀ b ∈ E', ∀ u ∈ S, b.src = f u → ∃ a ∈ E, a.src = u ∧ a.tgt ∈ S ∧ a.map f g = b)
    {q : List (Arc V' W')} {v' : V'} (inside : u ∈ S) (walk : IsWalk E' (f u) q v') :
    ∃ p v, IsWalk E u p v ∧ v ∈ S ∧ f v = v' ∧ p.map (Arc.map f g) = q := by
  induction q generalizing u with
  | nil => exact ⟨[], u, rfl, inside, walk, rfl⟩
  | cons b q ih =>
    obtain ⟨mem, src, rest⟩ := walk
    obtain ⟨a, ha, rfl, stays, rfl⟩ := arcs b mem u inside src
    obtain ⟨p, v, walk', hS, hv, rfl⟩ := ih stays rest
    exact ⟨a :: p, v, ⟨ha, rfl, walk'⟩, hS, hv, rfl⟩

end

/-! ## Simple walks -/

/-- The vertices a walk from `u` passes, both ends included. -/
def vertices (u : V) (p : List (Arc V W)) : List V := u :: p.map Arc.tgt

theorem length_vertices (u : V) (p : List (Arc V W)) :
    (vertices u p).length = p.length + 1 := by simp [vertices]

section
variable (walk : IsWalk E u p v)
include walk

/-- The part of a walk after one of its vertices. -/
theorem IsWalk.drop_to {m : V} (mem : m ∈ vertices u p) :
    ∃ l r, p = l ++ r ∧ IsWalk E u l m ∧ IsWalk E m r v := by
  induction p generalizing u with
  | nil =>
    have here : m = u := by simpa [vertices] using mem
    subst here
    exact ⟨[], [], rfl, rfl, walk⟩
  | cons a p ih =>
    obtain here | later := List.mem_cons.mp mem
    · subst here
      exact ⟨[], a :: p, rfl, rfl, walk⟩
    · obtain ⟨l, r, rfl, left, right⟩ := ih walk.2.2 later
      exact ⟨a :: l, r, rfl, ⟨walk.1, walk.2.1, left⟩, right⟩

theorem vertices_append_sublist : (vertices v q).Sublist (vertices u (p ++ q)) := by
  induction p generalizing u with
  | nil =>
    rw [isWalk_nil.mp walk]
    exact List.Sublist.refl _
  | cons a p ih => exact (ih walk.2.2).cons u

/-- Loop erasure: a walk contains a walk with the same ends that repeats no
vertex. -/
theorem IsWalk.exists_simple :
    ∃ q, q.Sublist p ∧ IsWalk E u q v ∧ (vertices u q).Nodup := by
  induction p generalizing u with
  | nil => exact ⟨[], List.Sublist.refl _, walk, by simp [vertices]⟩
  | cons a p ih =>
    obtain ⟨mem, src, rest⟩ := walk
    obtain ⟨q, sub, walk', nodup⟩ := ih rest
    by_cases again : u ∈ vertices a.tgt q
    · obtain ⟨l, r, rfl, left, right⟩ := walk'.drop_to again
      exact ⟨r, (List.sublist_append_right l r).trans (sub.cons a), right,
        nodup.sublist (vertices_append_sublist left)⟩
    · exact ⟨a :: q, sub.cons_cons a, ⟨mem, src, walk'⟩, List.nodup_cons.mpr ⟨again, nodup⟩⟩

theorem IsWalk.vertices_subset {S : Set V} (start : u ∈ S) (closed : ∀ a ∈ E, a.tgt ∈ S) :
    ∀ m ∈ vertices u p, m ∈ S := by
  intro m hm
  obtain rfl | later := List.mem_cons.mp hm
  · exact start
  · obtain ⟨a, ha, rfl⟩ := List.mem_map.mp later
    exact closed a (walk.arcs a ha)

theorem IsWalk.end_mem_vertices : v ∈ vertices u p := by
  induction p generalizing u with
  | nil => simp [vertices, isWalk_nil.mp walk]
  | cons a p ih => exact List.mem_cons_of_mem u (ih walk.2.2)

/-- Every vertex of a walk but its end has an arc of the walk that leaves it. -/
theorem IsWalk.left_or_end {m : V} (mem : m ∈ vertices u p) :
    (∃ a ∈ p, a.src = m) ∨ m = v := by
  induction p generalizing u with
  | nil => exact .inr ((List.mem_singleton.mp mem).trans walk)
  | cons a p ih =>
    obtain here | later := List.mem_cons.mp mem
    · exact .inl ⟨a, List.mem_cons_self, walk.2.1.trans here.symm⟩
    · refine (ih walk.2.2 later).imp_left ?_
      rintro ⟨b, hb, src⟩
      exact ⟨b, List.mem_cons_of_mem a hb, src⟩

end

theorem firstHop_mem_vertices (u : V) (p : List (Arc V W)) : firstHop u p ∈ vertices u p := by
  cases p <;> simp [vertices, firstHop]

/-! ## Costs -/

variable {K : Type} [AddCommMonoid K]

def cost (c : Arc V W → K) (p : List (Arc V W)) : K := (p.map c).sum

variable {c : Arc V W → K}

@[simp] theorem cost_nil : cost c [] = 0 := rfl

@[simp] theorem cost_cons : cost c (a :: p) = c a + cost c p := by simp [cost]

@[simp] theorem cost_append : cost c (p ++ q) = cost c p + cost c q := by simp [cost]

theorem IsWalk.cost_congr {c' : Arc V W → K}
    (agree : ∀ a ∈ E, c a = c' a) (walk : IsWalk E u p v) : cost c p = cost c' p :=
  congrArg List.sum (List.map_congr_left fun a ha => agree a (walk.arcs a ha))

theorem cost_map {V' W' : Type} (f : V → V') (g : W → W') (c' : Arc V' W' → K) :
    cost c' (p.map (Arc.map f g)) = cost (fun a => c' (a.map f g)) p := by
  simp [cost, Function.comp_def]

variable [LinearOrder K] {m : V}

structure IsShortest (E : Set (Arc V W)) (c : Arc V W → K) (u : V) (p : List (Arc V W))
    (v : V) : Prop where
  walk : IsWalk E u p v
  least : ∀ q, IsWalk E u q v → cost c p ≤ cost c q

/-- The least cost of a walk from `u` to `v` is `d`. -/
def IsDist (E : Set (Arc V W)) (c : Arc V W → K) (u v : V) (d : K) : Prop :=
  ∃ p, IsShortest E c u p v ∧ cost c p = d

theorem IsShortest.isDist (h : IsShortest E c u p v) : IsDist E c u v (cost c p) := ⟨p, h, rfl⟩

theorem IsDist.unique {d d' : K} (h : IsDist E c u v d) (h' : IsDist E c u v d') : d = d' := by
  obtain ⟨p, shortest, rfl⟩ := h
  obtain ⟨p', shortest', rfl⟩ := h'
  exact le_antisymm (shortest.least p' shortest'.walk) (shortest'.least p shortest.walk)

theorem IsDist.shortest {d : K} (h : IsDist E c u v d) (walk : IsWalk E u p v)
    (price : cost c p = d) : IsShortest E c u p v := by
  obtain ⟨q, shortest, rfl⟩ := h
  exact ⟨walk, fun r hr => price ▸ shortest.least r hr⟩

theorem Reachable.exists_shortest [WellFoundedLT K] (h : Reachable E u v) :
    ∃ p, IsShortest E c u p v := by
  obtain ⟨p, walk⟩ := h
  obtain ⟨_, ⟨q, walk', rfl⟩, least⟩ := wellFounded_lt.has_min
    {k | ∃ q, IsWalk E u q v ∧ cost c q = k} ⟨cost c p, p, walk, rfl⟩
  exact ⟨q, walk', fun r hr => not_lt.mp (least (cost c r) ⟨r, hr, rfl⟩)⟩

theorem isShortest_nil [CanonicallyOrderedAdd K] (E : Set (Arc V W)) (c : Arc V W → K) (u : V) :
    IsShortest E c u [] u :=
  ⟨rfl, fun q _ => by simp⟩

theorem IsShortest.congr {c' : Arc V W → K} (agree : ∀ a ∈ E, c a = c' a)
    (h : IsShortest E c u p v) : IsShortest E c' u p v := by
  refine ⟨h.walk, fun q hq => ?_⟩
  rw [← h.walk.cost_congr agree, ← hq.cost_congr agree]
  exact h.least q hq

/-- A map that lifts walks takes shortest walks to shortest walks. -/
theorem isShortest_map_iff {V' W' : Type} {f : V → V'} {g : W → W'} {E' : Set (Arc V' W')}
    {c' : Arc V' W' → K} {S : Set V} (arcs : ∀ a ∈ E, a.map f g ∈ E')
    (lifts : ∀ b ∈ E', ∀ u ∈ S, b.src = f u → ∃ a ∈ E, a.src = u ∧ a.tgt ∈ S ∧ a.map f g = b)
    (prices : ∀ a ∈ E, c a = c' (a.map f g)) (ends : ∀ m ∈ S, f m = f v → m = v)
    (inside : u ∈ S) (walk : IsWalk E u p v) :
    IsShortest E' c' (f u) (p.map (Arc.map f g)) (f v) ↔ IsShortest E c u p v := by
  have price : ∀ q m, IsWalk E u q m → cost c' (q.map (Arc.map f g)) = cost c q := by
    intro q m hq
    rw [cost_map]
    exact (hq.cost_congr prices).symm
  constructor
  · intro h
    refine ⟨walk, fun q hq => ?_⟩
    rw [← price p v walk, ← price q v hq]
    exact h.least _ (hq.map arcs)
  · intro h
    refine ⟨walk.map arcs, fun q hq => ?_⟩
    obtain ⟨r, m, hr, stays, hm, rfl⟩ := hq.lift lifts inside
    obtain rfl := ends m stays hm
    rw [price p m walk, price r m hr]
    exact h.least r hr

/-- The arcs that some shortest walk out of `s` can take. -/
def tight (E : Set (Arc V W)) (c : Arc V W → K) (s : V) : Set (Arc V W) :=
  {a | a ∈ E ∧ ∃ d, IsDist E c s a.src d ∧ IsDist E c s a.tgt (d + c a)}

theorem IsWalk.isDist_of_tight {d : K} (walk : IsWalk (tight E c u) m p v)
    (dist : IsDist E c u m d) : IsDist E c u v (d + cost c p) := by
  induction p generalizing m d with
  | nil =>
    rw [cost_nil, add_zero]
    exact isWalk_nil.mp walk ▸ dist
  | cons a p ih =>
    obtain ⟨⟨_, d', src, tgt⟩, rfl, rest⟩ := walk
    rw [src.unique dist] at tgt
    rw [cost_cons, ← add_assoc]
    exact ih rest tgt

variable [IsOrderedCancelAddMonoid K]

theorem IsShortest.left (h : IsShortest E c u (p ++ q) v) (left : IsWalk E u p m)
    (right : IsWalk E m q v) : IsShortest E c u p m := by
  refine ⟨left, fun r hr => ?_⟩
  have whole := h.least (r ++ q) (hr.append right)
  rw [cost_append, cost_append] at whole
  exact le_of_add_le_add_right whole

/-- The rest of a shortest walk is a shortest walk. -/
theorem IsShortest.right (h : IsShortest E c u (p ++ q) v) (left : IsWalk E u p m)
    (right : IsWalk E m q v) : IsShortest E c m q v := by
  refine ⟨right, fun r hr => ?_⟩
  have whole := h.least (p ++ r) (left.append hr)
  rw [cost_append, cost_append] at whole
  exact le_of_add_le_add_left whole

theorem IsShortest.isWalk_tight {l : List (Arc V W)} (h : IsShortest E c u (l ++ p) v)
    (left : IsWalk E u l m) (right : IsWalk E m p v) : IsWalk (tight E c u) m p v := by
  induction p generalizing l m with
  | nil => exact right
  | cons a p ih =>
    obtain ⟨mem, rfl, rest⟩ := right
    have extended : IsWalk E u (l ++ [a]) a.tgt := left.concat mem
    have whole : IsShortest E c u ((l ++ [a]) ++ p) v := by simpa using h
    refine ⟨⟨mem, cost c l, (h.left left ⟨mem, rfl, rest⟩).isDist, ?_⟩, rfl,
      ih whole extended rest⟩
    have dist := (whole.left extended rest).isDist
    simpa using dist

/-- The walks over tight arcs are the shortest walks. -/
theorem isWalk_tight_iff [CanonicallyOrderedAdd K] :
    IsWalk (tight E c u) u p v ↔ IsShortest E c u p v := by
  constructor
  · intro walk
    have dist := walk.isDist_of_tight (isShortest_nil E c u).isDist
    rw [cost_nil, zero_add] at dist
    exact dist.shortest (walk.mono fun a ha => ha.1) rfl
  · intro shortest
    exact IsShortest.isWalk_tight (l := []) shortest rfl shortest.walk

/-- A labelling that starts at zero and that no arc out of a labelled vertex
can improve is a lower bound on every walk. -/
theorem IsWalk.label_le (label : V → Option K) {k : K}
    (arcs : ∀ a ∈ E, ∀ x, label a.src = some x → ∃ y, label a.tgt = some y ∧ y ≤ x + c a)
    (start : label u = some k) (walk : IsWalk E u p v) :
    ∃ y, label v = some y ∧ y ≤ k + cost c p := by
  induction p generalizing u k with
  | nil => exact ⟨k, isWalk_nil.mp walk ▸ start, by simp⟩
  | cons a p ih =>
    obtain ⟨mem, rfl, rest⟩ := walk
    obtain ⟨y, label_tgt, le⟩ := arcs a mem k start
    obtain ⟨z, label_end, le'⟩ := ih label_tgt rest
    refine ⟨z, label_end, le'.trans ?_⟩
    rw [cost_cons, ← add_assoc]
    exact add_le_add_left le _

/-! ## Two counts in one number -/

variable {heavy : Arc V W → Bool} {big : Nat}

/-- Each arc counts one, and a heavy arc `big` more. -/
def packed (heavy : Arc V W → Bool) (big : Nat) (a : Arc V W) : Nat :=
  1 + if heavy a then big else 0

variable {c : Arc V W → Nat} {bound : Nat}

theorem cost_packed (heavy : Arc V W → Bool) (big : Nat) (p : List (Arc V W)) :
    cost (packed heavy big) p = p.length + big * p.countP heavy := by
  induction p with
  | nil => rfl
  | cons a p ih =>
    rw [cost_cons, ih, packed, List.countP_cons, List.length_cons, Nat.mul_add]
    cases heavy a <;> simp <;> omega

theorem cost_le_length_mul (bounded : ∀ a ∈ p, c a ≤ bound) :
    cost c p ≤ p.length * bound := by
  have le := List.sum_le_card_nsmul (p.map c) bound (by simpa using bounded)
  simpa [cost] using le

section
variable (verts : List V) (start : u ∈ verts) (closed : ∀ a ∈ E, a.tgt ∈ verts)
include start closed

theorem IsWalk.exists_short (walk : IsWalk E u q v) :
    ∃ r, r.Sublist q ∧ IsWalk E u r v ∧ r.length < verts.length := by
  obtain ⟨r, sub, walk', nodup⟩ := walk.exists_simple
  refine ⟨r, sub, walk', ?_⟩
  have subset : vertices u r ⊆ verts := walk'.vertices_subset (S := {m | m ∈ verts}) start closed
  have card := (List.subperm_of_subset nodup subset).length_le
  rw [length_vertices] at card
  omega

/-- Arcs of bounded cost bound the distances, with room for one more arc. -/
theorem IsShortest.cost_add_le (bounded : ∀ a ∈ E, c a ≤ bound)
    (shortest : IsShortest E c u p v) : cost c p + bound ≤ verts.length * bound := by
  obtain ⟨r, -, walk, short⟩ := shortest.walk.exists_short verts start closed
  have price : cost c r ≤ r.length * bound :=
    cost_le_length_mul fun a ha => bounded a (walk.arcs a ha)
  calc cost c p + bound ≤ r.length * bound + bound :=
        Nat.add_le_add_right ((shortest.least r walk).trans price) bound
    _ = (r.length + 1) * bound := (Nat.succ_mul r.length bound).symm
    _ ≤ verts.length * bound := Nat.mul_le_mul_right bound short

/-- When no walk needs more than `big` arcs, the shortest walks for the packed
cost have the fewest heavy arcs and, among those, the fewest arcs. -/
theorem IsShortest.packed_lex (size : verts.length ≤ big + 1)
    (shortest : IsShortest E (packed heavy big) u p v) (walk : IsWalk E u q v) :
    p.countP heavy < q.countP heavy ∨
      (p.countP heavy = q.countP heavy ∧ p.length ≤ q.length) := by
  obtain ⟨r, sub, walk', short⟩ := walk.exists_short verts start closed
  have fewerHeavy := sub.countP_le (p := heavy)
  have fewerArcs := sub.length_le
  have le := shortest.least r walk'
  rw [cost_packed, cost_packed] at le
  by_cases more : r.countP heavy < p.countP heavy
  · -- one heavy arc more costs more than all the arcs of the short walk
    have gap : big * r.countP heavy + big ≤ big * p.countP heavy := by
      rw [← Nat.mul_succ]
      exact Nat.mul_le_mul_left _ more
    have empty : p = [] := List.length_eq_zero_iff.mp (by omega)
    subst empty
    exact absurd more (Nat.not_lt_zero _)
  · obtain fewer | equal := Nat.lt_or_eq_of_le ((Nat.not_lt.mp more).trans fewerHeavy)
    · exact .inl fewer
    · have same : r.countP heavy = p.countP heavy := by omega
      rw [same] at le
      exact .inr (by omega)

end

/-- A potential that light arcs raise by at most their cost bounds the light
walks from below. -/
theorem IsWalk.potential_le (heavy : Arc V W → Bool) (potential : V → Nat)
    (light : ∀ a ∈ E, heavy a = false → potential a.tgt ≤ potential a.src + c a)
    (walk : IsWalk E u p v) (none_heavy : p.countP heavy = 0) :
    potential v ≤ potential u + cost c p := by
  induction p generalizing u with
  | nil => exact isWalk_nil.mp walk ▸ Nat.le_refl _
  | cons a p ih =>
    obtain ⟨mem, rfl, rest⟩ := walk
    have first : heavy a = false := by
      have := List.countP_eq_zero.mp none_heavy a (by simp)
      simpa using this
    have step := light a mem first
    have tail := ih rest (by simpa [first] using none_heavy)
    rw [cost_cons]
    omega

theorem cost_one (p : List (Arc V W)) : cost (fun _ => 1) p = p.length := by simp [cost]

end PeerLink.Graph
