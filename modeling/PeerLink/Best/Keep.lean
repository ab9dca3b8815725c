import Mathlib.Data.List.AList
import Mathlib.Data.Set.Basic

/-!
# Maps that keep the best value

A map in which a value replaces another one under the same key only if its rank is
smaller. Whatever the order of the values and however often each comes, what is
kept is the best of them (`keepAll_isBest`), and where the rank tells candidates
apart it is determined (`IsBest.unique`).
-/

namespace PeerLink.Best

variable {K V R : Type} [DecidableEq K] [LinearOrder R] {m : AList fun _ : K => V} {k j : K}
  {v w : V}

/-- What is found after an insertion was there before it or has been inserted. -/
theorem lookup_insert_origin (found : (m.insert k v).lookup j = some w) :
    m.lookup j = some w ∨ j = k ∧ w = v := by
  by_cases same : j = k
  · subst same
    rw [AList.lookup_insert] at found
    exact .inr ⟨rfl, (Option.some.inj found).symm⟩
  · rw [AList.lookup_insert_ne same] at found
    exact .inl found

theorem lookup_erase_iff :
    (m.erase k).lookup j = some v ↔ m.lookup j = some v ∧ j ≠ k := by
  by_cases same : j = k
  · subst same
    simp
  · simp [AList.lookup_erase_ne same, same]

theorem foldl_erase_perm {front back : List (Σ _ : K, V)}
    (perm : m.entries.Perm (front ++ back)) :
    (front.foldl (fun m item => m.erase item.1) m).entries.Perm back := by
  induction front generalizing m with
  | nil => exact perm
  | cons item front ih =>
    apply ih
    have erased := perm.kerase (a := item.1) m.nodupKeys
    rwa [List.cons_append, List.kerase_cons_eq rfl] at erased

theorem lookup_erase_origin (found : (m.erase k).lookup j = some v) : m.lookup j = some v :=
  (lookup_erase_iff.mp found).1

theorem mem_iff_lookup : k ∈ m ↔ ∃ v, m.lookup k = some v := by
  rw [← AList.lookup_isSome, Option.isSome_iff_exists]

theorem lookup_foldl_erase_iff {ι : Type*} {key : ι → K} {items : List ι} :
    (items.foldl (fun m item => m.erase (key item)) m).lookup j = some v ↔
      m.lookup j = some v ∧ j ∉ items.map key := by
  induction items generalizing m with
  | nil => simp
  | cons item items ih =>
    rw [List.foldl_cons, ih, lookup_erase_iff, List.map_cons, List.mem_cons, not_or, and_assoc]

variable (rank : V → R)

def keep (m : AList fun _ : K => V) (k : K) (v : V) : AList fun _ : K => V :=
  match m.lookup k with
  | some old => if rank v < rank old then m.insert k v else m
  | none => m.insert k v

def keepAll (m : AList fun _ : K => V) (items : List (K × V)) : AList fun _ : K => V :=
  items.foldl (fun m item => keep rank m item.1 item.2) m

/-- `result` is the best of the old value and the candidates. A candidate that is
only as good as the old value does not replace it. -/
structure IsBest (old : Option V) (candidates : Set V) (result : Option V) : Prop where
  from_ : ∀ v, result = some v → old = some v ∨ v ∈ candidates
  old_le : ∀ w, old = some w → ∃ v, result = some v ∧ (v = w ∨ rank v < rank w)
  le : ∀ w ∈ candidates, ∃ v, result = some v ∧ rank v ≤ rank w

section
variable {rank}

theorem lookup_keep_ne (other : j ≠ k) : (keep rank m k v).lookup j = m.lookup j := by
  unfold keep
  split
  · split
    · exact AList.lookup_insert_ne other
    · rfl
  · exact AList.lookup_insert_ne other

/-- A value that is no better than any other only fills a gap. -/
theorem keep_worst (worst : ∀ old, rank old ≤ rank v) :
    keep rank m k v = if (m.lookup k).isNone then m.insert k v else m := by
  unfold keep
  cases m.lookup k with
  | none => simp
  | some old => simp [(worst old).not_gt]

/-- A value that is better than what is there, if anything is, takes its place. -/
theorem keep_better (better : ∀ old, m.lookup k = some old → rank v < rank old) :
    keep rank m k v = m.insert k v := by
  unfold keep
  split
  · exact if_pos (better _ ‹_›)
  · rfl

theorem keep_worse {old : V} (found : m.lookup k = some old) (worse : rank old ≤ rank v) :
    keep rank m k v = m := by
  simp only [keep, found, if_neg (not_lt.mpr worse)]

/-- One value: it is kept, or what was there is at least as good. -/
theorem lookup_keep : ∃ u, (keep rank m k v).lookup k = some u ∧ rank u ≤ rank v ∧
    (u = v ∨ m.lookup k = some u) ∧
    ∀ w, m.lookup k = some w → u = w ∨ rank u < rank w := by
  unfold keep
  cases found : m.lookup k with
  | none => exact ⟨v, AList.lookup_insert _, le_rfl, .inl rfl, by simp⟩
  | some old =>
    by_cases better : rank v < rank old
    · refine ⟨v, by simp [better], le_rfl, .inl rfl, ?_⟩
      rintro w ⟨⟩
      exact .inr better
    · refine ⟨old, by simp [better, found], not_lt.mp better, .inr rfl, ?_⟩
      rintro w ⟨⟩
      exact .inl rfl

theorem isBest_refl (old : Option V) : IsBest rank old ∅ old where
  from_ _ same := .inl same
  old_le w same := ⟨w, same, .inl rfl⟩
  le _ none := none.elim

end

section
variable {rank} {old mid result result' : Option V} {candidates others : Set V}

/-- What is best after some candidates and then after others is best of both. -/
theorem IsBest.trans (first : IsBest rank old candidates mid)
    (second : IsBest rank mid others result) : IsBest rank old (candidates ∪ others) result where
  from_ v here := by
    cases second.from_ v here with
    | inl before => exact (first.from_ v before).imp_right .inl
    | inr new => exact .inr (.inr new)
  old_le w here := by
    obtain ⟨u, before, le⟩ := first.old_le w here
    obtain ⟨v, after, le'⟩ := second.old_le u before
    refine ⟨v, after, ?_⟩
    obtain rfl | lt := le
    · exact le'
    · obtain rfl | lt' := le'
      · exact .inr lt
      · exact .inr (lt'.trans lt)
  le w new := by
    obtain new | new := new
    · obtain ⟨u, before, le⟩ := first.le w new
      obtain ⟨v, after, le'⟩ := second.old_le u before
      refine ⟨v, after, ?_⟩
      obtain rfl | lt := le'
      · exact le
      · exact lt.le.trans le
    · exact second.le w new

/-- Where the rank tells the candidates apart, the best one is determined. -/
theorem IsBest.unique
    (apart : ∀ v ∈ candidates, ∀ w ∈ candidates, rank v = rank w → v = w)
    (best : IsBest rank old candidates result) (best' : IsBest rank old candidates result') :
    result = result' := by
  have wins : ∀ {r r' : Option V}, IsBest rank old candidates r →
      IsBest rank old candidates r' → ∀ v, r = some v → r' = some v := by
    intro r r' best best' v here
    cases best.from_ v here with
    | inl kept =>
      obtain ⟨v', here', le⟩ := best'.old_le v kept
      obtain rfl | lt := le
      · exact here'
      · -- a better candidate would have been taken by the first one too
        cases best'.from_ v' here' with
        | inl same => exact absurd (Option.some.inj (same.symm.trans kept) ▸ lt) (lt_irrefl _)
        | inr new =>
          obtain ⟨u, hu, le⟩ := best.le v' new
          rw [Option.some.inj (here.symm.trans hu)] at lt
          exact absurd lt (not_lt.mpr le)
    | inr new =>
      obtain ⟨v', here', le⟩ := best'.le v new
      cases best'.from_ v' here' with
      | inl kept =>
        obtain ⟨u, hu, same⟩ := best.old_le v' kept
        rw [← Option.some.inj (here.symm.trans hu)] at same
        obtain rfl | lt := same
        · exact here'
        · exact absurd lt (not_lt.mpr le)
      | inr new' =>
        obtain ⟨u, hu, le'⟩ := best.le v' new'
        rw [← Option.some.inj (here.symm.trans hu)] at le'
        rw [here', apart v' new' v new (le_antisymm le le')]
  cases result with
  | some v => exact (wins best best' v rfl).symm
  | none =>
    cases result' with
    | none => rfl
    | some v => exact absurd (wins best' best v rfl) (by simp)

end

variable {rank}

/-- The candidates for one key. -/
def candidatesFor (items : List (K × V)) (k : K) : Set V := {v | (k, v) ∈ items}

theorem keep_isBest (m : AList fun _ : K => V) (item : K × V) (k : K) :
    IsBest rank (m.lookup k) (candidatesFor [item] k)
      ((keep rank m item.1 item.2).lookup k) := by
  by_cases here : k = item.1
  · subst here
    obtain ⟨u, kept, le, origin, better⟩ :=
      @lookup_keep K V R _ _ m item.1 item.2 rank
    rw [kept]
    constructor
    · rintro v ⟨⟩
      exact origin.symm.imp_right fun same => by simp [candidatesFor, same]
    · intro w old
      exact ⟨u, rfl, better w old⟩
    · intro w new
      have same : w = item.2 := by
        have pair := List.mem_singleton.mp new
        exact congrArg Prod.snd pair
      exact ⟨u, rfl, same ▸ le⟩
  · rw [lookup_keep_ne here]
    have none : candidatesFor [item] k = ∅ := by
      ext v
      simp only [candidatesFor, List.mem_singleton, Set.mem_ofPred_eq, Set.mem_empty_iff_false,
        iff_false]
      intro pair
      exact here (congrArg Prod.fst pair)
    rw [none]
    exact isBest_refl _

/-- **Whatever the order**, the best value under each key is kept. -/
theorem keepAll_isBest (m : AList fun _ : K => V) (items : List (K × V)) (k : K) :
    IsBest rank (m.lookup k) (candidatesFor items k) ((keepAll rank m items).lookup k) := by
  induction items generalizing m with
  | nil =>
    have none : candidatesFor ([] : List (K × V)) k = ∅ := by simp [candidatesFor]
    rw [none]
    exact isBest_refl _
  | cons item rest ih =>
    have split : candidatesFor (item :: rest) k =
        candidatesFor [item] k ∪ candidatesFor rest k := by
      ext v
      simp [candidatesFor]
    rw [split]
    exact (keep_isBest m item k).trans (ih (keep rank m item.1 item.2))

theorem keepAll_append (m : AList fun _ : K => V) (items items' : List (K × V)) :
    keepAll rank m (items ++ items') = keepAll rank (keepAll rank m items) items' :=
  List.foldl_append

end PeerLink.Best
