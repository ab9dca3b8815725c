import PeerLink.Outcome.Bind

/-!
# Keyed tables with aborting access

A table maps each key to at most one value. Adding a key that is present, and
borrowing or removing one that is absent, aborts the whole transaction.
-/

namespace PeerLink

/-- Why a transaction stops: an assertion with its code, or a native abort. -/
inductive Abort where
  | code (n : Nat)
  | missingKey
  | duplicateKey
  | indexOutOfBounds

/-- The native aborts, which no assertion of the contract announces. -/
def Abort.native : Abort → Bool
  | .code _ => false
  | _ => true

/-- `assert!` -/
def assert (condition : Bool) (code : Nat) : Except Abort Unit :=
  if condition then .ok () else .error (.code code)

@[simp] theorem assert_ok {condition : Bool} {code : Nat} {u : Unit} :
    assert condition code = .ok u ↔ condition = true := by
  cases condition <;> simp [assert]

abbrev Table (K V : Type) := K → Option V

namespace Table

variable {K V : Type} [DecidableEq K]

def empty : Table K V := fun _ => none

variable (t : Table K V) (k : K)

def contains : Bool := (t k).isSome

def borrow : Except Abort V :=
  match t k with
  | some v => .ok v
  | none => .error .missingKey

/-- Overwrites the value behind a mutable borrow of a present key. -/
def set (v : V) : Table K V := Function.update t k (some v)

def add (v : V) : Except Abort (Table K V) :=
  if t.contains k then .error .duplicateKey else .ok (t.set k v)

def remove : Except Abort (Table K V) :=
  if t.contains k then .ok (Function.update t k none) else .error .missingKey

variable {t t' : Table K V} {k : K} {v : V}

omit [DecidableEq K] in
@[simp] theorem empty_apply (k : K) : (empty : Table K V) k = none := rfl

omit [DecidableEq K] in
@[simp] theorem contains_iff :
    t.contains k = true ↔ ∃ v, t k = some v := by
  simp [contains, Option.isSome_iff_exists]

omit [DecidableEq K] in
@[simp] theorem borrow_ok :
    t.borrow k = .ok v ↔ t k = some v := by
  unfold borrow
  cases t k <;> simp

@[simp] theorem set_same (t : Table K V) (k : K) (v : V) : t.set k v k = some v := by
  simp [set]

theorem set_other {j : K} (v : V) (h : j ≠ k) : t.set k v j = t j := by
  simp [set, h]

theorem eq_some_of_set {j : K} {found : V} (h : t.set k v j = some found) :
    j = k ∧ found = v ∨ t j = some found := by
  by_cases hj : j = k
  · subst hj
    rw [set_same] at h
    exact .inl ⟨rfl, (Option.some.inj h).symm⟩
  · exact .inr ((set_other v hj).symm.trans h)

/-- Writing back the value that is there changes nothing. -/
theorem set_self (h : t k = some v) : t.set k v = t := by
  funext j
  by_cases hj : j = k
  · subst hj; simp [h]
  · exact set_other v hj

@[simp] theorem add_ok :
    t.add k v = .ok t' ↔ t k = none ∧ t.set k v = t' := by
  unfold add contains
  cases t k <;> simp

@[simp] theorem remove_ok :
    t.remove k = .ok t' ↔ (∃ v, t k = some v) ∧ Function.update t k none = t' := by
  unfold remove contains
  cases t k <;> simp

/-- The vector has the keys of the table, each once. -/
structure Lists (t : Table K V) (keys : List K) : Prop where
  nodup : keys.Nodup
  listed : ∀ k, k ∈ keys ↔ ∃ v, t k = some v

section
variable {keys : List K} (lists : t.Lists keys)
include lists

theorem Lists.push (absent : t k = none) (v : V) : (t.set k v).Lists (keys ++ [k]) := by
  have fresh : k ∉ keys := by simp [lists.listed k, absent]
  constructor
  · exact (List.perm_append_singleton _ _).nodup_iff.mpr (List.nodup_cons.mpr ⟨fresh, lists.nodup⟩)
  · intro j
    by_cases hj : j = k
    · simp [hj]
    · simp [set_other _ hj, hj, lists.listed j]

theorem Lists.overwrite {old : V} (known : t k = some old) (v : V) : (t.set k v).Lists keys := by
  refine ⟨lists.nodup, fun j => ?_⟩
  rw [lists.listed j]
  by_cases hj : j = k
  · subst hj
    simp [known]
  · simp [set_other _ hj]

end

end Table

end PeerLink
