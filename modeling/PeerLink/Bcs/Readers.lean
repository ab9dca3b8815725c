import Mathlib.Algebra.Group.Nat.Defs
import PeerLink.Bcs.Tokens
import PeerLink.Outcome.Bind

/-!
# Readers at an offset

A reader takes a value from data at an offset and returns the offset behind it. `Reads` ties a
reader that takes every length as one byte to the tokens of its values, and has a rule for each way
in which readers are put together.
-/

namespace PeerLink.Bcs

/-! ## Tokens of values -/

def utf8 (s : String) : Bytes := s.toUTF8.data.toList

theorem fromUTF8?_eq_some {bytes : Bytes} {s : String} :
    String.fromUTF8? ⟨bytes.toArray⟩ = some s ↔ bytes = utf8 s := by
  unfold String.fromUTF8? utf8
  constructor
  · intro valid
    split at valid
    · cases valid
      rfl
    · cases valid
  · rintro rfl
    exact dif_pos s.isValidUTF8

/-- `k` bytes, the lowest first. -/
def leBytes : Nat → Nat → Bytes
  | 0, _ => []
  | k + 1, n => UInt8.ofNat n :: leBytes k (n / 256)

variable (bytes : Bytes)

def fromLeBytes : Nat := bytes.foldr (fun b n => b.toNat + 256 * n) 0

@[simp] theorem length_leBytes (k n : Nat) : (leBytes k n).length = k := by
  induction k generalizing n with
  | zero => rfl
  | succ k ih => rw [leBytes, List.length_cons, ih]

theorem leBytes_fromLeBytes : leBytes bytes.length (fromLeBytes bytes) = bytes := by
  induction bytes with
  | nil => rfl
  | cons b bytes ih =>
    have low : UInt8.ofNat (b.toNat + 256 * fromLeBytes bytes) = b := by
      apply UInt8.toNat_inj.mp
      have bound := b.toNat_lt
      rw [UInt8.toNat_ofNat']
      omega
    have high : (b.toNat + 256 * fromLeBytes bytes) / 256 = fromLeBytes bytes := by
      have bound := b.toNat_lt
      omega
    change UInt8.ofNat (b.toNat + 256 * fromLeBytes bytes) ::
      leBytes bytes.length ((b.toNat + 256 * fromLeBytes bytes) / 256) = b :: bytes
    rw [low, high, ih]

theorem fromLeBytes_leBytes (k n : Nat) : fromLeBytes (leBytes k n) = n % 256 ^ k := by
  induction k generalizing n with
  | zero => exact (Nat.mod_one n).symm
  | succ k ih =>
    change (UInt8.ofNat n).toNat + 256 * fromLeBytes (leBytes k (n / 256)) = _
    rw [ih, Nat.pow_succ', Nat.mod_mul, UInt8.toNat_ofNat']

/-- Numbers and bytes of one width correspond. -/
theorem fromLeBytes_mod_eq_iff {bytes : Bytes} {k n : Nat} (counted : bytes.length = k)
    (bound : n < 256 ^ k) : fromLeBytes bytes % 256 ^ k = n ↔ bytes = leBytes k n := by
  subst counted
  constructor
  · rintro rfl
    rw [← fromLeBytes_leBytes, leBytes_fromLeBytes, leBytes_fromLeBytes]
  · intro same
    rw [same, fromLeBytes_leBytes, length_leBytes, Nat.mod_mod, Nat.mod_eq_of_lt bound]

def bytesTokens : List Token := bytes.map .byte

def stringTokens (s : String) : List Token := .len (utf8 s).length :: bytesTokens (utf8 s)

def u32Tokens (n : UInt32) : List Token := bytesTokens (leBytes 4 n.toNat)

def u64Tokens (n : UInt64) : List Token := bytesTokens (leBytes 8 n.toNat)

def vectorTokens {α : Type} (tokens : α → List Token) (values : List α) : List Token :=
  .len values.length :: values.flatMap tokens

@[simp] theorem length_bytesTokens : (bytesTokens bytes).length = bytes.length :=
  List.length_map _

/-! ## Readers -/

/-- A computation on the data with the offset for its state. -/
abbrev Reader (ε : Type) := ReaderT Bytes (StateT Nat (Except ε))

variable {ε α β : Type}

/-- Inside the data the reader gives an accepted value exactly if its tokens stand at the offset,
and goes behind them. -/
def Reads (read : Reader ε α) (accepts : α → Prop) (tokens : α → List Token) : Prop :=
  ∀ (data : Bytes) (offset : Nat) (value : α) (next : Nat), offset ≤ data.length →
    (read data offset = .ok (value, next) ↔
      accepts value ∧ Fit (tokens value) (data.drop offset) ∧
        next = offset + (tokens value).length)

variable {tokens : α → List Token} {data : Bytes} {offset : Nat} {read : Reader ε α}
  {accepts : α → Prop} {value : α}

theorem Fit.next_le {tokens : List Token}
    (fit : Fit tokens (data.drop offset)) (inside : offset ≤ data.length) :
    offset + tokens.length ≤ data.length := by
  have enough := fit.length_le
  rw [List.length_drop] at enough
  omega

theorem Reads.atStart (reads : Reads read accepts tokens) {next : Nat} :
    read data 0 = .ok (value, next) ↔
      accepts value ∧ Fit (tokens value) data ∧ next = (tokens value).length := by
  rw [reads data 0 value next (Nat.zero_le _), List.drop_zero, Nat.zero_add]

theorem Reads.pure (only : ∀ x, accepts x ↔ x = value) :
    Reads (Pure.pure value : Reader ε α) accepts (fun _ => []) := by
  intro data offset value' next _
  rw [only]
  constructor
  · intro done
    cases done
    exact ⟨rfl, fit_nil _, rfl⟩
  · rintro ⟨rfl, -, rfl⟩
    rfl

/-- One part of a value after another. -/
theorem Reads.bind {rest : α → Reader ε β} {acceptsPart : α → Prop}
    {accepts : β → Prop} {partTokens : α → List Token} {restTokens : β → List Token}
    (first : Reads read acceptsPart partTokens) (part : β → α)
    (covers : ∀ b, accepts b → acceptsPart (part b))
    (second : ∀ a, acceptsPart a → Reads (rest a) (fun b => accepts b ∧ part b = a) restTokens) :
    Reads (read >>= rest) accepts (fun b => partTokens (part b) ++ restTokens b) := by
  intro data offset value next inside
  change (read data offset >>= fun (a, mid) => rest a data mid) = _ ↔ _
  rw [bind_ok, fit_append, List.length_append, List.drop_drop]
  constructor
  · rintro ⟨⟨a, mid⟩, readPart, readRest⟩
    obtain ⟨accepted, fitPart, rfl⟩ := (first data offset a mid inside).mp readPart
    obtain ⟨⟨acceptsValue, rfl⟩, fitRest, rfl⟩ :=
      (second a accepted data _ value next (fitPart.next_le inside)).mp readRest
    exact ⟨acceptsValue, ⟨fitPart, fitRest⟩, Nat.add_assoc _ _ _⟩
  · rintro ⟨acceptsValue, ⟨fitPart, fitRest⟩, rfl⟩
    have accepted := covers value acceptsValue
    refine ⟨(part value, offset + (partTokens (part value)).length),
      (first data offset _ _ inside).mpr ⟨accepted, fitPart, rfl⟩, ?_⟩
    exact (second _ accepted data _ value _ (fitPart.next_le inside)).mpr
      ⟨⟨acceptsValue, rfl⟩, fitRest, (Nat.add_assoc _ _ _).symm⟩

/-- Another view of what has been read, with as many tokens. -/
theorem Reads.map {f : α → β} {accepts' : β → Prop} {tokens' : β → List Token}
    (reads : Reads read accepts tokens)
    (counted : ∀ a, (tokens' (f a)).length = (tokens a).length)
    (alike : ∀ b data, (∃ a, f a = b ∧ accepts a ∧ Fit (tokens a) data) ↔
      accepts' b ∧ Fit (tokens' b) data) :
    Reads (do return f (← read)) accepts' tokens' := by
  intro data offset value next inside
  change (read data offset >>= fun (a, mid) => .ok (f a, mid)) = _ ↔ _
  rw [bind_ok, ← and_assoc, ← alike]
  constructor
  · rintro ⟨⟨a, mid⟩, done, same⟩
    obtain ⟨accepted, fit, rfl⟩ := (reads data offset a mid inside).mp done
    cases same
    exact ⟨⟨a, rfl, accepted, fit⟩, by rw [counted]⟩
  · rintro ⟨⟨a, rfl, accepted, fit⟩, rfl⟩
    exact ⟨(a, _), (reads data offset a _ inside).mpr ⟨accepted, fit, rfl⟩, by rw [counted]⟩

theorem Reads.congr {tokens' : α → List Token} (reads : Reads read accepts tokens)
    (same : ∀ value, accepts value → tokens value = tokens' value) :
      Reads read accepts tokens' := by
  intro data offset value next inside
  rw [reads data offset value next inside]
  apply and_congr_right
  intro accepted
  rw [same value accepted]

/-- The same reader again and again. -/
def readMany (read : Reader ε α) : Nat → Reader ε (List α)
  | 0 => return []
  | count + 1 => do
    let value ← read
    let values ← readMany read count
    return value :: values

theorem Reads.many [Inhabited α] (reads : Reads read (fun _ => True) tokens) (count : Nat) :
    Reads (readMany read count) (fun values => values.length = count)
      (fun values => values.flatMap tokens) := by
  induction count with
  | zero =>
    have none : Reads (Pure.pure [] : Reader ε (List α)) (fun values => values.length = 0)
        (fun _ => []) := Reads.pure fun _ => List.length_eq_zero_iff
    apply none.congr
    intro values empty
    rw [List.length_eq_zero_iff.mp empty]
    rfl
  | succ count ih =>
    have longer : Reads (readMany read (count + 1)) (fun values => values.length = count + 1)
        (fun values => tokens (values.headD default) ++ (values.tail.flatMap tokens ++ [])) := by
      refine reads.bind (List.headD · default) (by simp) fun value _ => ?_
      refine ih.bind List.tail (by simp +contextual) fun rest counted => ?_
      apply Reads.pure
      intro values
      cases values with
      | nil => simp
      | cons first later => simp +contextual [counted]
    apply longer.congr
    intro values counted
    obtain ⟨value, rest, rfl⟩ := List.exists_cons_of_length_eq_add_one counted
    simp

/-- A reader that takes a part of the data of a given length. -/
theorem take_drop_eq_iff {bytes : Bytes} {count : Nat} (enough : offset + count ≤ data.length) :
    (data.drop offset).take count = bytes ↔
      bytes.length = count ∧ Fit (bytesTokens bytes) (data.drop offset) := by
  unfold bytesTokens
  rw [fit_bytes]
  constructor
  · rintro rfl
    have counted : ((data.drop offset).take count).length = count := by
      rw [List.length_take, List.length_drop]
      omega
    exact ⟨counted, by rw [counted]⟩
  · rintro ⟨rfl, taken⟩
    exact taken

end PeerLink.Bcs
