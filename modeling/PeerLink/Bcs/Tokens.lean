import Mathlib.Data.List.Basic

/-!
# Binary canonical serialization

The encoding of a value is a sequence of lengths, bytes and flags. A length takes as many bytes as
ULEB128 needs. `Fit` says that data starts with the tokens of a value if every length is taken to be
one byte. Of an encoding that is true exactly if all lengths are below 128, or if all that follows
the first longer one is bytes of the value 1 (`fit_encode_iff`): the second byte of such a length is
then read as the first byte of what follows.
-/

namespace PeerLink.Bcs

abbrev Bytes := List UInt8

inductive Token where
  /-- The length of a vector or a string. -/
  | len (n : Nat)
  | byte (b : UInt8)
  | flag (on : Bool)

/-! ## The encoding -/

/-- ULEB128 of a number below `128 ^ (fuel + 1)`. -/
def uleb128With : Nat → Nat → Bytes
  | 0, n => [UInt8.ofNat n]
  | fuel + 1, n =>
    if n < 128 then [UInt8.ofNat n] else UInt8.ofNat (n % 128 + 128) :: uleb128With fuel (n / 128)

def uleb128 (n : Nat) : Bytes := uleb128With n n

def Token.encode : Token → Bytes
  | len n => uleb128 n
  | byte b => [b]
  | flag on => [if on then 1 else 0]

def encode (tokens : List Token) : Bytes := tokens.flatMap Token.encode

variable {n : Nat} {b : UInt8} {token : Token} {tokens : List Token} {data : Bytes}

theorem uleb128With_of_lt (fuel : Nat) (short : n < 128) :
    uleb128With fuel n = [UInt8.ofNat n] := by
  cases fuel with
  | zero => rfl
  | succ fuel => rw [uleb128With, if_pos short]

theorem uleb128With_eq {fuel : Nat} (enough : n ≤ fuel) : uleb128With fuel n = uleb128 n := by
  unfold uleb128
  induction n using Nat.strongRecOn generalizing fuel with
  | ind n ih =>
    by_cases short : n < 128
    · rw [uleb128With_of_lt fuel short, uleb128With_of_lt n short]
    · obtain ⟨fuel, rfl⟩ : ∃ m, fuel = m + 1 := ⟨fuel - 1, by omega⟩
      obtain ⟨m, rfl⟩ : ∃ m, n = m + 1 := ⟨n - 1, by omega⟩
      rw [uleb128With, if_neg short, uleb128With, if_neg short,
        ih ((m + 1) / 128) (by omega) (by omega : (m + 1) / 128 ≤ fuel),
        ih ((m + 1) / 128) (by omega) (by omega : (m + 1) / 128 ≤ m)]

theorem uleb128_of_lt (short : n < 128) : uleb128 n = [UInt8.ofNat n] :=
  uleb128With_of_lt n short

theorem uleb128_of_le (long : 128 ≤ n) :
    uleb128 n = UInt8.ofNat (n % 128 + 128) :: uleb128 (n / 128) := by
  obtain ⟨m, rfl⟩ : ∃ m, n = m + 1 := ⟨n - 1, by omega⟩
  rw [uleb128, uleb128With, if_neg (by omega), uleb128With_eq (by omega)]

theorem uleb128_ne_nil (n : Nat) : uleb128 n ≠ [] := by
  by_cases short : n < 128
  · simp [uleb128_of_lt short]
  · simp [uleb128_of_le (Nat.not_lt.mp short)]

theorem toNat_ofNat (small : n < 256) : (UInt8.ofNat n).toNat = n := by
  rw [UInt8.toNat_ofNat']
  exact Nat.mod_eq_of_lt small

theorem uleb128_ones : (∀ b ∈ uleb128 n, b = 1) ↔ n = 1 := by
  constructor
  · intro ones
    by_cases short : n < 128
    · have one := ones (UInt8.ofNat n) (by simp [uleb128_of_lt short])
      have value := congrArg UInt8.toNat one
      rw [toNat_ofNat (by omega)] at value
      exact value
    · have long := Nat.not_lt.mp short
      have one := ones (UInt8.ofNat (n % 128 + 128)) (by simp [uleb128_of_le long])
      have value := congrArg UInt8.toNat one
      rw [toNat_ofNat (by omega)] at value
      change n % 128 + 128 = 1 at value
      omega
  · rintro rfl
    rw [uleb128_of_lt (by decide)]
    exact fun b mem => List.mem_singleton.mp mem

@[simp] theorem encode_nil : encode [] = [] := rfl

@[simp] theorem encode_cons (token : Token) (tokens : List Token) :
    encode (token :: tokens) = token.encode ++ encode tokens := List.flatMap_cons

theorem Token.encode_ne_nil (token : Token) : token.encode ≠ [] := by
  cases token with
  | len n => exact uleb128_ne_nil n
  | byte b | flag on => simp [encode]

theorem length_le_length_encode (tokens : List Token) : tokens.length ≤ (encode tokens).length := by
  induction tokens with
  | nil => exact Nat.le_refl 0
  | cons token tokens ih =>
    have some := List.length_pos_of_ne_nil token.encode_ne_nil
    rw [encode_cons, List.length_append, List.length_cons]
    omega

/-! ## Data that starts with tokens of one byte each -/

/-- The token as one byte. Every byte but zero is a set flag. -/
def Token.Fits : Token → UInt8 → Prop
  | len n, b => b.toNat = n
  | byte c, b => b = c
  | flag on, b => (b != 0) = on

@[simp] theorem Token.fits_byte {c : UInt8} : (byte c).Fits b ↔ b = c := Iff.rfl

def Fit : List Token → Bytes → Prop
  | [], _ => True
  | _ :: _, [] => False
  | token :: tokens, b :: data => token.Fits b ∧ Fit tokens data

@[simp] theorem fit_nil (data : Bytes) : Fit [] data := trivial

@[simp] theorem fit_cons_cons :
    Fit (token :: tokens) (b :: data) ↔ token.Fits b ∧ Fit tokens data := Iff.rfl

theorem fit_cons :
    Fit (token :: tokens) data ↔ ∃ b rest, data = b :: rest ∧ token.Fits b ∧ Fit tokens rest := by
  cases data with
  | nil | cons b data => simp [Fit]

theorem fit_singleton :
    Fit [token] data ↔ ∃ b rest, data = b :: rest ∧ token.Fits b := by
  simp [fit_cons]

theorem Fit.length_le (fit : Fit tokens data) :
    tokens.length ≤ data.length := by
  induction tokens generalizing data with
  | nil => exact Nat.zero_le _
  | cons token tokens ih =>
    obtain ⟨b, rest, rfl, -, fit⟩ := fit_cons.mp fit
    exact Nat.succ_le_succ (ih fit)

theorem fit_append {rest : List Token} :
    Fit (tokens ++ rest) data ↔ Fit tokens data ∧ Fit rest (data.drop tokens.length) := by
  induction tokens generalizing data with
  | nil => simp
  | cons token tokens ih =>
    cases data with
    | nil => simp [Fit]
    | cons b data => simp [ih, and_assoc]

theorem fit_bytes {bytes : Bytes} :
    Fit (bytes.map .byte) data ↔ data.take bytes.length = bytes := by
  induction bytes generalizing data with
  | nil => simp
  | cons c bytes ih =>
    cases data with
    | nil => simp [Fit]
    | cons b data => simp [ih, Token.Fits]

/-! ## Encodings that fit -/

/-- Every length is one byte in the encoding. -/
def Short (tokens : List Token) : Prop := ∀ n, .len n ∈ tokens → n < 128

/-- All lengths are short, or the first that is not has eight bits and only ones follow it. -/
def FitsItself (tokens : List Token) : Prop :=
  Short tokens ∨ ∃ before n after, tokens = before ++ .len n :: after ∧ Short before ∧
    128 ≤ n ∧ n < 256 ∧ ∀ b ∈ encode after, b = 1

theorem fitsItself_nil : FitsItself [] := .inl (by simp [Short])

theorem short_cons : Short (token :: tokens) ↔ Short [token] ∧ Short tokens := by
  simp [Short, or_imp, forall_and]

theorem fitsItself_cons :
    FitsItself (token :: tokens) ↔ Short [token] ∧ FitsItself tokens ∨
      ∃ n, token = .len n ∧ 128 ≤ n ∧ n < 256 ∧ ∀ b ∈ encode tokens, b = 1 := by
  unfold FitsItself
  rw [short_cons]
  constructor
  · rintro (⟨here, rest⟩ | ⟨before, n, after, split, shortBefore, long⟩)
    · exact .inl ⟨here, .inl rest⟩
    · cases before with
      | nil =>
        cases split
        exact .inr ⟨n, rfl, long⟩
      | cons first before =>
        cases split
        obtain ⟨here, shortBefore⟩ := short_cons.mp shortBefore
        exact .inl ⟨here, .inr ⟨before, n, after, rfl, shortBefore, long⟩⟩
  · rintro (⟨here, rest | ⟨before, n, after, rfl, shortBefore, long⟩⟩ | ⟨n, rfl, long⟩)
    · exact .inl ⟨here, rest⟩
    · exact .inr ⟨token :: before, n, after, rfl, short_cons.mpr ⟨here, shortBefore⟩, long⟩
    · exact .inr ⟨[], n, tokens, rfl, by simp [Short], long⟩

theorem fitsItself_cons_other
    (other : ∀ n, token ≠ .len n) : FitsItself (token :: tokens) ↔ FitsItself tokens := by
  simp [fitsItself_cons, Short, other, fun n => (other n).symm]

theorem fitsItself_cons_len :
    FitsItself (.len n :: tokens) ↔
      n < 128 ∧ FitsItself tokens ∨ 128 ≤ n ∧ n < 256 ∧ ∀ b ∈ encode tokens, b = 1 := by
  simp [fitsItself_cons, Short]

/-- Behind the second byte of a long length only ones fit, each in the place of the next. -/
theorem fit_one_cons :
    Fit tokens (1 :: encode tokens) ↔ ∀ b ∈ encode tokens, b = 1 := by
  induction tokens with
  | nil => simp
  | cons token tokens ih =>
    rw [fit_cons_cons, encode_cons, List.forall_mem_append, ← ih]
    cases token with
    | len n =>
      rw [Token.encode, uleb128_ones]
      constructor
      · rintro ⟨rfl, fit⟩
        exact ⟨rfl, fit⟩
      · rintro ⟨rfl, fit⟩
        exact ⟨rfl, fit⟩
    | byte c =>
      simp only [Token.encode, List.forall_mem_singleton]
      constructor
      · rintro ⟨rfl, fit⟩
        exact ⟨rfl, fit⟩
      · rintro ⟨rfl, fit⟩
        exact ⟨rfl, fit⟩
    | flag on =>
      cases on with
      | false | true => simp [Token.Fits, Token.encode]

/-- Which encodings start with their own tokens in one byte each. -/
theorem fit_encode_iff : Fit tokens (encode tokens) ↔ FitsItself tokens := by
  induction tokens with
  | nil => simp [fitsItself_nil]
  | cons token tokens ih =>
    cases token with
    | len n =>
      rw [fitsItself_cons_len, encode_cons, Token.encode]
      by_cases short : n < 128
      · have value := toNat_ofNat (by omega : n < 256)
        have notLong : ¬128 ≤ n := by omega
        simp [uleb128_of_lt short, Token.Fits, value, ih, short, notLong]
      · have long := Nat.not_lt.mp short
        rw [uleb128_of_le long, List.cons_append, fit_cons_cons]
        change (UInt8.ofNat (n % 128 + 128)).toNat = n ∧ _ ↔ _
        rw [toNat_ofNat (by omega)]
        by_cases bound : n < 256
        · have one : n / 128 = 1 := by omega
          have same : n % 128 + 128 = n := by omega
          rw [one, show uleb128 1 = [1] from rfl, List.singleton_append, fit_one_cons]
          simp [same, short, long, bound]
        · have differs : n % 128 + 128 ≠ n := by omega
          simp [differs, short, bound]
    | byte c =>
      rw [fitsItself_cons_other (by simp), ← ih]
      simp [Token.encode, Token.Fits]
    | flag on =>
      rw [fitsItself_cons_other (by simp), ← ih]
      cases on with
      | false | true => simp [Token.encode, Token.Fits]

end PeerLink.Bcs
