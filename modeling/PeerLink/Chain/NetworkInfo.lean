import PeerLink.Chain.Parsing

/-!
# The secret and the data of a network

The secret is one vector of bytes, and the data of a network is a tuple whose seven values are
encoded one by one. Secret, name and description have a length, which is read as one byte.
-/

namespace PeerLink.Chain

open Bcs

/-- The value at the start of the data; bytes behind it are ignored. -/
def parseStart {α : Type} (emptyError : String) (read : Reader String α) (data : Bytes) :
    Except String α :=
  if data.isEmpty then
    .error emptyError
  else do
    let (value, _) ← read data 0
    return value

/-! ## The secret -/

def readSecret : Reader String Bytes := do
  let vectorLen ← readLength "vector"
  checkLength "Vector" 10000 vectorLen
  readBytes "vector" vectorLen

def parseNetworkSecret (data : Bytes) : Except String Bytes :=
  parseStart "Empty data - no network secret found" readSecret data

/-! ## The data of a network -/

def hexDigit (n : Nat) : Char := "0123456789abcdef".toList.getD n '0'

def hexEncode (bytes : Bytes) : List Char :=
  bytes.flatMap fun b => [hexDigit (b.toNat / 16), hexDigit (b.toNat % 16)]

structure NetworkDetails where
  name : String
  secret : String
  admin : String
  createdAt : UInt64
  isActive : Bool
  description : Option String
  maxPeers : UInt64
  totalExitNodes : UInt64
  deriving DecidableEq

variable (utf8Error : Bytes → String)

/-- A value of the tuple. Whichever it is, the error for a value without bytes is that of the
name. -/
def parseValue {α : Type} (read : Reader String α) (data : Bytes) : Except String α :=
  parseStart (insufficientData "name length" "1 byte" 0 data.length) read data

/-- The description has no greatest length here. -/
def readDescription : Reader String String := do
  let descLen ← readLength "description"
  let bytes ← readBytes "description" descLen
  decodeUtf8 utf8Error "description" bytes

def checkName (expectedName name : String) : Except String Unit :=
  if name ≠ expectedName then
    .error s!"network name mismatch, expectd: {expectedName}, got: {name}"
  else
    .ok ()

def parseNetworkInfoTuple (retValues : List Bytes) (expectedName : String) :
    Except String (Option NetworkDetails) :=
  match retValues with
  | [] => .ok none
  | [name, admin, createdAt, isActive, description, maxPeers, totalExitNodes] => do
    let name ← parseValue (readString utf8Error nameField) name
    checkName expectedName name
    let admin ← parseValue (readBytes "admin address" 32) admin
    let createdAt ← parseValue (readU64 "created_at") createdAt
    let isActive ← parseValue (readBool "is_active") isActive
    let description ← parseValue (readDescription utf8Error) description
    let maxPeers ← parseValue (readU64 "max_peers") maxPeers
    let totalExitNodes ← parseValue (readU64 "total_exit_nodes") totalExitNodes
    return some
      { name
        secret := ""
        admin := String.ofList ('0' :: 'x' :: hexEncode admin)
        createdAt
        isActive
        description := some description
        maxPeers
        totalExitNodes }
  | values =>
    let count := values.length
    .error s!"network info has no enough fields, expected: 7, but {count} available"

/-! ## What the contract returns -/

/-- The tuple that `get_network_info` returns. -/
structure NetworkInfoTuple where
  name : String
  admin : Bytes
  createdAt : UInt64
  isActive : Bool
  description : String
  maxPeers : UInt64
  totalExitNodes : UInt64
  /-- An address has 32 bytes. -/
  address : admin.length = 32

namespace NetworkInfoTuple
variable (info : NetworkInfoTuple)

/-- Each value is encoded by itself. -/
def retValues : List Bytes :=
  [encode (stringTokens info.name), encode (bytesTokens info.admin),
    encode (u64Tokens info.createdAt), encode [.flag info.isActive],
    encode (stringTokens info.description), encode (u64Tokens info.maxPeers),
    encode (u64Tokens info.totalExitNodes)]

/-- The tuple as the operator shows it. -/
def details : NetworkDetails where
  name := info.name
  secret := ""
  admin := String.ofList ('0' :: 'x' :: hexEncode info.admin)
  createdAt := info.createdAt
  isActive := info.isActive
  description := some info.description
  maxPeers := info.maxPeers
  totalExitNodes := info.totalExitNodes

end NetworkInfoTuple

def secretTokens (secret : Bytes) : List Token := .len secret.length :: bytesTokens secret

variable (bytes : Bytes)

/-- The length of the bytes fits into a byte of ULEB128, or the bytes are all 1 and as many as a
byte can count. -/
def OneByteLength : Prop :=
  bytes.length < 128 ∨ bytes.length < 256 ∧ ∀ b ∈ bytes, b = 1

/-! ## Which values are read back -/

theorem encode_bytesTokens : encode (bytesTokens bytes) = bytes := by
  induction bytes with
  | nil => rfl
  | cons b bytes ih =>
    change [b] ++ encode (bytesTokens bytes) = b :: bytes
    rw [ih]
    rfl

theorem fitsItself_bytesTokens : FitsItself (bytesTokens bytes) :=
  .inl (by simp [Short, bytesTokens])

/-- For bytes behind their length. -/
theorem fitsItself_iff_oneByteLength :
    FitsItself (.len bytes.length :: bytesTokens bytes) ↔ OneByteLength bytes := by
  have fits := fitsItself_bytesTokens bytes
  rw [fitsItself_cons_len, encode_bytesTokens, OneByteLength]
  constructor
  · rintro (⟨short, -⟩ | ⟨-, bound, ones⟩)
    · exact .inl short
    · exact .inr ⟨bound, ones⟩
  · rintro (short | ⟨bound, ones⟩)
    · exact .inl ⟨short, fits⟩
    · by_cases short : bytes.length < 128
      · exact .inl ⟨short, fits⟩
      · exact .inr ⟨Nat.not_lt.mp short, bound, ones⟩

theorem readSecret_reads : Reads readSecret (fun _ => True) secretTokens := by
  unfold readSecret
  rw [readLength_checked _ (by decide)]
  exact vector_reads "vector"

theorem readDescription_reads : Reads (readDescription utf8Error) (fun _ => True) stringTokens :=
  text_reads utf8Error "description" "description"

section
variable {utf8Error} {α : Type} {read : Reader String α} {tokens : α → List Token}
variable {accepts : α → Prop}

theorem parseStart_ok (reads : Reads read accepts tokens) {emptyError : String} {data : Bytes}
    {value : α} (some : tokens value ≠ []) :
    parseStart emptyError read data = .ok value ↔ accepts value ∧ Fit (tokens value) data := by
  unfold parseStart
  split_ifs with empty
  · rw [List.isEmpty_iff] at empty
    constructor
    · intro failed
      cases failed
    · rintro ⟨-, fit⟩
      have enough := fit.length_le
      rw [empty] at enough
      exact absurd (List.length_eq_zero_iff.mp (Nat.le_zero.mp enough)) some
  · rw [bind_ok]
    constructor
    · rintro ⟨⟨value', next⟩, done, same⟩
      cases same
      obtain ⟨accepted, fit, -⟩ := reads.atStart.mp done
      exact ⟨accepted, fit⟩
    · rintro ⟨accepted, fit⟩
      exact ⟨(value, _), reads.atStart.mpr ⟨accepted, fit, rfl⟩, rfl⟩

theorem parseValue_encode (reads : Reads read accepts tokens) {value : α}
    (some : tokens value ≠ []) (accepted : accepts value) :
    parseValue read (encode (tokens value)) = .ok value ↔ FitsItself (tokens value) := by
  unfold parseValue
  rw [parseStart_ok reads some, fit_encode_iff]
  exact and_iff_right accepted

end

theorem parseNetworkSecret_ok {data secret : Bytes} :
    parseNetworkSecret data = .ok secret ↔ Fit (secretTokens secret) data := by
  unfold parseNetworkSecret
  rw [parseStart_ok readSecret_reads (List.cons_ne_nil _ _), true_and]

theorem parseNetworkSecret_encode (secret : Bytes) :
    parseNetworkSecret (encode (secretTokens secret)) = .ok secret ↔ OneByteLength secret := by
  rw [parseNetworkSecret_ok, fit_encode_iff]
  exact fitsItself_iff_oneByteLength secret

/-- The parser never reports a secret that it misreads. -/
theorem parseNetworkSecret_isOk (secret : Bytes) :
    ∃ parsed, parseNetworkSecret (encode (secretTokens secret)) = .ok parsed := by
  have head : ∃ b rest, encode (secretTokens secret) = b :: rest ∧ b.toNat ≤ rest.length := by
    unfold secretTokens
    rw [encode_cons, encode_bytesTokens, Token.encode]
    by_cases short : secret.length < 128
    · rw [uleb128_of_lt short, List.singleton_append]
      exact ⟨_, _, rfl, Nat.le_of_eq (toNat_ofNat (by omega))⟩
    · rw [uleb128_of_le (Nat.not_lt.mp short), List.cons_append]
      refine ⟨_, _, rfl, ?_⟩
      rw [toNat_ofNat (by omega), List.length_append]
      omega
  obtain ⟨b, rest, encoded, enough⟩ := head
  refine ⟨rest.take b.toNat, parseNetworkSecret_ok.mpr ?_⟩
  have counted : (rest.take b.toNat).length = b.toNat := by
    rw [List.length_take]
    omega
  rw [encoded]
  refine ⟨counted.symm, fit_bytes.mpr ?_⟩
  rw [counted]

/-- A secret is misread without an error exactly if it is not read back. -/
theorem secret_never_different_iff (secret : Bytes) :
    (∀ parsed, parseNetworkSecret (encode (secretTokens secret)) = .ok parsed → parsed = secret) ↔
      OneByteLength secret := by
  rw [← parseNetworkSecret_encode]
  constructor
  · intro never
    obtain ⟨parsed, done⟩ := parseNetworkSecret_isOk secret
    rw [done, never parsed done]
  · intro done parsed again
    rw [done] at again
    cases again
    rfl

/-! ## Which tuples are read back -/

theorem hexDigit_injective {m n : Nat} (hm : m < 16) (hn : n < 16)
    (same : hexDigit m = hexDigit n) : m = n := by
  have all : ∀ a b : Fin 16, hexDigit a = hexDigit b → a = b := by decide
  exact congrArg Fin.val (all ⟨m, hm⟩ ⟨n, hn⟩ same)

theorem hexEncode_injective : Function.Injective hexEncode := by
  intro a
  induction a with
  | nil =>
    intro b same
    cases b with
    | nil => rfl
    | cons c b => cases same
  | cons x a ih =>
    intro b same
    cases b with
    | nil => cases same
    | cons y b =>
      change hexDigit (x.toNat / 16) :: hexDigit (x.toNat % 16) :: hexEncode a =
        hexDigit (y.toNat / 16) :: hexDigit (y.toNat % 16) :: hexEncode b at same
      obtain ⟨high, low, rest⟩ : _ ∧ _ ∧ _ := by simpa using same
      have hx := x.toNat_lt
      have hy := y.toNat_lt
      have highs := hexDigit_injective (by omega) (by omega) high
      have lows := hexDigit_injective (by omega) (by omega) low
      rw [ih rest, UInt8.toNat_inj.mp (by omega : x.toNat = y.toNat)]

/-- What is shown of a tuple determines it. -/
theorem NetworkInfoTuple.details_injective : Function.Injective NetworkInfoTuple.details := by
  rintro ⟨name, admin, createdAt, isActive, description, maxPeers, totalExitNodes, _⟩
    ⟨name', admin', createdAt', isActive', description', maxPeers', totalExitNodes', _⟩ same
  simp only [details, NetworkDetails.mk.injEq, String.ofList_inj, List.cons.injEq, true_and,
    Option.some.injEq] at same
  obtain ⟨rfl, hex, rfl, rfl, rfl, rfl, rfl⟩ := same
  cases hexEncode_injective hex
  rfl

theorem checkName_ok {expectedName name : String} {done : Unit} :
    checkName expectedName name = .ok done ↔ name = expectedName := by
  unfold checkName
  split_ifs with differs
  · simp [differs]
  · simpa using differs

theorem parseValue_bytesTokens {α : Type} {read : Reader String α} {accepts : α → Prop}
    {bytes : α → Bytes} (reads : Reads read accepts fun value => bytesTokens (bytes value))
    {value : α} (some : bytes value ≠ []) (accepted : accepts value) :
    parseValue read (encode (bytesTokens (bytes value))) = .ok value := by
  apply (parseValue_encode reads ?_ accepted).mpr (fitsItself_bytesTokens (bytes value))
  rw [bytesTokens, Ne, List.map_eq_nil_iff]
  exact some

theorem parseValue_u64 (what : String) (n : UInt64) :
    parseValue (readU64 what) (encode (u64Tokens n)) = .ok n :=
  parseValue_bytesTokens (readU64_reads what) (List.cons_ne_nil _ _) trivial

theorem parseValue_string {read : Reader String String}
    (reads : Reads read (fun _ => True) stringTokens) (text : String) :
    parseValue read (encode (stringTokens text)) = .ok text ↔ OneByteLength (utf8 text) := by
  rw [parseValue_encode reads (List.cons_ne_nil _ _) trivial]
  exact fitsItself_iff_oneByteLength (utf8 text)

theorem parseNetworkInfoTuple_retValues (info : NetworkInfoTuple) :
    parseNetworkInfoTuple utf8Error info.retValues info.name = .ok (some info.details) ↔
      OneByteLength (utf8 info.name) ∧ OneByteLength (utf8 info.description) := by
  have named := parseValue_string (readString_reads utf8Error (by decide : 255 ≤ nameField.maxLen))
    info.name
  have described := parseValue_string (readDescription_reads utf8Error) info.description
  have some : info.admin ≠ [] := by
    apply List.ne_nil_of_length_pos
    rw [info.address]
    decide
  have admin : parseValue (readBytes "admin address" 32) (encode (bytesTokens info.admin)) =
      .ok info.admin := parseValue_bytesTokens (readBytes_reads _ _) some info.address
  have active : parseValue (readBool "is_active") (encode [.flag info.isActive]) =
      .ok info.isActive :=
    (parseValue_encode (readBool_reads _) (List.cons_ne_nil _ _) trivial).mpr
      (.inl (by simp [Short]))
  rw [← named, ← described]
  simp only [parseNetworkInfoTuple, NetworkInfoTuple.retValues, bind_ok, checkName_ok, admin,
    active, parseValue_u64, Except.ok.injEq, exists_eq_left']
  constructor
  · rintro ⟨name, parsedName, _, rfl, description, parsedDescription, done⟩
    cases done
    exact ⟨parsedName, parsedDescription⟩
  · rintro ⟨parsedName, parsedDescription⟩
    exact ⟨info.name, parsedName, (), rfl, info.description, parsedDescription, rfl⟩

/-- **Secret and data of a network are decoded exactly** if and only if the secret, and the name and
the description, have a length below 128 or are nothing but bytes of the value 1, fewer than 256.
Any other secret is read as a different one, without an error. What is shown of a network determines
all that the contract has returned. -/
theorem network_decoded_iff :
    (∀ secret, parseNetworkSecret (encode (secretTokens secret)) = .ok secret ↔
      OneByteLength secret) ∧
    (∀ secret, (∀ parsed, parseNetworkSecret (encode (secretTokens secret)) = .ok parsed →
      parsed = secret) ↔ OneByteLength secret) ∧
    (∀ info : NetworkInfoTuple,
      parseNetworkInfoTuple utf8Error info.retValues info.name = .ok (some info.details) ↔
        OneByteLength (utf8 info.name) ∧ OneByteLength (utf8 info.description)) ∧
    Function.Injective NetworkInfoTuple.details :=
  ⟨parseNetworkSecret_encode, secret_never_different_iff,
    parseNetworkInfoTuple_retValues utf8Error, NetworkInfoTuple.details_injective⟩

/-! ## A long secret -/

/-- A network whose description has 128 bytes. -/
def describedInfo : NetworkInfoTuple where
  name := "net"
  admin := List.replicate 32 0xab
  createdAt := 5
  isActive := true
  description := longText
  maxPeers := 100
  totalExitNodes := 2
  address := rfl

/-- Of a secret of 130 bytes the parser gives the second byte of the length and the first 129 bytes,
and of one of 256 bytes only the first 127; neither is an error. A description of 128 bytes comes
out as another one. -/
theorem long_secret_misread :
    parseNetworkSecret (encode (secretTokens (List.replicate 130 7))) =
        .ok (1 :: List.replicate 129 7) ∧
      parseNetworkSecret (encode (secretTokens (List.replicate 256 7))) =
        .ok (2 :: List.replicate 127 7) ∧
      parseNetworkInfoTuple (fun _ => "") describedInfo.retValues "net" =
        .ok (some { describedInfo.details with
          description := some (String.ofList ('\x01' :: List.replicate 127 'a')) }) := by
  decide +kernel

end PeerLink.Chain
