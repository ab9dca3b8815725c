import PeerLink.Bcs.Readers

/-!
# Lists from the contract

The chain operator takes exit nodes and network summaries from the bytes that a call of the contract
returns. The bytes are in binary canonical serialization, but every length is read as one byte. The
errors are the texts of the code; the text of an encoding error of a string is a parameter.
-/

namespace PeerLink.Chain

open Bcs

/-! ## Reading fields -/

variable (what : String)

def insufficientData (need : String) (offset available : Nat) : String :=
  s!"Insufficient data for {what}: need {need} at offset {offset}, " ++
    s!"but only {available} bytes available"

/-- The byte at the offset; `what` names it in the error. -/
def readByte : Reader String UInt8 := fun data offset =>
  match data[offset]? with
  | none => .error (insufficientData what "1 byte" offset data.length)
  | some b => .ok (b, offset + 1)

def readBytes (count : Nat) : Reader String Bytes := fun data offset =>
  if data.length < offset + count then
    .error (insufficientData what s!"{count} bytes" offset data.length)
  else
    .ok ((data.drop offset).take count, offset + count)

def readLength : Reader String Nat := do
  let b ← readByte s!"{what} length"
  return b.toNat

def readBool : Reader String Bool := do
  let b ← readByte what
  return b != 0

def readU32 : Reader String UInt32 := do
  let bytes ← readBytes what 4
  return UInt32.ofNat (fromLeBytes bytes)

def readU64 : Reader String UInt64 := do
  let bytes ← readBytes what 8
  return UInt64.ofNat (fromLeBytes bytes)

/-- `title` is the field's name at the start of a text. -/
def checkLength (title : String) (maxLen len : Nat) : Reader String Unit := fun _ offset =>
  if maxLen < len then
    .error s!"{title} length {len} seems unreasonably large"
  else
    .ok ((), offset)

/-- A string field with its names in the texts and the greatest length that is accepted. -/
structure StringField where
  shown : String
  title : String
  parsed : String
  maxLen : Nat

variable (utf8Error : Bytes → String)

def decodeUtf8 (what : String) (bytes : Bytes) : Reader String String := fun _ offset =>
  match String.fromUTF8? ⟨bytes.toArray⟩ with
  | none =>
    let error := utf8Error bytes
    .error s!"Failed to parse {what} as UTF-8: {error}"
  | some s => .ok (s, offset)

def readString (field : StringField) : Reader String String := do
  let len ← readLength field.shown
  checkLength field.title field.maxLen len
  let bytes ← readBytes field.shown len
  decodeUtf8 utf8Error field.parsed bytes

def nameField : StringField := ⟨"name", "Name", "name", 1000⟩

def adminField : StringField := ⟨"admin", "Admin", "admin", 1000⟩

def descriptionField : StringField := ⟨"description", "Description", "description", 10000⟩

def uriField : StringField := ⟨"URI string", "URI", "URI", 1000⟩

def hostnameField : StringField := ⟨"hostname", "Hostname", "hostname", 1000⟩

/-- A round of a loop over records: the parsed record with its size, and the rounds behind it. -/
def parseRound {α : Type} (single : Except String (α × Nat)) (failed : String → String)
    (later : Nat → Except String (List α)) : Except String (List α) :=
  match single with
  | .error e => .error (failed e)
  | .ok (value, consumed) => do
    let rest ← later consumed
    return value :: rest

/-! ## Exit nodes -/

structure ExitNodeInfo where
  peerId : UInt32
  connectorUriList : List String
  hostname : String
  isActive : Bool
  registeredAt : UInt64
  deriving DecidableEq

def readExitNode : Reader String ExitNodeInfo := do
  let peerId ← readU32 "peer_id"
  let uriListLen ← readLength "connector_uri_list"
  checkLength "Connector URI list" 1000 uriListLen
  let connectorUriList ← readMany (readString utf8Error uriField) uriListLen
  let hostname ← readString utf8Error hostnameField
  let isActive ← readBool "is_active"
  let registeredAt ← readU64 "registered_at"
  return ⟨peerId, connectorUriList, hostname, isActive, registeredAt⟩

variable (data : Bytes)

/-- The exit node at the start of the data, and the number of bytes it takes. -/
def parseSingleExitNode : Except String (ExitNodeInfo × Nat) :=
  readExitNode utf8Error data 0

/-- The loop from exit node `i` on, with the number of exit nodes that are left. -/
def parseExitNodesFrom (data : Bytes) : (left i offset : Nat) → Except String (List ExitNodeInfo)
  | 0, _, _ => .ok []
  | left + 1, i, offset =>
    let available := data.length
    if available ≤ offset then
      .error s!"Insufficient data for exit node {i}: offset {offset} >= data length {available}"
    else
      parseRound (parseSingleExitNode utf8Error (data.drop offset))
        (fun e => s!"Failed to parse exit node {i}: {e}")
        fun consumed => parseExitNodesFrom data left (i + 1) (offset + consumed)

def parseExitNodesData : Except String (List ExitNodeInfo) :=
  match data with
  | [] => .ok []
  | vectorLen :: _ => parseExitNodesFrom utf8Error data vectorLen.toNat 0 1

/-! ## Network summaries -/

structure NetworkSummary where
  name : String
  admin : String
  createdAt : UInt64
  description : String
  maxPeers : UInt64
  deriving DecidableEq

def readNetwork : Reader String NetworkSummary := do
  let name ← readString utf8Error nameField
  let admin ← readString utf8Error adminField
  let createdAt ← readU64 "created_at"
  let description ← readString utf8Error descriptionField
  let maxPeers ← readU64 "max_peers"
  return ⟨name, admin, createdAt, description, maxPeers⟩

def parseSingleNetwork : Except String (NetworkSummary × Nat) :=
  readNetwork utf8Error data 0

/-- The loop from network `i` on. At the end of the data it stops without an error. -/
def parseNetworksFrom (data : Bytes) : (left i offset : Nat) → Except String (List NetworkSummary)
  | 0, _, _ => .ok []
  | left + 1, i, offset =>
    if data.length ≤ offset then
      .ok []
    else
      parseRound (parseSingleNetwork utf8Error (data.drop offset))
        (fun e => s!"Failed to parse network {i} at offset {offset}: {e}")
        fun consumed => parseNetworksFrom data left (i + 1) (offset + consumed)

def parseNetworkData : Except String (List NetworkSummary) :=
  match data with
  | [] => .ok []
  | vectorLen :: _ => parseNetworksFrom utf8Error data vectorLen.toNat 0 1

/-! ## The tokens of the records -/

def exitNodeTokens (node : ExitNodeInfo) : List Token :=
  u32Tokens node.peerId ++ vectorTokens stringTokens node.connectorUriList ++
    stringTokens node.hostname ++ [.flag node.isActive] ++ u64Tokens node.registeredAt

def networkTokens (network : NetworkSummary) : List Token :=
  stringTokens network.name ++ stringTokens network.admin ++ u64Tokens network.createdAt ++
    stringTokens network.description ++ u64Tokens network.maxPeers

/-! ## What the readers take -/

variable (what : String)

theorem readByte_reads : Reads (readByte what) (fun _ => True) (fun b => [.byte b]) := by
  intro data offset b next _
  unfold readByte
  rw [fit_singleton]
  cases found : data[offset]? with
  | none =>
    have ended : data.drop offset = [] :=
      List.drop_eq_nil_of_le (List.getElem?_eq_none_iff.mp found)
    simp [ended]
  | some c =>
    have here : data.drop offset = c :: data.drop (offset + 1) :=
      List.drop_eq_getElem?_toList_append.trans (by rw [found]; rfl)
    rw [here]
    constructor
    · intro done
      cases done
      exact ⟨trivial, ⟨_, _, rfl, rfl⟩, rfl⟩
    · rintro ⟨-, ⟨b', rest, same, rfl⟩, rfl⟩
      cases same
      rfl

theorem readBytes_reads (count : Nat) :
    Reads (readBytes what count) (fun bytes => bytes.length = count) bytesTokens := by
  intro data offset bytes next inside
  unfold readBytes
  split_ifs with short
  · constructor
    · intro failed
      cases failed
    · rintro ⟨rfl, fit, -⟩
      have enough := fit.next_le inside
      rw [length_bytesTokens] at enough
      omega
  · have taken := @take_drop_eq_iff data offset bytes count (Nat.not_lt.mp short)
    rw [length_bytesTokens, ← and_assoc, ← taken]
    constructor
    · intro done
      cases done
      refine ⟨rfl, ?_⟩
      rw [(taken.mp rfl).1]
    · rintro ⟨same, rfl⟩
      rw [(taken.mp same).1, same]

/-- A byte that is taken as something else. -/
theorem Reads.ofByte {α : Type} {f : UInt8 → α} {token : α → Token}
    (fits : ∀ value b, (token value).Fits b ↔ f b = value) :
    Reads (do return f (← readByte what)) (fun _ => True) (fun value => [token value]) := by
  apply (readByte_reads what).map
  · intro b
    rfl
  · intro value data
    simp only [fit_singleton, fits, Token.fits_byte, true_and]
    constructor
    · rintro ⟨b, rfl, b', rest, rfl, rfl⟩
      exact ⟨b', rest, rfl, rfl⟩
    · rintro ⟨b, rest, rfl, rfl⟩
      exact ⟨b, rfl, b, rest, rfl, rfl⟩

theorem readLength_reads : Reads (readLength what) (fun _ => True) (fun n => [.len n]) :=
  Reads.ofByte _ fun _ _ => Iff.rfl

theorem readBool_reads : Reads (readBool what) (fun _ => True) (fun on => [.flag on]) :=
  Reads.ofByte _ fun _ _ => Iff.rfl

/-- Bytes that are taken as a number of their width. -/
theorem Reads.ofLeBytes {α : Type} {ofNat : Nat → α} {toNat : α → Nat} (k : Nat)
    (bound : ∀ value, toNat value < 256 ^ k)
    (wraps : ∀ n value, ofNat n = value ↔ n % 256 ^ k = toNat value) :
    Reads (do return ofNat (fromLeBytes (← readBytes what k))) (fun _ => True)
      (fun value => bytesTokens (leBytes k (toNat value))) := by
  have reads : Reads (do return ofNat (fromLeBytes (← readBytes what k)))
      (fun value => True) (fun value => bytesTokens (leBytes k (toNat value)) ++ []) := by
    refine (readBytes_reads what k).bind (fun value => leBytes k (toNat value))
      (fun _ _ => length_leBytes _ _) fun bytes counted => ?_
    apply Reads.pure
    intro value
    rw [true_and, @eq_comm _ value, wraps, fromLeBytes_mod_eq_iff counted (bound value), eq_comm]
  simpa using reads

theorem readU32_reads : Reads (readU32 what) (fun _ => True) u32Tokens :=
  Reads.ofLeBytes what 4 (fun n => n.toNat_lt) fun n value => by
    rw [← UInt32.toNat_inj, UInt32.toNat_ofNat']
    exact Iff.rfl

theorem readU64_reads : Reads (readU64 what) (fun _ => True) u64Tokens :=
  Reads.ofLeBytes what 8 (fun n => n.toNat_lt) fun n value => by
    rw [← UInt64.toNat_inj, UInt64.toNat_ofNat']
    exact Iff.rfl

/-- A length of one byte is never too large. -/
theorem readLength_checked {β : Type} {title : String} {maxLen : Nat} (large : 255 ≤ maxLen)
    (rest : Nat → Reader String β) :
    (do let len ← readLength what; checkLength title maxLen len; rest len) =
      readLength what >>= rest := by
  unfold readLength
  rw [bind_assoc, bind_assoc]
  congr 1
  funext b
  have bound := b.toNat_lt
  have passes : checkLength title maxLen b.toNat = pure () := by
    funext data offset
    exact if_neg (by omega)
  rw [pure_bind, pure_bind, passes, pure_bind]

/-- Bytes behind their length. -/
theorem vector_reads : Reads (readLength what >>= readBytes what) (fun _ => True)
    (fun bytes => .len bytes.length :: bytesTokens bytes) := by
  refine (readLength_reads what).bind List.length (by simp) fun len _ => ?_
  simp only [true_and]
  exact readBytes_reads what len

theorem decodeUtf8_reads (bytes : Bytes) :
    Reads (decodeUtf8 utf8Error what bytes) (fun s => utf8 s = bytes) (fun _ => []) := by
  intro data offset s next _
  dsimp only
  rw [@eq_comm _ (utf8 s), ← fromUTF8?_eq_some]
  unfold decodeUtf8
  cases String.fromUTF8? ⟨bytes.toArray⟩ with
  | none => simp
  | some t =>
    constructor
    · intro done
      cases done
      exact ⟨rfl, fit_nil _, rfl⟩
    · rintro ⟨same, -, rfl⟩
      cases same
      rfl

theorem text_reads (parsed : String) :
    Reads (do let len ← readLength what
              let bytes ← readBytes what len
              decodeUtf8 utf8Error parsed bytes) (fun _ => True) stringTokens := by
  rw [← bind_assoc]
  refine ((vector_reads what).bind utf8 (by simp) fun bytes _ => ?_).congr
    fun s _ => List.append_nil _
  simpa using decodeUtf8_reads utf8Error parsed bytes

theorem readString_reads {field : StringField} (large : 255 ≤ field.maxLen) :
    Reads (readString utf8Error field) (fun _ => True) stringTokens := by
  unfold readString
  rw [readLength_checked _ large]
  exact text_reads utf8Error _ _

theorem readExitNode_reads : Reads (readExitNode utf8Error) (fun _ => True) exitNodeTokens := by
  have reads : Reads (readExitNode utf8Error) (fun _ => True)
      (fun node => u32Tokens node.peerId ++ ([.len node.connectorUriList.length] ++
        (node.connectorUriList.flatMap stringTokens ++ (stringTokens node.hostname ++
          ([.flag node.isActive] ++ (u64Tokens node.registeredAt ++ [])))))) := by
    refine (readU32_reads _).bind ExitNodeInfo.peerId (by simp) fun peerId _ => ?_
    rw [readLength_checked _ (by decide)]
    refine (readLength_reads _).bind (fun node : ExitNodeInfo => node.connectorUriList.length)
      (by simp) fun len _ => ?_
    refine ((readString_reads utf8Error (by decide)).many _).bind ExitNodeInfo.connectorUriList
      (by simp) fun uris counted => ?_
    refine (readString_reads utf8Error (by decide)).bind ExitNodeInfo.hostname (by simp)
      fun hostname _ => ?_
    refine (readBool_reads _).bind ExitNodeInfo.isActive (by simp) fun isActive _ => ?_
    refine (readU64_reads _).bind ExitNodeInfo.registeredAt (by simp) fun registeredAt _ => ?_
    apply Reads.pure
    intro node
    constructor
    · rintro ⟨⟨⟨⟨⟨⟨-, rfl⟩, -⟩, rfl⟩, rfl⟩, rfl⟩, rfl⟩
      rfl
    · rintro rfl
      exact ⟨⟨⟨⟨⟨⟨trivial, rfl⟩, counted⟩, rfl⟩, rfl⟩, rfl⟩, rfl⟩
  apply reads.congr
  intro node _
  simp [exitNodeTokens, vectorTokens]

theorem readNetwork_reads : Reads (readNetwork utf8Error) (fun _ => True) networkTokens := by
  have reads : Reads (readNetwork utf8Error) (fun _ => True)
      (fun network => stringTokens network.name ++ (stringTokens network.admin ++
        (u64Tokens network.createdAt ++ (stringTokens network.description ++
          (u64Tokens network.maxPeers ++ []))))) := by
    refine (readString_reads utf8Error (by decide)).bind NetworkSummary.name (by simp)
      fun name _ => ?_
    refine (readString_reads utf8Error (by decide)).bind NetworkSummary.admin (by simp)
      fun admin _ => ?_
    refine (readU64_reads _).bind NetworkSummary.createdAt (by simp) fun createdAt _ => ?_
    refine (readString_reads utf8Error (by decide)).bind NetworkSummary.description (by simp)
      fun description _ => ?_
    refine (readU64_reads _).bind NetworkSummary.maxPeers (by simp) fun maxPeers _ => ?_
    apply Reads.pure
    intro network
    constructor
    · rintro ⟨⟨⟨⟨⟨-, rfl⟩, rfl⟩, rfl⟩, rfl⟩, rfl⟩
      rfl
    · rintro rfl
      exact ⟨⟨⟨⟨⟨trivial, rfl⟩, rfl⟩, rfl⟩, rfl⟩, rfl⟩
  apply reads.congr
  intro network _
  simp [networkTokens]

/-! ## What the loops take -/

section
variable {utf8Error : Bytes → String} {data : Bytes} {offset : Nat}

variable {α : Type} {consumed left i : Nat}

theorem parseRound_ok {single : Except String (α × Nat)} {failed : String → String}
    {later : Nat → Except String (List α)} {tokens : α → List Token} {values : List α}
    (takes : ∀ value n, single = .ok (value, n) ↔
      Fit (tokens value) data ∧ n = (tokens value).length) :
    parseRound single failed later = .ok values ↔
      ∃ value rest, values = value :: rest ∧ Fit (tokens value) data ∧
        later (tokens value).length = .ok rest := by
  unfold parseRound
  cases parsed : single with
  | error e =>
    constructor
    · intro failed
      cases failed
    · rintro ⟨value, rest, -, fit, -⟩
      have found := (takes value _).mpr ⟨fit, rfl⟩
      rw [parsed] at found
      cases found
  | ok found =>
    obtain ⟨value, consumed⟩ := found
    obtain ⟨fit, rfl⟩ := (takes value consumed).mp parsed
    rw [bind_ok]
    constructor
    · rintro ⟨rest, done, same⟩
      cases same
      exact ⟨value, rest, rfl, fit, done⟩
    · rintro ⟨value', rest, rfl, fit', done⟩
      have again := (takes value' _).mpr ⟨fit', rfl⟩
      rw [parsed] at again
      cases again
      exact ⟨rest, done, rfl⟩

theorem parseSingleExitNode_ok {node : ExitNodeInfo} :
    parseSingleExitNode utf8Error data = .ok (node, consumed) ↔
      Fit (exitNodeTokens node) data ∧ consumed = (exitNodeTokens node).length := by
  unfold parseSingleExitNode
  rw [(readExitNode_reads utf8Error).atStart, true_and]

theorem parseSingleNetwork_ok {network : NetworkSummary} :
    parseSingleNetwork utf8Error data = .ok (network, consumed) ↔
      Fit (networkTokens network) data ∧ consumed = (networkTokens network).length := by
  unfold parseSingleNetwork
  rw [(readNetwork_reads utf8Error).atStart, true_and]

theorem parseExitNodesFrom_ok {nodes : List ExitNodeInfo} (inside : offset ≤ data.length) :
    parseExitNodesFrom utf8Error data left i offset = .ok nodes ↔
      nodes.length = left ∧ Fit (nodes.flatMap exitNodeTokens) (data.drop offset) := by
  induction left generalizing i offset nodes with
  | zero =>
    constructor
    · intro done
      cases done
      exact ⟨rfl, fit_nil _⟩
    · rintro ⟨empty, -⟩
      rw [List.length_eq_zero_iff.mp empty]
      rfl
  | succ left ih =>
    unfold parseExitNodesFrom
    dsimp only
    split_ifs with ended
    · have none : data.drop offset = [] := List.drop_eq_nil_of_le ended
      constructor
      · intro failed
        cases failed
      · rintro ⟨counted, fit⟩
        obtain ⟨node, rest, rfl⟩ := List.exists_cons_of_length_eq_add_one counted
        have some := fit.length_le
        simp [none, exitNodeTokens, u32Tokens] at some
    · rw [parseRound_ok fun _ _ => parseSingleExitNode_ok]
      constructor
      · rintro ⟨node, rest, rfl, fit, done⟩
        obtain ⟨rfl, fitRest⟩ := (ih (fit.next_le inside)).mp done
        rw [List.flatMap_cons, fit_append, List.drop_drop]
        exact ⟨rfl, fit, fitRest⟩
      · rintro ⟨counted, fit⟩
        obtain ⟨node, rest, rfl⟩ := List.exists_cons_of_length_eq_add_one counted
        rw [List.flatMap_cons, fit_append, List.drop_drop] at fit
        exact ⟨node, rest, rfl, fit.1,
          (ih (fit.1.next_le inside)).mpr ⟨Nat.succ.inj counted, fit.2⟩⟩

/-- With fewer networks than announced the data ends behind the last of them. -/
theorem parseNetworksFrom_ok {networks : List NetworkSummary} (inside : offset ≤ data.length) :
    parseNetworksFrom utf8Error data left i offset = .ok networks ↔
      Fit (networks.flatMap networkTokens) (data.drop offset) ∧
        (networks.length = left ∨ networks.length < left ∧
          offset + (networks.flatMap networkTokens).length = data.length) := by
  induction left generalizing i offset networks with
  | zero =>
    constructor
    · intro done
      cases done
      exact ⟨fit_nil _, .inl rfl⟩
    · rintro ⟨-, empty | ⟨fewer, -⟩⟩
      · rw [List.length_eq_zero_iff.mp empty]
        rfl
      · omega
  | succ left ih =>
    unfold parseNetworksFrom
    split
    · rename_i ended
      have none : data.drop offset = [] := List.drop_eq_nil_of_le ended
      constructor
      · intro done
        cases done
        exact ⟨fit_nil _, .inr ⟨Nat.succ_pos left, Nat.le_antisymm inside ended⟩⟩
      · rintro ⟨fit, -⟩
        cases networks with
        | nil => rfl
        | cons network rest =>
          have some := fit.length_le
          simp [none, networkTokens, u64Tokens] at some
    · rw [parseRound_ok fun _ _ => parseSingleNetwork_ok]
      constructor
      · rintro ⟨network, rest, rfl, fit, done⟩
        obtain ⟨fitRest, counted⟩ := (ih (fit.next_le inside)).mp done
        rw [List.flatMap_cons, fit_append, List.drop_drop, List.length_append, List.length_cons]
        exact ⟨⟨fit, fitRest⟩, by omega⟩
      · rintro ⟨fit, counted⟩
        cases networks with
        | nil =>
          rename_i more
          simp only [List.length_nil, List.flatMap_nil] at counted
          omega
        | cons network rest =>
          rw [List.flatMap_cons, List.length_append, List.length_cons] at counted
          rw [List.flatMap_cons, fit_append, List.drop_drop] at fit
          exact ⟨network, rest, rfl, fit.1,
            (ih (fit.1.next_le inside)).mpr ⟨fit.2, by omega⟩⟩

/-- The first byte of an encoded vector is what the parsers take for its length. -/
theorem encode_vector (tokens : α → List Token) (values : List α) :
    ∃ b rest, encode (vectorTokens tokens values) = b :: rest ∧
      (b.toNat = values.length ∨ (values.flatMap tokens).length < rest.length) := by
  unfold vectorTokens
  rw [encode_cons, Token.encode]
  by_cases short : values.length < 128
  · rw [uleb128_of_lt short]
    exact ⟨_, _, rfl, .inl (toNat_ofNat (by omega))⟩
  · rw [uleb128_of_le (Nat.not_lt.mp short), List.cons_append]
    refine ⟨_, _, rfl, .inr ?_⟩
    have some := List.length_pos_of_ne_nil (uleb128_ne_nil (values.length / 128))
    have enough := length_le_length_encode (values.flatMap tokens)
    rw [List.length_append]
    omega

theorem parseExitNodesData_encode (nodes : List ExitNodeInfo) :
    parseExitNodesData utf8Error (encode (vectorTokens exitNodeTokens nodes)) = .ok nodes ↔
      FitsItself (vectorTokens exitNodeTokens nodes) := by
  obtain ⟨b, rest, encoded, -⟩ := encode_vector exitNodeTokens nodes
  rw [← fit_encode_iff, encoded]
  change parseExitNodesFrom utf8Error (b :: rest) b.toNat 0 1 = .ok nodes ↔ _
  rw [parseExitNodesFrom_ok (by simp), @eq_comm _ nodes.length]
  rfl

theorem parseNetworkData_encode (networks : List NetworkSummary) :
    parseNetworkData utf8Error (encode (vectorTokens networkTokens networks)) = .ok networks ↔
      FitsItself (vectorTokens networkTokens networks) := by
  obtain ⟨b, rest, encoded, counted⟩ := encode_vector networkTokens networks
  rw [← fit_encode_iff, encoded]
  change parseNetworksFrom utf8Error (b :: rest) b.toNat 0 1 = .ok networks ↔
    b.toNat = networks.length ∧ Fit (networks.flatMap networkTokens) rest
  rw [parseNetworksFrom_ok (by simp), and_comm]
  apply and_congr_left
  intro _
  rw [List.length_cons]
  omega

end

/-- **Lists from the chain are decoded exactly** if and only if all lengths in them are below 128 or
what follows the first longer one is encoded in bytes of the value 1 only. -/
theorem chain_lists_decoded_iff (utf8Error : Bytes → String) :
    (∀ nodes : List ExitNodeInfo,
      parseExitNodesData utf8Error (encode (vectorTokens exitNodeTokens nodes)) = .ok nodes ↔
        FitsItself (vectorTokens exitNodeTokens nodes)) ∧
    ∀ networks : List NetworkSummary,
      parseNetworkData utf8Error (encode (vectorTokens networkTokens networks)) = .ok networks ↔
        FitsItself (vectorTokens networkTokens networks) :=
  ⟨parseExitNodesData_encode, parseNetworkData_encode⟩

/-! ## Long strings -/

def longText : String := String.ofList (List.replicate 128 'a')

def distantNode : ExitNodeInfo := ⟨7, ["tcp://10.0.0.1:11010"], longText, false, 5⟩

def describedNetwork : NetworkSummary := ⟨"net", "0x1", 5, longText, 100⟩

/-- With a hostname or a description of 128 bytes the second byte of its length becomes the first of
the text. The exit node comes out with another hostname, as an active one and with another time. -/
theorem long_text_misread :
    parseExitNodesData (fun _ => "") (encode (vectorTokens exitNodeTokens [distantNode])) =
        .ok [⟨7, ["tcp://10.0.0.1:11010"], String.ofList ('\x01' :: List.replicate 127 'a'), true,
          5 * 256⟩] ∧
      parseNetworkData (fun _ => "") (encode (vectorTokens networkTokens [describedNetwork])) =
        .ok [⟨"net", "0x1", 5, String.ofList ('\x01' :: List.replicate 127 'a'),
          100 * 256 + 97⟩] := by
  decide +kernel

end PeerLink.Chain
