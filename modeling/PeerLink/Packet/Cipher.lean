import PeerLink.Outcome.Bind
import PeerLink.Packet.Header

/-!
# Ciphers and compression

The encryptors of the peer manager and its compressor. The cipher libraries are
parameters with the behaviour their documentation promises; a random nonce is an
argument.
-/

namespace PeerLink.Packet

abbrev Bytes := List UInt8

/-- An AEAD key as the cipher library offers it: sealing gives the cipher text and
the tag. -/
structure Aead where
  sealInPlace : Bytes → Bytes → Option (Bytes × Bytes)
  openInPlace : Bytes → Bytes → Bytes → Option Bytes
  seal_length : ∀ nonce plain text tag, sealInPlace nonce plain = some (text, tag) →
    text.length = plain.length
  open_length : ∀ nonce text tag plain, openInPlace nonce text tag = some plain →
    plain.length = text.length
  open_seal : ∀ nonce plain text tag, sealInPlace nonce plain = some (text, tag) →
    openInPlace nonce text tag = some plain

structure XorKey where
  bytes : Bytes
  nonempty : bytes ≠ []

def XorKey.xorData (key : XorKey) (data : Bytes) : Bytes :=
  data.zipIdx.map fun item => item.1 ^^^ key.bytes.getD (item.2 % key.bytes.length) 0

def Nonce := { bytes : Bytes // bytes.length = 12 }

inductive CipherError where
  | packetTooShort (len : Nat)
  | decryptionFailed
  | encryptionFailed
  | invalidTag (tag : Bytes)
  /-- An index out of range: the task panics. -/
  | panicked

/-- `aead` stands for the ciphers that append the tag and the nonce, `openssl` for
those with a nonce field of 16 bytes. -/
inductive Encryptor where
  | null
  | aead (key : Aead)
  | openssl (key : Aead)
  | xor (key : XorKey)

namespace Encryptor

def IsNull : Encryptor → Prop
  | null => True
  | _ => False

def key? : Encryptor → Option Aead
  | aead key | openssl key => some key
  | null | xor _ => none

/-- `AES_GCM_ENCRYPTION_RESERVED`, a tag and a nonce. -/
def AES_GCM_ENCRYPTION_RESERVED : Nat := 28

def OPENSSL_ENCRYPTION_RESERVED : Nat := 16

variable (encryptor : Encryptor)

/-- The cipher output for a payload. -/
def sealPayload (nonce : Nonce) (plain : Bytes) : Except CipherError Bytes :=
  match encryptor with
  | null => .ok plain
  | aead key =>
    match key.sealInPlace nonce.1 plain with
    | none => .error .encryptionFailed
    | some (text, tag) =>
      if tag.length ≠ 16 then .error (.invalidTag tag) else .ok (text ++ tag ++ nonce.1)
  | openssl key =>
    match key.sealInPlace nonce.1 plain with
    | none => .error .encryptionFailed
    | some (text, tag) => .ok (text ++ tag ++ nonce.1 ++ [0, 0, 0, 0])
  | xor key => .ok (key.xorData plain)

def encrypt (nonce : Nonce) (packet : ZCPacket) : Except CipherError ZCPacket :=
  match encryptor with
  | null => .ok packet
  | encryptor =>
    if packet.header.isEncrypted then
      .ok packet
    else do
      let payload ← encryptor.sealPayload nonce packet.payload
      return ⟨packet.header.setEncrypted true, payload⟩

/-- The plain text of a payload, if it opens under the key. -/
def openPayload (payload : Bytes) : Except CipherError Bytes :=
  let n := payload.length
  match encryptor with
  | null => .error .decryptionFailed
  | aead key =>
    if n < AES_GCM_ENCRYPTION_RESERVED then
      .error (.packetTooShort n)
    else
      match key.openInPlace (payload.drop (n - 12)) (payload.take (n - 28))
          ((payload.drop (n - 28)).take 16) with
      | none => .error .decryptionFailed
      | some plain => .ok plain
  | openssl key =>
    if n < OPENSSL_ENCRYPTION_RESERVED then
      .error (.packetTooShort n)
    else if n < OPENSSL_ENCRYPTION_RESERVED + 16 then
      .error .panicked
    else
      match key.openInPlace ((payload.drop (n - 16)).take 12) (payload.take (n - 32))
          ((payload.drop (n - 32)).take 16) with
      | none => .error .decryptionFailed
      | some plain => .ok plain
  | xor key => .ok (key.xorData payload)

def decrypt (packet : ZCPacket) : Except CipherError ZCPacket :=
  match encryptor with
  | null => if packet.header.isEncrypted then .error .decryptionFailed else .ok packet
  | encryptor =>
    if !packet.header.isEncrypted then
      .ok packet
    else do
      let payload ← encryptor.openPayload packet.payload
      return ⟨packet.header.setEncrypted false, payload⟩

end Encryptor

/-! ## Compression -/

inductive CompressorAlgo where
  | none
  | zstdDefault
  deriving DecidableEq

def CompressorAlgo.code : CompressorAlgo → UInt8
  | none => 0
  | zstdDefault => 1

inductive ZstdError where
  | bufferTooSmall
  | other

/-- The zstd library; `decompress` is given the size of the output buffer. -/
structure Zstd where
  compress : Bytes → Option Bytes
  decompress : Bytes → Nat → Except ZstdError Bytes

def COMPRESSOR_TAIL_SIZE : Nat := 1

namespace Zstd

variable (zstd : Zstd)

def compressRaw (data : Bytes) : CompressorAlgo → Option Bytes
  | .zstdDefault => zstd.compress data
  | .none => some data

/-- The output sizes that are tried in turn. -/
def bufferSizes (len : Nat) : List Nat :=
  [1, 2, 3, 4, 5].map fun i =>
    let size := len * 2 ^ i
    if i = 5 ∧ size < 64 * 1024 then 64 * 1024 else size

def decompressWith (zstd : Zstd) (data : Bytes) : List Nat → Option Bytes
  | [] => none
  | size :: sizes =>
    match zstd.decompress data size with
    | .ok buf => some buf
    | .error .bufferTooSmall => decompressWith zstd data sizes
    | .error .other => none

def decompressRaw (data : Bytes) : CompressorAlgo → Option Bytes
  | .zstdDefault => zstd.decompressWith data (bufferSizes data.length)
  | .none => some data

def compressPacket (packet : ZCPacket) (algo : CompressorAlgo) : Option ZCPacket :=
  if algo = .none ∨ packet.header.isCompressed = true then
    some packet
  else do
    let buf ← zstd.compressRaw packet.payload algo
    if packet.header.len < buf.length + COMPRESSOR_TAIL_SIZE then
      return packet
    else
      return ⟨packet.header.setCompressed true, buf ++ [algo.code]⟩

/-- `CompressorTail::get_algo` -/
def algoOf : UInt8 → Option CompressorAlgo
  | 1 => some .zstdDefault
  | _ => none

def decompressPacket (packet : ZCPacket) : Option ZCPacket :=
  if !packet.header.isCompressed then
    some packet
  else do
    let tail ← packet.payload.getLast?
    let algo ← algoOf tail
    let buf ← zstd.decompressRaw packet.payload.dropLast algo
    if buf.length ≠ packet.header.len then
      none
    else
      return ⟨packet.header.setCompressed false, buf⟩

end Zstd

inductive StageError where
  | compress
  | encrypt (e : CipherError)

/-- `try_compress_and_encrypt` works in place: the packet is returned also when a
stage has failed. -/
def tryCompressAndEncrypt (zstd : Zstd) (algo : CompressorAlgo) (encryptor : Encryptor)
    (nonce : Nonce) (packet : ZCPacket) : ZCPacket × Option StageError :=
  match zstd.compressPacket packet algo with
  | none => (packet, some .compress)
  | some packet =>
    match encryptor.encrypt nonce packet with
    | .error e => (packet, some (.encrypt e))
    | .ok packet => (packet, none)

/-! ## What encryption gives -/

namespace Encryptor

/-- A payload that the cipher may have put out. -/
def IsOutput (encryptor : Encryptor) (payload : Bytes) : Prop :=
  ∃ nonce plain, encryptor.sealPayload nonce plain = .ok payload

/-- Flagged as encrypted, with a payload that the cipher has put out. -/
def Protects (encryptor : Encryptor) (packet : ZCPacket) : Prop :=
  packet.header.isEncrypted = true ∧ encryptor.IsOutput packet.payload

variable {encryptor : Encryptor} {nonce : Nonce} {packet packet' : ZCPacket}

theorem encrypt_eq (notNull : ¬encryptor.IsNull) (nonce : Nonce) (packet : ZCPacket) :
    encryptor.encrypt nonce packet = if packet.header.isEncrypted then .ok packet else do
      let payload ← encryptor.sealPayload nonce packet.payload
      return ⟨packet.header.setEncrypted true, payload⟩ := by
  cases encryptor with
  | null => exact absurd trivial notNull
  | aead key | openssl key | xor key => rfl

theorem encrypt_flagged (notNull : ¬encryptor.IsNull) (nonce : Nonce)
    (flagged : packet.header.isEncrypted = true) :
    encryptor.encrypt nonce packet = .ok packet := by
  rw [encrypt_eq notNull, if_pos flagged]

/-- The payload is opened under the key. -/
def Opens (encryptor : Encryptor) (packet : ZCPacket) : Prop :=
  packet.header.isEncrypted = true ∧ ∃ plain, encryptor.openPayload packet.payload = .ok plain

theorem decrypt_eq (encryptor : Encryptor) (packet : ZCPacket) :
    encryptor.decrypt packet = if !packet.header.isEncrypted then .ok packet else do
      let payload ← encryptor.openPayload packet.payload
      return ⟨packet.header.setEncrypted false, payload⟩ := by
  cases encryptor with
  | null =>
    unfold decrypt
    cases packet.header.isEncrypted with
    | true | false => rfl
  | aead key | openssl key | xor key => rfl

theorem decrypt_unflagged (unflagged : packet.header.isEncrypted = false) :
    encryptor.decrypt packet = .ok packet := by
  rw [decrypt_eq, if_pos (by simp [unflagged])]

/-- A packet stays as it is, or it is flagged, is opened and loses the flag. -/
theorem decrypt_cases (done : encryptor.decrypt packet = .ok packet') :
    (packet.header.isEncrypted = false ∧ packet' = packet) ∨
      encryptor.Opens packet ∧
        ∃ payload, packet' = ⟨packet.header.setEncrypted false, payload⟩ := by
  rw [decrypt_eq] at done
  split_ifs at done with unflagged
  · cases done
    exact .inl ⟨by simpa using unflagged, rfl⟩
  · obtain ⟨plain, opened, made⟩ := bind_ok.mp done
    cases made
    exact .inr ⟨⟨by simpa using unflagged, plain, opened⟩, plain, rfl⟩

/-- A flagged packet stays as it is, any other one is sealed and flagged. -/
theorem encrypt_cases (notNull : ¬encryptor.IsNull)
    (done : encryptor.encrypt nonce packet = .ok packet') :
    (packet.header.isEncrypted = true ∧ packet' = packet) ∨
      ∃ payload, encryptor.sealPayload nonce packet.payload = .ok payload ∧
        packet' = ⟨packet.header.setEncrypted true, payload⟩ := by
  rw [encrypt_eq notNull] at done
  split_ifs at done with flagged
  · cases done
    exact .inl ⟨flagged, rfl⟩
  · obtain ⟨payload, output, made⟩ := bind_ok.mp done
    cases made
    exact .inr ⟨payload, output, rfl⟩

/-- An unflagged packet comes out protected. -/
theorem encrypt_protects (notNull : ¬encryptor.IsNull)
    (unflagged : packet.header.isEncrypted = false)
    (done : encryptor.encrypt nonce packet = .ok packet') : encryptor.Protects packet' := by
  obtain ⟨flagged, -⟩ | ⟨payload, output, rfl⟩ := encrypt_cases notNull done
  · exact absurd flagged (by simp [unflagged])
  · exact ⟨by simp, nonce, packet.payload, output⟩

end Encryptor

variable {zstd : Zstd} {algo : CompressorAlgo} {encryptor : Encryptor} {nonce : Nonce}
variable {packet packet' : ZCPacket}

/-- A packet stays as it is or is compressed and flagged. -/
theorem compressPacket_cases (done : zstd.compressPacket packet algo = some packet') :
    packet' = packet ∨ ∃ payload, packet' = ⟨packet.header.setCompressed true, payload⟩ := by
  unfold Zstd.compressPacket at done
  split at done
  · cases done
    exact .inl rfl
  · obtain ⟨buf, -, done⟩ := Option.bind_eq_some_iff.mp done
    split at done
    · cases done
      exact .inl rfl
    · cases done
      exact .inr ⟨_, rfl⟩

theorem compressPacket_isEncrypted (done : zstd.compressPacket packet algo = some packet') :
    packet'.header.isEncrypted = packet.header.isEncrypted := by
  obtain rfl | ⟨payload, rfl⟩ := compressPacket_cases done
  · rfl
  · simp

/-- A packet stays as it is or is decompressed and loses the flag. -/
theorem decompressPacket_cases (done : zstd.decompressPacket packet = some packet') :
    packet' = packet ∨ ∃ payload, packet' = ⟨packet.header.setCompressed false, payload⟩ := by
  unfold Zstd.decompressPacket at done
  split at done
  · cases done
    exact .inl rfl
  · obtain ⟨tail, -, done⟩ := Option.bind_eq_some_iff.mp done
    obtain ⟨algo, -, done⟩ := Option.bind_eq_some_iff.mp done
    obtain ⟨buf, -, done⟩ := Option.bind_eq_some_iff.mp done
    split at done
    · cases done
    · cases done
      exact .inr ⟨_, rfl⟩

/-- What the stages leave alone in the header. -/
structure StagesKeep (packet packet' : ZCPacket) : Prop where
  fromPeerId : packet'.header.fromPeerId = packet.header.fromPeerId
  packetType : packet'.header.packetType = packet.header.packetType
  forwardCounter : packet'.header.forwardCounter = packet.header.forwardCounter
  isLatencyFirst : packet'.header.isLatencyFirst = packet.header.isLatencyFirst

namespace StagesKeep

theorem refl (packet : ZCPacket) : StagesKeep packet packet := ⟨rfl, rfl, rfl, rfl⟩

theorem trans {packet'' : ZCPacket} (first : StagesKeep packet packet')
    (second : StagesKeep packet' packet'') : StagesKeep packet packet'' :=
  ⟨second.fromPeerId.trans first.fromPeerId, second.packetType.trans first.packetType,
    second.forwardCounter.trans first.forwardCounter,
    second.isLatencyFirst.trans first.isLatencyFirst⟩

theorem setFlag {f : Flag} (other : .latencyFirst ≠ f) (on : Bool) (payload : Bytes) :
    StagesKeep packet ⟨packet.header.setFlag f on, payload⟩ :=
  ⟨rfl, rfl, rfl, (packet.header.setFlag_isLatencyFirst on f).trans (if_neg other)⟩

theorem compress (done : zstd.compressPacket packet algo = some packet') :
    StagesKeep packet packet' := by
  obtain rfl | ⟨payload, rfl⟩ := compressPacket_cases done
  · exact refl _
  · exact setFlag (by decide) _ _

theorem encrypt (done : encryptor.encrypt nonce packet = .ok packet') :
    StagesKeep packet packet' := by
  by_cases isNull : encryptor.IsNull
  · cases encryptor with
    | null =>
      cases done
      exact refl _
    | aead key | openssl key | xor key => exact absurd isNull id
  · obtain ⟨-, rfl⟩ | ⟨payload, -, rfl⟩ := Encryptor.encrypt_cases isNull done
    · exact refl _
    · exact setFlag (by decide) _ _

theorem tryCompressAndEncrypt (zstd : Zstd) (algo : CompressorAlgo) (encryptor : Encryptor)
    (nonce : Nonce) (packet : ZCPacket) :
    StagesKeep packet (Packet.tryCompressAndEncrypt zstd algo encryptor nonce packet).1 := by
  unfold Packet.tryCompressAndEncrypt
  cases compressed : zstd.compressPacket packet algo with
  | none => exact refl _
  | some mid =>
    dsimp only
    cases done : encryptor.encrypt nonce mid with
    | error e => exact compress compressed
    | ok out => exact (compress compressed).trans (encrypt done)

theorem decrypt (done : encryptor.decrypt packet = .ok packet') : StagesKeep packet packet' := by
  obtain ⟨-, rfl⟩ | ⟨-, payload, rfl⟩ := Encryptor.decrypt_cases done
  · exact refl _
  · exact setFlag (by decide) _ _

theorem decompress (done : zstd.decompressPacket packet = some packet') :
    StagesKeep packet packet' := by
  obtain rfl | ⟨payload, rfl⟩ := decompressPacket_cases done
  · exact refl _
  · exact setFlag (by decide) _ _

end StagesKeep

variable (notNull : ¬encryptor.IsNull)
include notNull

/-- Both stages keep the flag of a packet that is already flagged. -/
theorem tryCompressAndEncrypt_flagged (flagged : packet.header.isEncrypted = true) :
    tryCompressAndEncrypt zstd algo encryptor nonce packet =
      match zstd.compressPacket packet algo with
      | none => (packet, some .compress)
      | some packet => (packet, none) := by
  unfold tryCompressAndEncrypt
  cases compressed : zstd.compressPacket packet algo with
  | none => rfl
  | some mid =>
    have flag := compressPacket_isEncrypted compressed
    rw [flagged] at flag
    simp [Encryptor.encrypt_flagged notNull nonce flag]

/-- An unflagged packet is protected exactly when both stages succeed. -/
theorem tryCompressAndEncrypt_protects (unflagged : packet.header.isEncrypted = false) :
    encryptor.Protects (tryCompressAndEncrypt zstd algo encryptor nonce packet).1 ↔
      (tryCompressAndEncrypt zstd algo encryptor nonce packet).2 = none := by
  unfold tryCompressAndEncrypt
  cases compressed : zstd.compressPacket packet algo with
  | none => simp [Encryptor.Protects, unflagged]
  | some mid =>
    have flag := compressPacket_isEncrypted compressed
    rw [unflagged] at flag
    simp only
    cases done : encryptor.encrypt nonce mid with
    | error e => simp [Encryptor.Protects, flag]
    | ok out => simp [Encryptor.encrypt_protects notNull flag done]

end PeerLink.Packet
