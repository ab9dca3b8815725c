import Mathlib.Data.List.Range
import PeerLink.Packet.Header

/-!
# RPC messages in pieces

`build_rpc_packet` cuts the content of a message into packets, and a `PacketMerger` puts them
together again. Only the first piece carries the compression info, and the descriptor is left out of
the others if the content is compressed. An empty content is one packet that says it has no pieces.
-/

namespace PeerLink.Rpc

open Packet (ZCPacket PacketType)

abbrev Bytes := List UInt8

structure RpcDescriptor where
  domainName : String
  protoName : String
  serviceName : String
  methodIndex : UInt32
  deriving DecidableEq

/-- The algorithms by their numbers. -/
structure RpcCompressionInfo where
  algo : Int32
  acceptedAlgo : Int32
  deriving DecidableEq

/-- `CompressionAlgoPb::None`. -/
def compressionAlgoNone : Int32 := 1

/-- The defaults are those of a message without any field. -/
structure RpcPacket where
  fromPeer : UInt32 := 0
  toPeer : UInt32 := 0
  transactionId : Int64 := 0
  descriptor : Option RpcDescriptor := none
  body : Bytes := []
  isRequest : Bool := false
  totalPieces : UInt32 := 0
  pieceIdx : UInt32 := 0
  traceId : Int32 := 0
  compressionInfo : Option RpcCompressionInfo := none
  deriving DecidableEq

/-- The protocol buffer encoding of packets. -/
structure RpcCodec where
  encode : RpcPacket → Bytes
  decode : Bytes → Option RpcPacket

/-! ## Cutting a message -/

def RPC_PACKET_CONTENT_MTU : Nat := 1300

structure BuildRpcPacketArgs where
  fromPeer : UInt32
  toPeer : UInt32
  rpcDesc : RpcDescriptor
  transactionId : Int64
  isReq : Bool
  content : Bytes
  traceId : Int32
  compressionInfo : RpcCompressionInfo

namespace BuildRpcPacketArgs
variable (args : BuildRpcPacketArgs)

/-- The number of pieces, rounded up. -/
def totalPieces : Nat :=
  (args.content.length + RPC_PACKET_CONTENT_MTU - 1) / RPC_PACKET_CONTENT_MTU

/-- The packet of a round of the loop. -/
def curPacket (curOffset curLen : Nat) : RpcPacket where
  fromPeer := args.fromPeer
  toPeer := args.toPeer
  -- an old version needs the descriptor in every piece
  descriptor :=
    if curOffset = 0 ∨ args.compressionInfo.algo = compressionAlgoNone then some args.rpcDesc
    else none
  isRequest := args.isReq
  totalPieces := UInt32.ofNat args.totalPieces
  pieceIdx := UInt32.ofNat (curOffset / RPC_PACKET_CONTENT_MTU)
  transactionId := args.transactionId
  body := (args.content.drop curOffset).take curLen
  traceId := args.traceId
  compressionInfo := if curOffset = 0 then some args.compressionInfo else none

/-- The length of the next piece. -/
def curLen (curOffset : Nat) : Nat :=
  if args.content.length < curOffset + RPC_PACKET_CONTENT_MTU then
    args.content.length - curOffset
  else
    RPC_PACKET_CONTENT_MTU

/-- The loop from `curOffset` on, with at most `fuel` rounds. -/
def rpcPacketsFrom : (fuel curOffset : Nat) → List RpcPacket
  | 0, _ => []
  | fuel + 1, curOffset =>
    if curOffset < args.content.length ∨ args.content = [] then
      let curLen := args.curLen curOffset
      args.curPacket curOffset curLen ::
        if args.content = [] then [] else rpcPacketsFrom fuel (curOffset + curLen)
    else
      []

/-- The messages of the packets. Every round but that of an empty content goes on by a byte at
least. -/
def rpcPackets : List RpcPacket := args.rpcPacketsFrom (args.content.length + 1) 0

end BuildRpcPacketArgs

def packetOf (codec : RpcCodec) (args : BuildRpcPacketArgs) (message : RpcPacket) : ZCPacket :=
  ZCPacket.fillPeerManagerHdr ⟨⟨0, 0, 0, 0, 0, 0⟩, codec.encode message⟩ args.fromPeer.toNat
    args.toPeer.toNat (if args.isReq then PacketType.rpcReq else PacketType.rpcResp).code

def buildRpcPacket (codec : RpcCodec) (args : BuildRpcPacketArgs) : List ZCPacket :=
  args.rpcPackets.map (packetOf codec args)

/-! ## Putting it together -/

inductive RpcError where
  | malformatRpcPacket (text : String)
  /-- The payload is no message. -/
  | decodeError

structure PacketMerger where
  firstPiece : Option RpcPacket
  pieces : List RpcPacket

namespace PacketMerger

def new : PacketMerger := ⟨none, []⟩

variable (merger : PacketMerger)

def tryMergePieces : Option RpcPacket :=
  match merger.firstPiece, merger.pieces with
  | none, _ | _, [] => none
  | some _, first :: rest =>
    if (first :: rest).any (·.totalPieces == 0) then
      none
    else
      -- only the first packet contains the complete info
      some { first with totalPieces := 1, pieceIdx := 0, body := (first :: rest).flatMap (·.body) }

/-- `Vec::resize`. -/
def resize (pieces : List RpcPacket) (n : Nat) : List RpcPacket :=
  pieces.take n ++ List.replicate (n - pieces.length) ({} : RpcPacket)

/-- The pieces so far are kept only if they are of the same message. -/
def startOrContinue (rpcPacket : RpcPacket) : PacketMerger :=
  match merger.firstPiece with
  | none => ⟨some rpcPacket, []⟩
  | some first =>
    if first.transactionId ≠ rpcPacket.transactionId ∨ first.fromPeer ≠ rpcPacket.fromPeer then
      ⟨some rpcPacket, []⟩
    else
      merger

def feed (rpcPacket : RpcPacket) : PacketMerger × Except RpcError (Option RpcPacket) :=
  let totalPieces := rpcPacket.totalPieces
  let pieceIdx := rpcPacket.pieceIdx
  -- for compatibility with old version
  if totalPieces = 0 ∧ pieceIdx = 0 then
    (merger, .ok (some rpcPacket))
  else if pieceIdx = 0 ∧ rpcPacket.descriptor = none then
    (merger, .error (.malformatRpcPacket "descriptor is missing"))
  else if 32 * 1024 < totalPieces ∨ totalPieces = 0 then
    (merger, .error (.malformatRpcPacket s!"total_pieces is invalid: {totalPieces}"))
  else if totalPieces ≤ pieceIdx then
    (merger, .error (.malformatRpcPacket "piece_idx >= total_pieces"))
  else
    let started := merger.startOrContinue rpcPacket
    let fed : PacketMerger :=
      { started with
        pieces := (resize started.pieces totalPieces.toNat).set pieceIdx.toNat rpcPacket }
    (fed, .ok fed.tryMergePieces)

/-- A packet comes in and its message is fed. -/
def feedPacket (codec : RpcCodec) (merger : PacketMerger) (packet : ZCPacket) :
    PacketMerger × Except RpcError (Option RpcPacket) :=
  match codec.decode packet.payload with
  | none => (merger, .error .decodeError)
  | some rpcPacket => merger.feed rpcPacket

/-- The merger after all the packets. -/
def feedAll (codec : RpcCodec) (merger : PacketMerger) (packets : List ZCPacket) : PacketMerger :=
  packets.foldl (fun merger packet => (merger.feedPacket codec packet).1) merger

end PacketMerger

/-! ## The pieces of a message -/

variable {args : BuildRpcPacketArgs}

namespace BuildRpcPacketArgs

/-- Piece `k` of the message. -/
def piece (args : BuildRpcPacketArgs) (k : Nat) : RpcPacket :=
  args.curPacket (k * RPC_PACKET_CONTENT_MTU) (args.curLen (k * RPC_PACKET_CONTENT_MTU))

theorem lt_totalPieces {k : Nat} :
    k < args.totalPieces ↔ k * RPC_PACKET_CONTENT_MTU < args.content.length := by
  unfold totalPieces RPC_PACKET_CONTENT_MTU
  omega

/-- The last piece ends with the content, and behind any other is the next. -/
theorem rpcPacketsFrom_eq (some : args.content ≠ []) {fuel k left : Nat}
    (rest : k + left = args.totalPieces) (enough : left ≤ fuel) :
    args.rpcPacketsFrom (fuel + 1) (min (k * RPC_PACKET_CONTENT_MTU) args.content.length) =
      (List.range' k left).map args.piece := by
  induction left generalizing fuel k with
  | zero =>
    have ended := mt lt_totalPieces.mpr (by omega : ¬k < args.totalPieces)
    rw [Nat.min_eq_right (Nat.le_of_not_lt ended), rpcPacketsFrom, if_neg (by simp [some])]
    rfl
  | succ left ih =>
    obtain ⟨fuel, rfl⟩ : ∃ n, fuel = n + 1 := ⟨fuel - 1, by omega⟩
    have inside := lt_totalPieces.mp (by omega : k < args.totalPieces)
    have next : k * RPC_PACKET_CONTENT_MTU + args.curLen (k * RPC_PACKET_CONTENT_MTU) =
        min ((k + 1) * RPC_PACKET_CONTENT_MTU) args.content.length := by
      unfold curLen RPC_PACKET_CONTENT_MTU at *
      split <;> omega
    rw [Nat.min_eq_left inside.le, rpcPacketsFrom, if_pos (.inl inside)]
    dsimp only
    rw [if_neg some, next, ih (by omega) (by omega)]
    rfl

/-- The pieces in the order of their indices. -/
theorem rpcPackets_eq (some : args.content ≠ []) :
    args.rpcPackets = (List.range args.totalPieces).map args.piece := by
  have few : args.totalPieces ≤ args.content.length := by
    unfold totalPieces RPC_PACKET_CONTENT_MTU
    omega
  have built := rpcPacketsFrom_eq some (Nat.zero_add args.totalPieces) few
  rw [Nat.zero_mul, Nat.zero_min] at built
  rw [rpcPackets, built, List.range_eq_range']

theorem rpcPackets_of_nil (empty : args.content = []) : args.rpcPackets = [args.piece 0] := by
  unfold rpcPackets rpcPacketsFrom piece
  simp [empty]

theorem piece_body (k : Nat) :
    (args.piece k).body =
      (args.content.drop (k * RPC_PACKET_CONTENT_MTU)).take RPC_PACKET_CONTENT_MTU := by
  change (args.content.drop _).take (args.curLen _) = _
  unfold curLen
  split_ifs with short
  · rw [List.take_of_length_le (by rw [List.length_drop]), List.take_of_length_le]
    rw [List.length_drop]
    omega
  · rfl

/-- The bodies of the first pieces are the start of the content. -/
theorem flatMap_body (n : Nat) :
    ((List.range n).map args.piece).flatMap (·.body) =
      args.content.take (n * RPC_PACKET_CONTENT_MTU) := by
  induction n with
  | zero => simp
  | succ n ih =>
    rw [List.range_succ, List.map_append, List.flatMap_append, ih, List.map_singleton,
      List.flatMap_singleton, piece_body, Nat.succ_mul, List.take_add]

theorem flatMap_body_all : ((List.range args.totalPieces).map args.piece).flatMap (·.body) =
    args.content := by
  rw [flatMap_body, List.take_of_length_le]
  unfold totalPieces RPC_PACKET_CONTENT_MTU
  omega

section
variable (fits : args.content.length ≤ 32768 * RPC_PACKET_CONTENT_MTU)
include fits

theorem totalPieces_le : args.totalPieces ≤ 32768 := by
  unfold totalPieces RPC_PACKET_CONTENT_MTU at *
  omega

theorem piece_totalPieces (k : Nat) : (args.piece k).totalPieces.toNat = args.totalPieces := by
  have few := totalPieces_le fits
  change (UInt32.ofNat args.totalPieces).toNat = _
  rw [UInt32.toNat_ofNat']
  omega

theorem piece_pieceIdx {k : Nat} (inside : k < args.totalPieces) :
    (args.piece k).pieceIdx.toNat = k := by
  have few := totalPieces_le fits
  change (UInt32.ofNat (k * RPC_PACKET_CONTENT_MTU / RPC_PACKET_CONTENT_MTU)).toNat = k
  rw [UInt32.toNat_ofNat', Nat.mul_div_cancel k (by decide)]
  omega

end

end BuildRpcPacketArgs

/-! ## The merger as a function of the pieces fed -/

namespace PacketMerger

open BuildRpcPacketArgs

/-- The pieces that have been fed, each in its place. -/
def collected (args : BuildRpcPacketArgs) (fed : List Nat) : List RpcPacket :=
  (List.range args.totalPieces).map fun k => if k ∈ fed then args.piece k else {}

/-- The merger after pieces of the message with the given indices. -/
def after (args : BuildRpcPacketArgs) : List Nat → PacketMerger
  | [] => new
  | first :: rest => ⟨some (args.piece first), collected args (first :: rest)⟩

/-- The message in one packet. -/
def whole (args : BuildRpcPacketArgs) : RpcPacket :=
  { args.piece 0 with totalPieces := 1, pieceIdx := 0, body := args.content }

theorem collected_set {fed : List Nat} {j : Nat} :
    (collected args fed).set j (args.piece j) = collected args (fed ++ [j]) := by
  unfold collected
  apply List.ext_getElem?
  intro k
  rw [List.getElem?_set, List.length_map, List.length_range, List.getElem?_map, List.getElem?_map]
  by_cases same : j = k
  · subst same
    by_cases inside : j < args.totalPieces
    · simp [inside]
    · simp [inside]
  · have apart : k ≠ j := fun eq => same eq.symm
    by_cases inside : k < args.totalPieces
    · simp [same, apart, inside]
    · simp [same, inside]

theorem resize_collected (fed : List Nat) :
    resize (collected args fed) args.totalPieces = collected args fed := by
  have counted : (collected args fed).length = args.totalPieces := by simp [collected]
  unfold resize
  rw [counted, Nat.sub_self, List.replicate_zero, List.append_nil,
    List.take_of_length_le counted.le]

theorem resize_nil : resize [] args.totalPieces = collected args [] := by
  simp [resize, collected, List.map_const']

theorem collected_of_complete {fed : List Nat} (complete : ∀ k < args.totalPieces, k ∈ fed) :
    collected args fed = (List.range args.totalPieces).map args.piece := by
  apply List.map_congr_left
  intro k inside
  exact if_pos (complete k (List.mem_range.mp inside))

theorem startOrContinue_after (fed : List Nat) (j : Nat) :
    ∃ first, (after args fed).startOrContinue (args.piece j) =
      ⟨some first, if fed = [] then [] else collected args fed⟩ ∧
        after args (fed ++ [j]) = ⟨some first, collected args (fed ++ [j])⟩ := by
  cases fed with
  | nil => exact ⟨args.piece j, rfl, rfl⟩
  | cons i fed =>
    refine ⟨args.piece i, ?_, rfl⟩
    change (if args.transactionId ≠ args.transactionId ∨ args.fromPeer ≠ args.fromPeer then _
      else after args (i :: fed)) = _
    rw [if_neg (by simp), if_neg (List.cons_ne_nil _ _)]
    rfl

section
variable (fits : args.content.length ≤ 32768 * RPC_PACKET_CONTENT_MTU)
include fits

theorem piece_totalPieces_ne {k : Nat} (inside : k < args.totalPieces) :
    (args.piece k).totalPieces ≠ 0 := by
  intro zero
  have total := piece_totalPieces fits k
  rw [zero] at total
  change 0 = args.totalPieces at total
  omega

theorem collected_any {fed : List Nat} :
    (collected args fed).any (·.totalPieces == 0) = true ↔ ¬∀ k < args.totalPieces, k ∈ fed := by
  simp only [collected, List.any_map, List.any_eq_true, List.mem_range, Function.comp_apply,
    beq_iff_eq, not_forall]
  constructor
  · rintro ⟨k, inside, zero⟩
    refine ⟨k, inside, ?_⟩
    intro member
    rw [if_pos member] at zero
    exact piece_totalPieces_ne fits inside zero
  · rintro ⟨k, inside, missing⟩
    refine ⟨k, inside, ?_⟩
    rw [if_neg missing]

theorem tryMergePieces_collected (filled : args.content ≠ []) (first : RpcPacket)
    (fed : List Nat) :
    tryMergePieces ⟨some first, collected args fed⟩ =
      if ∀ k < args.totalPieces, k ∈ fed then some (whole args) else none := by
  have positive : 0 < args.totalPieces :=
    lt_totalPieces.mpr (by simpa using List.length_pos_of_ne_nil filled)
  obtain ⟨piece, rest, split⟩ : ∃ piece rest, collected args fed = piece :: rest := by
    apply List.exists_cons_of_ne_nil
    simpa [collected] using positive.ne'
  unfold tryMergePieces
  rw [split]
  dsimp only
  rw [← split]
  by_cases complete : ∀ k < args.totalPieces, k ∈ fed
  · have none := mt (collected_any fits).mp (not_not.mpr complete)
    have same := collected_of_complete complete
    have head : piece = args.piece 0 := by
      have at0 : (collected args fed)[0]? = some (args.piece 0) := by
        rw [same]
        simp [positive]
      rw [split] at at0
      cases at0
      rfl
    rw [if_neg none, if_pos complete, same, flatMap_body_all, head]
    rfl
  · rw [if_pos ((collected_any fits).mpr complete), if_neg complete]

/-- A piece of the message is put in its place, and the message is there once all are. -/
theorem feed_piece (filled : args.content ≠ []) {fed : List Nat} {j : Nat}
    (inside : j < args.totalPieces) :
    (after args fed).feed (args.piece j) =
      (after args (fed ++ [j]),
        .ok (if ∀ k < args.totalPieces, k ∈ fed ++ [j] then some (whole args) else none)) := by
  have idx := piece_pieceIdx fits inside
  have total := piece_totalPieces fits j
  have few := totalPieces_le fits
  have notZero := piece_totalPieces_ne fits inside
  have described : ¬((args.piece j).pieceIdx = 0 ∧ (args.piece j).descriptor = none) := by
    rintro ⟨zero, missing⟩
    rw [zero] at idx
    have here : 0 = j := idx
    subst here
    cases missing
  have bounded : ¬(32 * 1024 < (args.piece j).totalPieces ∨ (args.piece j).totalPieces = 0) := by
    rintro (large | zero)
    · rw [UInt32.lt_iff_toNat_lt, total] at large
      change 32768 < args.totalPieces at large
      omega
    · exact notZero zero
  have below : ¬(args.piece j).totalPieces ≤ (args.piece j).pieceIdx := by
    rw [UInt32.le_iff_toNat_le, total, idx]
    omega
  obtain ⟨first, started, fedAlso⟩ := @startOrContinue_after args fed j
  have pieces : resize (if fed = [] then [] else collected args fed) args.totalPieces =
      collected args fed := by
    split_ifs with nothing
    · rw [resize_nil, nothing]
    · exact resize_collected fed
  unfold feed
  dsimp only
  rw [if_neg (fun old => notZero old.1), if_neg described, if_neg bounded, if_neg below, started,
    total, idx, pieces, collected_set, tryMergePieces_collected fits filled, fedAlso]

end

end PacketMerger

/-! ## Messages that arrive in any order -/

section
variable {codec : RpcCodec}

open BuildRpcPacketArgs PacketMerger

theorem feedPacket_packetOf {message : RpcPacket}
    (inverts : codec.decode (codec.encode message) = some message) (merger : PacketMerger) :
    merger.feedPacket codec (packetOf codec args message) = merger.feed message := by
  change (match codec.decode (codec.encode message) with
    | none => _
    | some rpcPacket => merger.feed rpcPacket) = _
  rw [inverts]

section
variable (filled : args.content ≠ [])
include filled

theorem piece_mem {k : Nat} (inside : k < args.totalPieces) :
    args.piece k ∈ args.rpcPackets := by
  rw [rpcPackets_eq filled]
  exact List.mem_map_of_mem (List.mem_range.mpr inside)

theorem exists_index {packet : ZCPacket} (built : packet ∈ buildRpcPacket codec args) :
    ∃ k < args.totalPieces, packetOf codec args (args.piece k) = packet := by
  rw [buildRpcPacket, rpcPackets_eq filled, List.map_map] at built
  simpa using built

/-- Packets of the message by the indices of their pieces. -/
theorem exists_indices {packets : List ZCPacket}
    (built : ∀ packet ∈ packets, packet ∈ buildRpcPacket codec args) :
    ∃ fed : List Nat, (∀ k ∈ fed, k < args.totalPieces) ∧
      packets = fed.map fun k => packetOf codec args (args.piece k) := by
  choose! index inside same using fun packet member => exists_index filled (built packet member)
  exact ⟨packets.map index, by simpa using inside,
    by simpa [Function.comp_def] using (List.map_congr_left same).symm⟩

variable (inverts : ∀ message ∈ args.rpcPackets, codec.decode (codec.encode message) = some message)
  (fits : args.content.length ≤ 32768 * RPC_PACKET_CONTENT_MTU) {fed : List Nat}
  (inside : ∀ k ∈ fed, k < args.totalPieces)
include inverts fits inside

theorem feedAll_pieces :
    feedAll codec new (fed.map fun k => packetOf codec args (args.piece k)) = after args fed := by
  induction fed using List.reverseRecOn with
  | nil => rfl
  | append_singleton fed j ih =>
    have last := inside j (by simp)
    unfold feedAll at ih ⊢
    rw [List.map_append, List.foldl_append, ih fun k member => inside k (by simp [member])]
    change ((after args fed).feedPacket codec (packetOf codec args (args.piece j))).1 = _
    rw [feedPacket_packetOf (inverts _ (piece_mem filled last)), feed_piece fits filled last]

/-- The packets that are in are all there are exactly if all indices are in. -/
theorem all_fed_iff :
    (∀ packet ∈ buildRpcPacket codec args,
        packet ∈ fed.map fun k => packetOf codec args (args.piece k)) ↔
      ∀ k < args.totalPieces, k ∈ fed := by
  constructor
  · intro all k inRange
    have built : packetOf codec args (args.piece k) ∈ buildRpcPacket codec args :=
      List.mem_map_of_mem (piece_mem filled inRange)
    obtain ⟨j, member, same⟩ := List.mem_map.mp (all _ built)
    have payload : codec.encode (args.piece j) = codec.encode (args.piece k) :=
      congrArg ZCPacket.payload same
    have decoded := inverts _ (piece_mem filled (inside j member))
    rw [payload, inverts _ (piece_mem filled inRange), Option.some.injEq] at decoded
    have idx := congrArg (fun piece => piece.pieceIdx.toNat) decoded
    rw [piece_pieceIdx fits inRange, piece_pieceIdx fits (inside j member)] at idx
    rw [idx]
    exact member
  · intro all packet built
    obtain ⟨k, inRange, rfl⟩ := exists_index filled built
    exact List.mem_map_of_mem (all k inRange)

end

/-- What a message keeps on its way: everything but the numbers of the pieces. -/
structure Carries (args : BuildRpcPacketArgs) (message : RpcPacket) : Prop where
  body : message.body = args.content
  descriptor : message.descriptor = some args.rpcDesc
  compressionInfo : message.compressionInfo = some args.compressionInfo
  transactionId : message.transactionId = args.transactionId
  fromPeer : message.fromPeer = args.fromPeer
  toPeer : message.toPeer = args.toPeer
  isRequest : message.isRequest = args.isReq
  traceId : message.traceId = args.traceId

/-- The first piece has it all. -/
theorem piece_zero : (args.piece 0).descriptor = some args.rpcDesc ∧
    (args.piece 0).compressionInfo = some args.compressionInfo := by
  simp [piece, curPacket]

theorem carries_whole : Carries args (whole args) where
  body := rfl
  descriptor := piece_zero.1
  compressionInfo := piece_zero.2
  transactionId := rfl
  fromPeer := rfl
  toPeer := rfl
  isRequest := rfl
  traceId := rfl

theorem carries_of_nil (empty : args.content = []) : Carries args (args.piece 0) where
  __ := @carries_whole args
  body := by rw [piece_body, empty, List.drop_nil, List.take_nil]

/-- The packet of an empty message is a whole message for any merger. -/
theorem feed_of_nil (empty : args.content = []) (merger : PacketMerger) :
    merger.feed (args.piece 0) = (merger, .ok (some (args.piece 0))) := by
  have total : (args.piece 0).totalPieces = 0 := by
    change UInt32.ofNat args.totalPieces = 0
    simp [totalPieces, empty, RPC_PACKET_CONTENT_MTU]
  have idx : (args.piece 0).pieceIdx = 0 := by
    change UInt32.ofNat (0 * RPC_PACKET_CONTENT_MTU / RPC_PACKET_CONTENT_MTU) = 0
    simp
  unfold feed
  rw [if_pos ⟨total, idx⟩]

end

def sampleArgs : BuildRpcPacketArgs where
  fromPeer := 1
  toPeer := 2
  rpcDesc := ⟨"net", "peer_rpc", "OspfRouteRpc", 1⟩
  transactionId := 9
  isReq := true
  content := List.replicate 1301 7
  traceId := 3
  compressionInfo := ⟨2, 2⟩

/-- Enough of a codec for that message: the index of a piece says which it is. -/
def sampleCodec : RpcCodec where
  encode message := [message.pieceIdx.toUInt8]
  decode
    | [idx] => some (sampleArgs.piece idx.toNat)
    | _ => none

end PeerLink.Rpc
