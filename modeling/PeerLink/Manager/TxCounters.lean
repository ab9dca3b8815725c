import PeerLink.Manager.Outbound
import PeerLink.Schedule.Along

/-!
# Counting what is sent

`send_msg` and `send_msg_by_ip` count the messages that the node sends, and the bytes of their
buffers. One counts before it sends and again when that was successful, the other before it sends,
or not at all if a filter has chosen the destination.
-/

namespace PeerLink.Manager

open Packet Schedule
open Route (PeerId)

structure SelfTxCounters where
  selfTxPackets : Nat
  selfTxBytes : Nat
  deriving DecidableEq

namespace SelfTxCounters
variable (tx : SelfTxCounters) (bufLen : Nat)

def add : SelfTxCounters := ⟨tx.selfTxPackets + 1, tx.selfTxBytes + bufLen⟩

/-- The counters stay where they are when they are full. -/
def count : SelfTxCounters :=
  ⟨min (tx.add bufLen).selfTxPackets (2 ^ 64 - 1), min (tx.add bufLen).selfTxBytes (2 ^ 64 - 1)⟩

end SelfTxCounters

inductive SendCall where
  | sendMsg (msg : ZCPacket) (dst : PeerId)
  | sendMsgByIp (msg : ZCPacket) (ip : IpAddr)

/-- A call, and what it meets: `takes` says which links take a message without an error, and
`bufLen` how long the buffer of a packet is. -/
structure SendMoment where
  mgr : PeerManager
  env : SendEnv
  takes : Link → Bool
  bufLen : ZCPacket → Nat
  call : SendCall

namespace SendMoment
variable (m : SendMoment)

variable (tx : SelfTxCounters) (msg : ZCPacket)

/-- `send_msg_internal` is successful. -/
def isOk (dst : PeerId) : Bool :=
  let sent := m.mgr.sendMsg msg dst
  sent.error.isNone && sent.handed.any (m.takes ·.link)

/-- The message is handed to a connection of a peer or to the foreign network client. -/
def delivers (dst : PeerId) : Bool :=
  m.isOk msg dst && (m.mgr.sendMsg msg dst).handed.any (·.link.Leaves)

/-- The copies that the loop of `send_msg_by_ip` sends, with their destinations. -/
def copies (ip : IpAddr) : List (ZCPacket × PeerId) :=
  match m.mgr.dstPeers m.env ip, m.mgr.compressAndEncrypt m.env msg with
  | (dsts, isExitNode), (msg, none) =>
    dsts.map fun dst => ((m.mgr.setSendFlags isExitNode msg).setTo dst, dst)
  | _, (_, some _) => []

inductive Plan where
  | message (msg : ZCPacket) (dst : PeerId)
  /-- a filter has chosen the destination -/
  | addressed (msg : ZCPacket)
  | loop (copies : List (ZCPacket × PeerId))

/-- What a call sends, nothing after a panic. -/
def plan : Plan :=
  match m.call with
  | .sendMsg msg dst => .message msg dst
  | .sendMsgByIp msg ip =>
    match m.mgr.runNicPacketProcessPipeline m.env (m.mgr.fillNicHeader msg) with
    | none => .loop []
    | some (msg, _) => if msg.header.toPeerId ≠ 0 then .addressed msg else .loop (m.copies msg ip)

/-- The messages that a call counts. -/
def counted : List ZCPacket :=
  match m.plan with
  | .message msg dst => if m.isOk msg dst then [msg, msg] else [msg]
  | .addressed _ => []
  | .loop copies => copies.map (·.1)

def count : SelfTxCounters :=
  m.counted.foldl (fun tx msg => tx.count (m.bufLen msg)) tx

def addAll (msgs : List ZCPacket) : SelfTxCounters :=
  msgs.foldl (fun tx msg => tx.add (m.bufLen msg)) tx

/-- The copies that are handed over. -/
def delivered : List ZCPacket :=
  let sends := match m.plan with
    | .message msg dst => [(msg, dst)]
    | .addressed msg => [(msg, msg.header.toPeerId)]
    | .loop copies => copies
  (sends.filter fun send => m.delivers send.1 send.2).map (·.1)

/-- The call is of `send_msg_by_ip`, which sends to peers of its own choice that all get the
message, or in vain to the peer that a filter has chosen. -/
def CountsOnce : Prop :=
  match m.plan with
  | .message _ _ => False
  | .addressed msg => m.delivers msg msg.header.toPeerId = false
  | .loop copies => ∀ copy ∈ copies, m.delivers copy.1 copy.2 = true

/-- The call does not fill a counter. -/
def Room : Prop :=
  (m.addAll tx m.counted).selfTxPackets < 2 ^ 64 ∧ (m.addAll tx m.counted).selfTxBytes < 2 ^ 64
  deriving Decidable

variable {m}

theorem addAll_packets (msgs : List ZCPacket) (tx : SelfTxCounters) :
    (m.addAll tx msgs).selfTxPackets = tx.selfTxPackets + msgs.length ∧
      tx.selfTxBytes ≤ (m.addAll tx msgs).selfTxBytes := by
  induction msgs generalizing tx with
  | nil => exact ⟨rfl, Nat.le_refl _⟩
  | cons msg msgs ih =>
    obtain ⟨packets, bytes⟩ := ih (tx.add (m.bufLen msg))
    refine ⟨?_, (Nat.le_add_right _ _).trans bytes⟩
    rw [List.length_cons, Nat.add_comm msgs.length, ← Nat.add_assoc]
    exact packets

theorem foldl_count {msgs : List ZCPacket} {tx : SelfTxCounters}
    (packets : (m.addAll tx msgs).selfTxPackets < 2 ^ 64)
    (bytes : (m.addAll tx msgs).selfTxBytes < 2 ^ 64) :
    msgs.foldl (fun tx msg => tx.count (m.bufLen msg)) tx = m.addAll tx msgs := by
  induction msgs generalizing tx with
  | nil => rfl
  | cons msg msgs ih =>
    obtain ⟨more, grown⟩ := addAll_packets (m := m) msgs (tx.add (m.bufLen msg))
    have fits : tx.count (m.bufLen msg) = tx.add (m.bufLen msg) := by
      change (m.addAll (tx.add (m.bufLen msg)) msgs).selfTxPackets < _ at packets
      change (m.addAll (tx.add (m.bufLen msg)) msgs).selfTxBytes < _ at bytes
      rw [SelfTxCounters.count, Nat.min_eq_left (by omega), Nat.min_eq_left (by omega)]
    rw [List.foldl_cons, fits]
    exact ih packets bytes

theorem counted_eq_iff : m.counted.length = m.delivered.length ↔ m.CountsOnce := by
  unfold counted delivered CountsOnce
  cases m.plan with
  | message msg dst =>
    refine iff_of_false (fun same => ?_) id
    have one := List.length_filter_le (fun send => m.delivers send.1 send.2) [(msg, dst)]
    cases ok : m.isOk msg dst with
    | false => simp [delivers, ok] at same
    | true =>
      simp only [ok, if_true, List.length_map, List.length_cons, List.length_nil] at same one
      omega
  | addressed msg => cases delivered : m.delivers msg msg.header.toPeerId <;> simp [delivered]
  | loop copies =>
    simp only [List.length_map]
    exact eq_comm.trans List.length_filter_eq_length_iff

theorem CountsOnce.counted (once : m.CountsOnce) : m.counted = m.delivered := by
  unfold CountsOnce at once
  unfold SendMoment.counted delivered
  cases plan : m.plan with
  | message msg dst =>
    rw [plan] at once
    exact once.elim
  | addressed msg =>
    rw [plan] at once
    simp [once]
  | loop copies =>
    rw [plan] at once
    dsimp only at once ⊢
    rw [List.filter_eq_self.mpr fun copy mem => once copy mem]

/-- The counters grow by what is delivered just if the call counts once. -/
theorem addAll_eq_iff :
    m.addAll tx m.counted = m.addAll tx m.delivered ↔ m.CountsOnce := by
  refine ⟨fun same => counted_eq_iff.mp ?_, fun once => by rw [once.counted]⟩
  have packets := congrArg SelfTxCounters.selfTxPackets same
  rw [(addAll_packets _ _).1, (addAll_packets _ _).1] at packets
  exact Nat.add_left_cancel packets

end SendMoment

/-- The counters, what they should be, and whether one of them was full. -/
structure TxState where
  counters : SelfTxCounters
  exact : SelfTxCounters
  full : Bool

def TxState.step (s : TxState) (m : SendMoment) : Option TxState :=
  some ⟨m.count s.counters, m.addAll s.exact m.delivered, s.full || !decide (m.Room s.counters)⟩

/-- **Sent messages are counted once** all along a run, and no counter is full, just if each call
counts once and has room to. -/
theorem sends_counted_once_iff (tx : SelfTxCounters) (moments : List SendMoment) :
    (∀ s ∈ visited TxState.step ⟨tx, tx, false⟩ moments,
        s.counters = s.exact ∧ s.full = false) ↔
      ∀ move ∈ moves TxState.step ⟨tx, tx, false⟩ moments,
        move.2.CountsOnce ∧ move.2.Room move.1.counters := by
  apply @visited_iff_moves _ _ TxState.step (fun _ => True)
    (fun s (m : SendMoment) => m.CountsOnce ∧ m.Room s.counters) _ _ (fun _ => True)
    fun s => s.counters = s.exact ∧ s.full = false
  · rintro ⟨counters, _, _⟩ m - - ⟨⟨⟩, ⟨⟩⟩
    refine ⟨_, rfl, trivial, ?_⟩
    by_cases room : m.Room counters
    · have same : m.count counters = m.addAll counters m.counted :=
        SendMoment.foldl_count room.1 room.2
      simp [room, same, SendMoment.addAll_eq_iff]
    · simp [room]
  · exact fun _ _ => trivial
  · trivial
  · exact ⟨rfl, rfl⟩

/-- Node 1 sends a message to peer 2. -/
def sampleMoment : SendMoment :=
  ⟨sampleManager .null none, sampleSendEnv, fun _ => true, (·.payload.length),
    .sendMsg Acl.samplePacket 2⟩

theorem message_counted_twice :
    sampleMoment.delivered = [Acl.samplePacket] ∧
      (sampleMoment.count ⟨0, 0⟩).selfTxPackets = 2 := by
  decide +kernel

end PeerLink.Manager
