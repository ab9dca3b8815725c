import PeerLink.Gateway.PeerFilter

/-!
# The NAT table of the ICMP proxy

An echo request is noted under the address it goes to, its identifier and its sequence number,
and is sent from a raw socket. A thread reads what the socket receives; an echo reply takes the
note that its own three values lead to, and goes to the peer of that note. The table does not
distinguish two requesters that have the three values in common: the later one replaces the
earlier, and the first reply leaves nothing for the second.
-/

namespace PeerLink.Gateway

open Packet

open Route (PeerId)

structure IcmpNatKey where
  realDstIp : IpAddr
  icmpId : UInt16
  icmpSeq : UInt16
  deriving DecidableEq

/-- Times are in milliseconds. -/
structure IcmpNatEntry where
  srcPeerId : PeerId
  myPeerId : PeerId
  srcIp : IpAddr
  startTime : Nat
  mappedDstIp : Ipv4Addr

/-- An echo request of a peer that the proxy handles. A `direct` one is for the node itself,
which has no device to give it to. -/
structure EchoRequest where
  fromPeerId : PeerId
  toPeerId : PeerId
  srcIp : Ipv4Addr
  dstIp : Ipv4Addr
  realDstIp : Ipv4Addr
  icmpId : UInt16
  icmpSeq : UInt16
  direct : Bool

namespace EchoRequest

def key (request : EchoRequest) : IcmpNatKey :=
  ⟨.v4 request.realDstIp, request.icmpId, request.icmpSeq⟩

def entry (request : EchoRequest) (now : Nat) : IcmpNatEntry :=
  ⟨request.fromPeerId, request.toPeerId, .v4 request.srcIp, now, request.dstIp⟩

end EchoRequest

/-- A reply as it is given to the peers. One too long for a packet goes in fragments, which have
the same addresses. -/
structure EchoReply where
  fromPeerId : PeerId
  toPeerId : PeerId
  srcIp : Ipv4Addr
  dstIp : Ipv4Addr
  noProxy : Bool
  deriving DecidableEq

/-- What is sent for a reply that has taken the entry. -/
def IcmpNatEntry.replies (entry : IcmpNatEntry) : List EchoReply :=
  match entry.srcIp with
  | .v6 _ => []
  | .v4 dstIp => [⟨entry.myPeerId, entry.srcPeerId, entry.mappedDstIp, dstIp, true⟩]

/-- The key that a packet of the raw socket leads to, if it is an echo reply. -/
def replyKey (data : Bytes) (peerIp : IpAddr) : Option IcmpNatKey :=
  match peerIp with
  | .v6 _ => none
  | .v4 _ =>
    let message := Ipv4Packet.payload data
    if data.length < Ipv4Packet.minimumPacketSize ∨ message.length < 8 ∨ field message 0 1 ≠ 0 then
      none
    else
      some ⟨peerIp, .ofNat (field message 4 2), .ofNat (field message 6 2)⟩

/-- The table, whether `socket_recv_loop` still runs, and the replies for the peers. -/
structure IcmpNat where
  natTable : AList fun _ : IcmpNatKey => IcmpNatEntry
  receiving : Bool
  replies : List EchoReply

/-- A request may fail to be sent; this is logged, and the note stays. The cleaner comes to one
key at a time. -/
inductive IcmpNatEvent where
  | request (request : EchoRequest) (now : Nat)
  | receive (data : Bytes) (peerIp : IpAddr)
  | clean (now : Nat) (key : IcmpNatKey)

namespace IcmpNat

def new : IcmpNat := ⟨∅, true, []⟩

/-- How long a request is remembered, in seconds. -/
def ENTRY_SECS : Nat := 20

def request (nat : IcmpNat) (request : EchoRequest) (now : Nat) : IcmpNat :=
  if request.direct then
    -- `send_icmp_reply_to_peer`
    { nat with
      replies := nat.replies ++
        [⟨request.toPeerId, request.fromPeerId, request.dstIp, request.srcIp, false⟩] }
  else
    { nat with natTable := nat.natTable.insert request.key (request.entry now) }

variable (nat : IcmpNat)

/-- One round of `socket_recv_loop`. -/
def receive (data : Bytes) (peerIp : IpAddr) : IcmpNat :=
  if !nat.receiving then
    nat
  else if data.isEmpty then
    { nat with receiving := false }
  else
    match replyKey data peerIp with
    | none => nat
    | some key =>
      match nat.natTable.lookup key with
      | none => nat
      | some entry =>
        { nat with
          natTable := nat.natTable.erase key
          replies := nat.replies ++ entry.replies }

def clean (now : Nat) (key : IcmpNatKey) : IcmpNat :=
  match nat.natTable.lookup key with
  | none => nat
  | some entry =>
    if (now - entry.startTime) / 1000 < ENTRY_SECS then nat
    else { nat with natTable := nat.natTable.erase key }

def step : IcmpNatEvent → IcmpNat
  | .request request now => nat.request request now
  | .receive data peerIp => nat.receive data peerIp
  | .clean now key => nat.clean now key

def run (events : List IcmpNatEvent) : IcmpNat := events.foldl step nat

end IcmpNat

/-! ### What stands under a key -/

/-- An empty packet ends `socket_recv_loop`. -/
def IcmpNatEvent.ends : IcmpNatEvent → Bool
  | .receive data _ => data.isEmpty
  | _ => false

/-- The request that a reply with the key would be taken for, and since when. -/
def standing (key : IcmpNatKey) (now : Option (EchoRequest × Nat)) :
    IcmpNatEvent → Option (EchoRequest × Nat)
  | .request request since =>
    if request.direct = false ∧ request.key = key then some (request, since) else now
  | .receive data peerIp => if replyKey data peerIp = some key then none else now
  | .clean time cleaned =>
    if cleaned = key then now.filter fun (_, since) => (time - since) / 1000 < IcmpNat.ENTRY_SECS
    else now

namespace IcmpNat

variable {nat : IcmpNat} {key : IcmpNatKey} {held : Option (EchoRequest × Nat)}

/-- The table has the request that stands under the key. -/
def Holds (nat : IcmpNat) (key : IcmpNatKey) (held : Option (EchoRequest × Nat)) : Prop :=
  nat.natTable.lookup key = held.map fun (request, since) => request.entry since

/-- All that a packet of the raw socket can do while the loop runs. -/
theorem receive_cases {data : Bytes} (peerIp : IpAddr) (on : nat.receiving = true)
    (filled : data.isEmpty = false) :
    (nat.receive data peerIp = nat ∧
        ∀ key, replyKey data peerIp = some key → nat.natTable.lookup key = none) ∨
      ∃ key entry, replyKey data peerIp = some key ∧ nat.natTable.lookup key = some entry ∧
        nat.receive data peerIp = { nat with
          natTable := nat.natTable.erase key
          replies := nat.replies ++ entry.replies } := by
  unfold receive
  rw [if_neg (by simp [on]), if_neg (by simp [filled])]
  cases replyKey data peerIp with
  | none => exact .inl ⟨rfl, nofun⟩
  | some key =>
    cases found : nat.natTable.lookup key with
    | none =>
      refine .inl ⟨by simp only [found], fun other same => ?_⟩
      cases same
      exact found
    | some entry => exact .inr ⟨key, entry, rfl, found, by simp [found]⟩

theorem receiving_step (event : IcmpNatEvent) :
    (nat.step event).receiving = (nat.receiving && !event.ends) := by
  cases event with
  | request request now =>
    simp only [step, IcmpNat.request, IcmpNatEvent.ends, Bool.not_false, Bool.and_true]
    split <;> rfl
  | receive data peerIp =>
    simp only [step, IcmpNatEvent.ends]
    cases on : nat.receiving with
    | false => simp [receive, on]
    | true =>
      cases filled : data.isEmpty with
      | true => simp [receive, on, filled]
      | false =>
        obtain ⟨same, -⟩ | ⟨_, _, -, -, after⟩ := receive_cases peerIp on filled
        · rw [same, on]
          rfl
        · rw [after]
          exact on
  | clean time cleaned =>
    simp only [step, clean, IcmpNatEvent.ends, Bool.not_false, Bool.and_true]
    repeat' split
    all_goals rfl

theorem receiving_run (events : List IcmpNatEvent) :
    (nat.run events).receiving = true ↔
      nat.receiving = true ∧ ∀ event ∈ events, event.ends = false := by
  induction events generalizing nat with
  | nil => simp [run]
  | cons event events ih =>
    rw [show nat.run (event :: events) = (nat.step event).run events from rfl, ih, receiving_step]
    simp [and_assoc]

section
variable (holds : nat.Holds key held)
include holds

theorem Holds.request (request : EchoRequest) (now : Nat) :
    (nat.request request now).Holds key (standing key held (.request request now)) := by
  simp only [IcmpNat.request, standing]
  split
  · rename_i direct
    rw [if_neg (by simp [direct])]
    exact holds
  · rename_i sent
    rw [Bool.not_eq_true] at sent
    by_cases same : request.key = key
    · rw [if_pos ⟨sent, same⟩, ← same]
      exact AList.lookup_insert _
    · rw [if_neg fun both => same both.2]
      exact (AList.lookup_insert_ne (Ne.symm same)).trans holds

theorem Holds.clean (time : Nat) (cleaned : IcmpNatKey) :
    (nat.clean time cleaned).Holds key (standing key held (.clean time cleaned)) := by
  simp only [IcmpNat.clean, standing]
  by_cases same : cleaned = key
  · rw [if_pos same, same, holds]
    cases held with
    | none => exact holds
    | some held =>
      obtain ⟨request, since⟩ := held
      simp only [Option.map_some, EchoRequest.entry, Option.filter_some, decide_eq_true_eq]
      split
      · exact holds
      · exact AList.lookup_erase _ _
  · rw [if_neg same]
    split
    · exact holds
    · split
      · exact holds
      · exact (AList.lookup_erase_ne (Ne.symm same)).trans holds

variable (on : nat.receiving = true)
include on

theorem Holds.receive {data : Bytes} (peerIp : IpAddr) (filled : data.isEmpty = false) :
    (nat.receive data peerIp).Holds key (standing key held (.receive data peerIp)) := by
  simp only [standing]
  obtain ⟨same, absent⟩ | ⟨taken, entry, read, found, after⟩ := receive_cases peerIp on filled
  · rw [same]
    split
    · rename_i read
      exact absent key read
    · exact holds
  · rw [after, read]
    split
    · rename_i same
      cases same
      exact AList.lookup_erase _ _
    · rename_i differ
      exact (AList.lookup_erase_ne fun same => differ (congrArg some same.symm)).trans holds

theorem Holds.step {event : IcmpNatEvent} (goes : event.ends = false) :
    (nat.step event).Holds key (standing key held event) := by
  cases event with
  | request request now => exact holds.request request now
  | receive data peerIp => exact holds.receive on peerIp goes
  | clean time cleaned => exact holds.clean time cleaned

theorem Holds.run {events : List IcmpNatEvent} (goes : ∀ event ∈ events, event.ends = false) :
    (nat.run events).Holds key (events.foldl (standing key) held) := by
  induction events generalizing nat held with
  | nil => exact holds
  | cons event events ih =>
    have first := goes event List.mem_cons_self
    have on' : (nat.step event).receiving = true := by rw [receiving_step, on, first]; rfl
    exact ih (holds.step on first) on' fun later mem => goes later (List.mem_cons_of_mem _ mem)

/-- A reply sends something just if a request stands under its key, and then for that one. -/
theorem receive_sends_iff {data : Bytes} {peerIp : IpAddr} (read : replyKey data peerIp = some key)
    {reply : EchoReply} :
    (nat.receive data peerIp).replies = nat.replies ++ [reply] ↔
      ∃ request since, held = some (request, since) ∧
        reply = ⟨request.toPeerId, request.fromPeerId, request.dstIp, request.srcIp, true⟩ := by
  have filled : data.isEmpty = false := by
    cases data with
    | nil => cases peerIp <;> simp [replyKey, Ipv4Packet.minimumPacketSize] at read
    | cons => rfl
  obtain ⟨same, absent⟩ | ⟨taken, entry, readTaken, found, after⟩ := receive_cases peerIp on filled
  · have nothing : held = none := Option.map_eq_none_iff.mp (holds ▸ absent key read)
    rw [same, nothing]
    simp
  · cases readTaken.symm.trans read
    obtain ⟨⟨request, since⟩, rfl, rfl⟩ := Option.map_eq_some_iff.mp (holds ▸ found)
    rw [after]
    simp [EchoRequest.entry, IcmpNatEntry.replies, eq_comm]

end

end IcmpNat

/-- The reply goes to the peer and the address of the request, from the address it was for. -/
def EchoReply.Answers (reply : EchoReply) (request : EchoRequest) : Prop :=
  reply.toPeerId = request.fromPeerId ∧ reply.dstIp = request.srcIp ∧ reply.srcIp = request.dstIp

/-- **An echo reply goes to its requester just if the request still stands under its key.** A
request for the node itself is answered at once, and rightly. For any other, whatever came before
and comes between, the reply that it causes goes to the requester just if the loop has not ended
and what stands under the key, from this request on, is this request or one of the same peer and
addresses. -/
theorem echo_reply_iff (before : List IcmpNatEvent) (request : EchoRequest) (since : Nat) :
    (request.direct = true →
      ∃ reply, ((IcmpNat.new.run before).step (.request request since)).replies =
          (IcmpNat.new.run before).replies ++ [reply] ∧ reply.Answers request) ∧
    (request.direct = false → ∀ (later : List IcmpNatEvent) (data : Bytes),
      replyKey data (.v4 request.realDstIp) = some request.key →
        let events := before ++ .request request since :: later
        let nat := IcmpNat.new.run events
        ((∃ reply, (nat.step (.receive data (.v4 request.realDstIp))).replies =
            nat.replies ++ [reply] ∧ reply.Answers request) ↔
          (∀ event ∈ events, event.ends = false) ∧
            ∃ other time, later.foldl (standing request.key) (some (request, since)) =
                some (other, time) ∧
              other.fromPeerId = request.fromPeerId ∧ other.srcIp = request.srcIp ∧
              other.dstIp = request.dstIp)) := by
  constructor
  · intro direct
    refine ⟨⟨request.toPeerId, request.fromPeerId, request.dstIp, request.srcIp, false⟩, ?_,
      rfl, rfl, rfl⟩
    simp [IcmpNat.step, IcmpNat.request, direct]
  · intro sent later data read
    by_cases goes : ∀ event ∈ before ++ .request request since :: later, event.ends = false
    · have on := (@IcmpNat.receiving_run IcmpNat.new _).mpr ⟨rfl, goes⟩
      -- whatever stood under the key before, the request takes its place
      have held := (show IcmpNat.new.Holds request.key none from rfl).run rfl goes
      rw [List.foldl_append, List.foldl_cons, standing, if_pos ⟨sent, rfl⟩] at held
      constructor
      · rintro ⟨reply, replied, answers⟩
        obtain ⟨other, time, stands, rfl⟩ := (IcmpNat.receive_sends_iff held on read).mp replied
        exact ⟨goes, other, time, stands, answers⟩
      · rintro ⟨-, other, time, stands, answers⟩
        exact ⟨_, (IcmpNat.receive_sends_iff held on read).mpr ⟨other, time, stands, rfl⟩, answers⟩
    · have off : (IcmpNat.new.run (before ++ .request request since :: later)).receiving = false :=
        Bool.eq_false_iff.mpr fun on => goes ((IcmpNat.receiving_run _).mp on).2
      constructor
      · rintro ⟨reply, replied, -⟩
        simp [IcmpNat.step, IcmpNat.receive, off] at replied
      · rintro ⟨all, -⟩
        exact absurd all goes

/-- Peer `peer`, with the address 10.0.0.`peer`, asks 192.168.1.5, which it knows by that address,
with identifier 1 and sequence number 1. -/
def pingOf (peer : PeerId) : EchoRequest where
  fromPeerId := peer
  toPeerId := 1
  srcIp := 0x0a000000 + .ofNat 32 peer
  dstIp := 0xc0a80105
  realDstIp := 0xc0a80105
  icmpId := 1
  icmpSeq := 1
  direct := false

/-- An IPv4 header of 20 bytes, and an echo reply with identifier 1 and sequence number 1. -/
def pong : Bytes :=
  [0x45, 0, 0, 28, 0, 0, 0, 0, 64, 1, 0, 0, 192, 168, 1, 5, 10, 9, 9, 9, 0, 0, 0, 0, 0, 1, 0, 1]

theorem lone_ping_answered :
    ∃ reply, ((IcmpNat.new.run [.request (pingOf 2) 0]).step
        (.receive pong (.v4 0xc0a80105))).replies =
        (IcmpNat.new.run [.request (pingOf 2) 0]).replies ++ [reply] ∧
      reply.Answers (pingOf 2) :=
  ((echo_reply_iff [] (pingOf 2) 0).2 rfl [] pong (by decide +kernel)).mpr
    ⟨by decide +kernel, pingOf 2, 0, rfl, rfl, rfl, rfl⟩

/-- Two peers ask with the same numbers: the reply to the first goes to the second, and the other
reply to nobody. -/
theorem two_pings_one_key :
    replyKey pong (.v4 (pingOf 2).realDstIp) = some (pingOf 2).key ∧
      (IcmpNat.new.run [.request (pingOf 2) 0, .request (pingOf 3) 5,
        .receive pong (.v4 0xc0a80105), .receive pong (.v4 0xc0a80105)]).replies =
        [⟨1, 3, 0xc0a80105, 0x0a000003, true⟩] := by
  constructor <;> decide +kernel

end PeerLink.Gateway
