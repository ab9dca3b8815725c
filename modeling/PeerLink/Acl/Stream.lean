import PeerLink.Acl.Filter

/-!
# Proxied streams under the ACL

A proxied stream is checked when it connects. Then its bytes are copied to the
destination through an inspecting reader, whose callback checks each chunk that is
read and has no say in the copy. The filter is shared with the rest of the node:
rules are reloaded, buckets refilled and other packets processed in between.
-/

namespace PeerLink.Acl

open Packet

/-- A byte with the verdict on the chunk that brought it. -/
structure Marked where
  byte : UInt8
  allowed : Bool
  deriving DecidableEq

/-- A chunk read from the stream, with its verdict. -/
structure Chunk where
  data : Bytes
  allowed : Bool
  deriving DecidableEq

def Chunk.marked (chunk : Chunk) : List Marked := chunk.data.map (⟨·, chunk.allowed⟩)

/-- One direction of the copy, from the stream to the destination socket. The
chunks read so far are kept for the record. -/
structure StreamCopy where
  filter : AclFilter
  chunks : List Chunk
  buffer : List Marked
  written : List Marked

inductive StreamEvent where
  | read (data : Bytes) (env : AclEnv)
  | write (n : Nat)
  | reload (acl : Option AclConfig)
  | otherPacket (info : PacketInfo) (chainType : ChainType) (env : AclEnv)
  | refill (key : RateLimitKey) (tokens : Nat)
  | cleanupCache (env : AclEnv)

namespace StreamCopy

variable (s : StreamCopy)

def onProcessor (g : AclProcessor → AclProcessor) : StreamCopy :=
  { s with filter := { s.filter with aclProcessor := g s.filter.aclProcessor } }

/-- `none` when the callback of the reader panics, which ends the copy. -/
def step (parseCidr : CidrParser) (handler : ProxyAclHandler) (s : StreamCopy) :
    StreamEvent → Option StreamCopy
  | .read data env =>
    -- `let _ = self.handle_packet(buf)`: the verdict is dropped
    (handler.handlePacket s.filter env data).map fun (allowed, filter) =>
      let chunk : Chunk := ⟨data, allowed⟩
      { s with
        filter := filter
        chunks := s.chunks ++ [chunk]
        buffer := s.buffer ++ chunk.marked }
  | .write n =>
    some { s with buffer := s.buffer.drop n, written := s.written ++ s.buffer.take n }
  | .reload acl => some { s with filter := s.filter.reloadRules parseCidr acl }
  | .otherPacket info chainType env =>
    match s.filter.runProcessor env info chainType with
    | some (_, filter) => some { s with filter := filter }
    | none => some s
  | .refill key tokens =>
    some (s.onProcessor fun p =>
      match p.rateLimiters.lookup key with
      | some bucket =>
        { p with rateLimiters := p.rateLimiters.insert key (bucket.refill tokens) }
      | none => p)
  | .cleanupCache env =>
    some (s.onProcessor fun p =>
      { p with ruleCache := AclProcessor.cleanupCache env p.ruleCache AclProcessor.CACHE_MAX_SIZE })

def run (parseCidr : CidrParser) (handler : ProxyAclHandler) (s : StreamCopy) :
    List StreamEvent → Option StreamCopy
  | [] => some s
  | event :: events => (s.step parseCidr handler event).bind fun s => run parseCidr handler s events

/-- The connect-time check of `handle_one_in_stream`; a refused connection copies
nothing. -/
def start (handler : ProxyAclHandler) (f : AclFilter) (env : AclEnv) (buf : Bytes) :
    Option StreamCopy :=
  match handler.handlePacket f env buf with
  | some (true, filter) => some ⟨filter, [], [], []⟩
  | _ => none

/-- No byte of a refused chunk has been written. -/
def Enforced : Prop := ∀ b ∈ s.written, b.allowed = true

/-- Every chunk with data was allowed. -/
def AllAllowed : Prop := ∀ chunk ∈ s.chunks, chunk.data = [] ∨ chunk.allowed = true

/-! ## Everything read is written in the end -/

/-- What was read is what has been written and what is still buffered, in order. -/
def InOrder : Prop := s.written ++ s.buffer = s.chunks.flatMap Chunk.marked

section
variable {parseCidr : CidrParser} {handler : ProxyAclHandler} {s s' : StreamCopy}

theorem step_inOrder {event : StreamEvent} (stepped : s.step parseCidr handler event = some s')
    (h : s.InOrder) : s'.InOrder := by
  unfold InOrder at *
  cases event with
  | read data env =>
    obtain ⟨⟨allowed, filter⟩, -, rfl⟩ := Option.map_eq_some_iff.mp stepped
    simp [← h]
  | write n =>
    cases stepped
    simpa using h
  | reload acl =>
    cases stepped
    exact h
  | otherPacket info chainType env =>
    simp only [step] at stepped
    split at stepped <;> cases stepped <;> exact h
  | refill key tokens | cleanupCache env =>
    cases stepped
    exact h

theorem run_inOrder {events : List StreamEvent} (ran : s.run parseCidr handler events = some s')
    (h : s.InOrder) : s'.InOrder := by
  induction events generalizing s with
  | nil =>
    cases ran
    exact h
  | cons event events ih =>
    obtain ⟨mid, stepped, rest⟩ := Option.bind_eq_some_iff.mp ran
    exact ih rest (step_inOrder stepped h)

theorem start_inOrder {f : AclFilter} {env : AclEnv} {buf : Bytes}
    (started : start handler f env buf = some s) : s.InOrder := by
  unfold start at started
  split at started
  · cases started
    rfl
  · cases started

/-- The bytes read are all marked as allowed exactly when every chunk with data
was. -/
theorem allAllowed_iff (s : StreamCopy) :
    s.AllAllowed ↔ ∀ b ∈ s.chunks.flatMap Chunk.marked, b.allowed = true := by
  constructor
  · intro all b mem
    obtain ⟨chunk, hchunk, mem⟩ := List.mem_flatMap.mp mem
    obtain ⟨byte, hbyte, rfl⟩ := List.mem_map.mp mem
    cases all chunk hchunk with
    | inl empty => simp [empty] at hbyte
    | inr allowed => exact allowed
  · intro all chunk hchunk
    cases data : chunk.data with
    | nil => exact .inl rfl
    | cons byte rest =>
      refine .inr (all ⟨byte, chunk.allowed⟩ (List.mem_flatMap.mpr ⟨chunk, hchunk, ?_⟩))
      simp [Chunk.marked, data]

/-- **The ACL on proxied streams.** A copy writes no byte of a refused chunk if every
chunk with data is allowed, and once its buffer is drained only then. -/
theorem stream_enforced_iff {f : AclFilter} {env : AclEnv} {buf : Bytes}
    {events : List StreamEvent} (started : start handler f env buf = some s)
    (ran : s.run parseCidr handler events = some s') :
    (s'.AllAllowed → s'.Enforced) ∧ (s'.buffer = [] → (s'.Enforced ↔ s'.AllAllowed)) := by
  have order : s'.written ++ s'.buffer = s'.chunks.flatMap Chunk.marked :=
    run_inOrder ran (start_inOrder started)
  rw [allAllowed_iff, ← order]
  constructor
  · exact fun all b mem => all b (List.mem_append_left _ mem)
  · intro drained
    rw [drained, List.append_nil]
    exact Iff.rfl

end

/-! ## Two runs of one connection -/

/-- The sample connection, accepted while no rules are loaded. -/
def sampleStart : StreamCopy :=
  (start sampleHandler (.new fun _ => none) sampleEnv sampleSegment).get (by decide +kernel)

theorem sampleStart_started :
    start sampleHandler (.new fun _ => none) sampleEnv sampleSegment = some sampleStart :=
  (Option.some_get _).symm

def allowedEvents : List StreamEvent := [.read [7] sampleEnv, .write 1]

def allowedEnd : StreamCopy :=
  (sampleStart.run (fun _ => none) sampleHandler allowedEvents).get (by decide +kernel)

/-- A chunk that is allowed is written, and nothing else. -/
theorem allowed_chunk_enforced :
    sampleStart.run (fun _ => none) sampleHandler allowedEvents = some allowedEnd ∧
      allowedEnd.written = [⟨7, true⟩] ∧ allowedEnd.Enforced := by
  have ran : sampleStart.run (fun _ => none) sampleHandler allowedEvents = some allowedEnd :=
    (Option.some_get _).symm
  have chunks : allowedEnd.chunks = [⟨[7], true⟩] := by decide +kernel
  have all : allowedEnd.AllAllowed := by
    rw [AllAllowed, chunks]
    simp
  exact ⟨ran, by decide +kernel, (stream_enforced_iff sampleStart_started ran).1 all⟩

/-- Rules that drop are loaded after the connection was accepted. -/
def refusedEvents : List StreamEvent :=
  [.reload (some (inboundAcl 2)), .read [7] sampleEnv, .write 1]

def refusedEnd : StreamCopy :=
  (sampleStart.run (fun _ => none) sampleHandler refusedEvents).get (by decide +kernel)

/-- The chunk is refused and written all the same. -/
theorem refused_chunk_written :
    sampleStart.run (fun _ => none) sampleHandler refusedEvents = some refusedEnd ∧
      refusedEnd.chunks = [⟨[7], false⟩] ∧ refusedEnd.written = [⟨7, false⟩] ∧
      ¬refusedEnd.Enforced := by
  have written : refusedEnd.written = [⟨7, false⟩] := by decide +kernel
  refine ⟨(Option.some_get _).symm, by decide +kernel, written, ?_⟩
  rw [Enforced, written]
  simp

end StreamCopy

end PeerLink.Acl
