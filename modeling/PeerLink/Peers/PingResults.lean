import Mathlib.Data.List.Infix
import PeerLink.Schedule.Along

/-!
# The results of pings

The loop counts lost pings, and starts again if packets have come since the last result. It reads
the number of packets once for that and once more to remember it, and packets come between its
steps.
-/

namespace PeerLink.Peers

open Schedule

/-- What the loop of `pingpong` does next. -/
inductive Resume where
  | recv
  /-- reads the number of packets after a result -/
  | compare (lost : Bool)
  | decide
  | remember
  | stopped

/-- What has happened. -/
inductive Record where
  | packet
  | result (lost : Bool)
  deriving DecidableEq

/-- The latest record comes first; no code reads the records. -/
structure ResultLoop where
  rxPackets : UInt64
  lastRxPackets : UInt64
  lossCounter : Nat
  resume : Resume
  records : List Record

inductive LoopEvent where
  | packet
  /-- the loop takes its next step; a result that it receives is `lost` or not -/
  | advance (lost : Bool)

namespace ResultLoop

def new (rxPackets : UInt64) : ResultLoop := ⟨rxPackets, rxPackets, 0, .recv, []⟩

variable (s : ResultLoop)

def advance (lost : Bool) : ResultLoop :=
  match s.resume with
  | .recv =>
    { s with
      lossCounter := if lost then s.lossCounter + 1 else s.lossCounter
      resume := .compare lost
      records := .result lost :: s.records }
  | .compare _ =>
    { s with
      lossCounter := if s.lastRxPackets ≠ s.rxPackets then 0 else s.lossCounter
      resume := .decide }
  | .decide => { s with resume := if 5 ≤ s.lossCounter then .stopped else .remember }
  | .remember => { s with lastRxPackets := s.rxPackets, resume := .recv }
  | .stopped => s

def step : LoopEvent → Option ResultLoop
  | .packet =>
    match s.resume with
    | .stopped => none
    | _ => some { s with rxPackets := s.rxPackets + 1, records := .packet :: s.records }
  | .advance lost => some (s.advance lost)

/-- No packet comes between the two readings for one result, or between the first of them and the
stop, and the answer to a ping is among the packets that have come since the last result. They
are too few for the counter to come round to the number that was read last. -/
def noticed (event : LoopEvent) : Bool :=
  match s.resume, event with
  | .recv, .packet | .compare _, .packet => s.lastRxPackets ≠ s.rxPackets + 1
  | .compare false, .advance _ => s.lastRxPackets ≠ s.rxPackets
  | .decide, .packet | .remember, .packet => false
  | _, _ => true

/-- The losses that have been counted are the latest records. -/
def Leading : Prop :=
  List.replicate s.lossCounter (.result true) <+: s.records

def Counted : Prop :=
  match s.resume with
  | .recv | .compare true => s.lastRxPackets = s.rxPackets → s.Leading
  | .compare false => True
  | .decide | .remember => s.Leading
  | .stopped => s.Leading ∧ 5 ≤ s.lossCounter

theorem Counted.step {s s' : ResultLoop} (counted : s.Counted) {event : LoopEvent}
    (noticed : s.noticed event = true) (stepped : s.step event = some s') : s'.Counted := by
  obtain ⟨rx, last, losses, resume, records⟩ := s
  cases event with
  | packet =>
    cases resume with
    | recv =>
      cases stepped
      exact fun same => absurd same (of_decide_eq_true noticed)
    | compare lost =>
      cases stepped
      cases lost with
      | true => exact fun same => absurd same (of_decide_eq_true noticed)
      | false => exact trivial
    | decide | remember => cases noticed
    | stopped => cases stepped
  | advance lost =>
    cases stepped
    cases resume with
    | recv =>
      cases lost with
      | true => exact fun same => List.prefix_cons_inj .. |>.mpr (counted same)
      | false => exact trivial
    | compare lost =>
      simp only [Counted, advance, Leading]
      by_cases same : last = rx
      · cases lost with
        | true => simpa [Leading, same] using counted same
        | false => exact absurd same (of_decide_eq_true noticed)
      · simp [same]
    | decide =>
      by_cases enough : 5 ≤ losses
      · simp only [Counted, advance, if_pos enough]
        exact ⟨counted, enough⟩
      · simp only [Counted, advance, if_neg enough]
        exact counted
    | remember => exact fun _ => counted
    | stopped => exact counted

/-- **Only dead connections are closed**: the latest five records of a loop that has stopped are
losses. -/
theorem stopped_after_losses {rxPackets : UInt64} {events : List LoopEvent} {s : ResultLoop}
    (noticed : ∀ move ∈ moves step (new rxPackets) events, move.1.noticed move.2 = true)
    (ran : final step (new rxPackets) events = some s)
    (stopped : s.resume = .stopped) : s.records.take 5 = List.replicate 5 (.result true) := by
  have counted : s.Counted := by
    apply @inv_of_final _ _ _ Counted (fun s event => s.noticed event = true) _ _ _ _ _ noticed ran
    · exact fun _ _ _ counted noticed stepped => counted.step noticed stepped
    · exact fun _ => List.nil_prefix
  rw [Counted, stopped] at counted
  obtain ⟨⟨rest, eq⟩, enough⟩ := counted
  rw [← eq, List.take_append_of_le_length (by simpa using enough), List.take_replicate,
    Nat.min_eq_left enough]

/-- A packet comes and a ping is answered, and then five are lost. -/
def answeredThenLost : List LoopEvent :=
  [.packet] ++ List.replicate 4 (.advance false) ++ List.replicate 19 (.advance true)

theorem five_losses_stop :
    ∃ s, final step (new 3) answeredThenLost = some s ∧ .packet ∈ s.records ∧
      .result false ∈ s.records ∧ s.records.take 5 = List.replicate 5 (.result true) :=
  ⟨_, rfl, by decide, by decide,
    @stopped_after_losses 3 answeredThenLost _ (by decide) rfl rfl⟩

/-- A packet that comes between the readings for the first loss is not noticed. -/
theorem packet_between_missed :
    ∃ s, final step (new 3)
        ([.advance true, .advance true, .packet] ++ List.replicate 17 (.advance true)) = some s ∧
      s.resume = .stopped ∧ .packet ∈ s.records.take 5 :=
  ⟨_, rfl, rfl, by decide⟩

end ResultLoop

end PeerLink.Peers
