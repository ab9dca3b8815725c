import Mathlib.Logic.Function.Basic
import PeerLink.Schedule.Along

/-!
# The WireGuard listener

The receive loop tests whether the sender of a datagram is in the map of peers, inserts it if not,
and then looks it up. The cleaner drops idle and stopped peers at any moment, also between the test
and the lookup.
-/

namespace PeerLink.Wg

structure WgPeer where
  accessTime : Nat
  stopped : Bool

/-- What the receive loop does next. -/
inductive ReceiveLoop (Addr : Type) where
  | receive
  | containsKey (addr : Addr)
  | insert (addr : Addr)
  | get (addr : Addr)
  | handle (addr : Addr)

/-- Times are in seconds. -/
structure Listener (Addr : Type) where
  peerMap : Addr → Option WgPeer
  loop : ReceiveLoop Addr
  now : Nat

inductive ListenerEvent (Addr : Type) where
  /-- the receive loop takes its next step; a datagram that it receives is from `sender` -/
  | loop (sender : Addr)
  | retain
  /-- the task that sends to the peer ends -/
  | stop (addr : Addr)
  | wait (seconds : Nat)

namespace Listener

variable {Addr : Type} [DecidableEq Addr]

def new : Listener Addr := ⟨fun _ => none, .receive, 0⟩

variable (s : Listener Addr)

def keeps (peer : WgPeer) : Bool :=
  s.now - peer.accessTime < 61 && !peer.stopped

def set (addr : Addr) (peer : Option WgPeer) : Listener Addr :=
  { s with peerMap := Function.update s.peerMap addr peer }

/-- `none` is the panic of the lookup. -/
def step : ListenerEvent Addr → Option (Listener Addr)
  | .loop sender =>
    match s.loop with
    | .receive => some { s with loop := .containsKey sender }
    | .containsKey addr =>
      some { s with loop := if (s.peerMap addr).isSome then .get addr else .insert addr }
    | .insert addr => some { s.set addr (some ⟨s.now, false⟩) with loop := .get addr }
    | .get addr => (s.peerMap addr).map fun _ => { s with loop := .handle addr }
    | .handle addr =>
      some { s.set addr ((s.peerMap addr).map ({ · with accessTime := s.now })) with
        loop := .receive }
  | .retain => some { s with peerMap := fun addr => (s.peerMap addr).filter s.keeps }
  | .stop addr => some (s.set addr ((s.peerMap addr).map ({ · with stopped := true })))
  | .wait seconds => some { s with now := s.now + seconds }

/-- A lookup that comes next finds an entry. -/
def Finds : Prop := ∀ addr, s.loop = .get addr → (s.peerMap addr).isSome

/-- The cleaner does not run between the test or the insertion and the lookup of a peer that is idle
or stopped. -/
def Spares (event : ListenerEvent Addr) : Prop :=
  event matches .retain → ∀ addr, s.loop = .get addr → (s.peerMap addr).all s.keeps

theorem step_finds (event : ListenerEvent Addr) (finds : s.Finds) :
    ∃ s', s.step event = some s' ∧ (s'.Finds ↔ s.Spares event) := by
  obtain ⟨peerMap, loop, now⟩ := s
  cases event with
  | loop sender =>
    cases loop with
    | receive => exact ⟨_, rfl, by simp [Finds, Spares]⟩
    | containsKey addr =>
      refine ⟨_, rfl, ?_⟩
      cases known : peerMap addr <;> simp [Finds, Spares, known]
    | insert addr | handle addr => exact ⟨_, rfl, by simp [Finds, Spares, set]⟩
    | get addr =>
      obtain ⟨peer, found⟩ := Option.isSome_iff_exists.mp (finds addr rfl)
      exact ⟨_, Option.map_eq_some_iff.mpr ⟨peer, found, rfl⟩, by simp [Finds, Spares]⟩
  | retain =>
    refine ⟨_, rfl, ?_⟩
    simp only [Finds, Spares, forall_true_left]
    refine forall₂_congr fun addr at_ => ?_
    obtain ⟨peer, found⟩ : ∃ peer, peerMap addr = some peer :=
      Option.isSome_iff_exists.mp (finds addr at_)
    simp [found, Option.isSome_filter]
  | stop addr =>
    refine ⟨_, rfl, iff_of_true (fun other at_ => ?_) (by simp [Spares])⟩
    have here := finds other at_
    by_cases same : other = addr
    · subst same
      simpa [set] using here
    · simpa [set, same] using here
  | wait seconds => exact ⟨_, rfl, iff_of_true finds (by simp [Spares])⟩

/-- **The lookup finds the peer** in every state of a run, just if the cleaner spares the peer that
the receive loop is about to look up. -/
theorem lookups_find_iff (events : List (ListenerEvent Addr)) :
    (∀ s ∈ Schedule.visited step new events, s.Finds) ↔
      ∀ move ∈ Schedule.moves step new events, move.1.Spares move.2 := by
  apply @Schedule.visited_iff_moves _ _ step (fun _ => True) Spares _ _ fun _ => True
  · intro s event _ _ finds
    obtain ⟨s', stepped, spares⟩ := step_finds s event finds
    exact ⟨s', stepped, trivial, spares⟩
  · exact fun _ _ => trivial
  · trivial
  · exact nofun

/-- A peer that has been idle for 61 seconds sends again, and is dropped after the test. -/
theorem idle_peer_dropped :
    Schedule.final step (new : Listener Nat)
      [.loop 7, .loop 7, .loop 7, .loop 7, .loop 7, .wait 61, .loop 7, .loop 7, .retain,
        .loop 7] = none :=
  rfl

end Listener

end PeerLink.Wg
