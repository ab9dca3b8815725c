import Mathlib.Logic.Function.Basic
import PeerLink.Schedule.Along

/-!
# Clients of the VPN portal

The first packet of a WireGuard client enters its address into a table, over the entry of an earlier
client with the same address. When a connection ends, the entry goes if it has the endpoint address
of the connection, which is not always the connection that has made it.
-/

namespace PeerLink.VpnPortal

open Function (update update_of_ne update_self)
open Schedule

variable {Ip Url : Type}

/-- The sink is given by the number of its connection. -/
structure ClientEntry (Url : Type) where
  endpointAddr : Option Url
  sink : Nat

/-- A call of `handle_incoming_conn`. -/
inductive Conn (Ip : Type) where
  | unregistered
  | registered (mapKey : Ip)
  | ended

/-- `latest` is the connection that has inserted last; no code reads it. -/
structure WireGuardImpl (Ip Url : Type) where
  wgPeerIpTable : Ip → Option (ClientEntry Url)
  conns : Nat → Conn Ip
  latest : Ip → Option Nat

inductive ConnEvent (Ip : Type) where
  | packet (conn : Nat) (source : Ip)
  /-- the stream ends, and the loop with it -/
  | finish (conn : Nat)

namespace WireGuardImpl

def new : WireGuardImpl Ip Url := ⟨fun _ => none, fun _ => .unregistered, fun _ => none⟩

variable [DecidableEq Ip] [DecidableEq Url]

def removeIf (s : WireGuardImpl Ip Url) (ip : Ip) (endpointAddr : Option Url) :
    WireGuardImpl Ip Url :=
  if (s.wgPeerIpTable ip).any (·.endpointAddr = endpointAddr) then
    { s with wgPeerIpTable := update s.wgPeerIpTable ip none }
  else s

variable (remoteAddr : Nat → Option Url)

variable (s : WireGuardImpl Ip Url)

/-- Connection `i` comes from `remoteAddr i`. -/
def step : ConnEvent Ip → WireGuardImpl Ip Url
  | .packet i source =>
    match s.conns i with
    | .unregistered =>
      { wgPeerIpTable := update s.wgPeerIpTable source (some ⟨remoteAddr i, i⟩)
        conns := update s.conns i (.registered source)
        latest := update s.latest source (some i) }
    | _ => s
  | .finish i =>
    let ended := { s with conns := update s.conns i .ended }
    match s.conns i with
    | .registered ip => ended.removeIf ip (remoteAddr i)
    | _ => ended

/-- The connection that has inserted last has its entry until it ends. -/
def Kept : Prop :=
  ∀ ip i, s.latest ip = some i → s.conns i = .registered ip →
    s.wgPeerIpTable ip = some ⟨remoteAddr i, i⟩

/-- A connection does not end while a later one with its address and its endpoint is open. -/
def Apart (event : ConnEvent Ip) : Prop :=
  ∀ i j ip, event = .finish i → s.conns i = .registered ip → s.latest ip = some j → j ≠ i →
    s.conns j = .registered ip → remoteAddr j ≠ remoteAddr i

variable {remoteAddr}

section
variable {s : WireGuardImpl Ip Url} {i : Nat} {ip : Ip} (kept : s.Kept remoteAddr)
include kept

omit [DecidableEq Ip] [DecidableEq Url] in
theorem Kept.ended : Kept remoteAddr { s with conns := update s.conns i .ended } := by
  intro ip j latest here
  by_cases same : j = i
  · subst same
    cases (update_self j _ s.conns).symm.trans here
  · exact kept ip j latest ((update_of_ne same _ s.conns).symm.trans here)

theorem finish_kept (here : s.conns i = .registered ip) :
    (removeIf { s with conns := update s.conns i .ended } ip (remoteAddr i)).Kept remoteAddr ↔
      s.Apart remoteAddr (.finish i) := by
  constructor
  · rintro kept' _ j _ ⟨⟩ same latest ne other endpoint
    cases here.symm.trans same
    have gone := kept' ip j
    simp [removeIf, kept ip j latest other, latest, ne, other, endpoint] at gone
  · intro apart
    unfold removeIf
    split
    · rename_i same
      intro ip' j latest lives
      have entry : s.wgPeerIpTable ip' = _ := kept.ended ip' j latest lives
      refine (update_of_ne (fun eq => ?_) _ _).trans entry
      subst eq
      have ne : j ≠ i := by
        rintro rfl
        simp at lives
      exact apart i j ip' rfl here latest ne (by simpa [ne] using lives)
        (by simpa [entry] using same)
    · exact kept.ended

theorem step_kept (event : ConnEvent Ip) :
    (s.step remoteAddr event).Kept remoteAddr ↔ s.Apart remoteAddr event := by
  cases event with
  | packet i source =>
    refine iff_of_true ?_ nofun
    simp only [step]
    split
    · intro ip j latest here
      by_cases same : ip = source
      · subst same
        cases (update_self ip _ s.latest).symm.trans latest
        exact update_self ..
      · have before := (update_of_ne same _ s.latest).symm.trans latest
        refine (update_of_ne same ..).trans (kept ip j before ?_)
        by_cases own : j = i
        · subst own
          cases (update_self j _ s.conns).symm.trans here
          exact absurd rfl same
        · exact (update_of_ne own _ s.conns).symm.trans here
    · exact kept
  | finish i =>
    simp only [step]
    split
    · exact finish_kept kept ‹_›
    · rename_i other
      refine iff_of_true kept.ended ?_
      rintro _ j ip ⟨⟩ here
      exact absurd here (other ip)

end

/-- **A connection that ends leaves later entries alone**, just if none of them has its address and
its endpoint. -/
theorem later_entries_kept_iff (events : List (ConnEvent Ip)) :
    (∀ s ∈ visited (fun s event => some (step remoteAddr s event)) new events, s.Kept remoteAddr) ↔
      ∀ move ∈ moves (fun s event => some (step remoteAddr s event)) new events,
        move.1.Apart remoteAddr move.2 := by
  apply @visited_iff_moves _ _ _ (fun _ => True) (Apart remoteAddr) _ _ fun _ => True
  · exact fun s event _ _ kept => ⟨_, rfl, trivial, step_kept kept event⟩
  · exact fun _ _ => trivial
  · trivial
  · exact nofun

/-- A client comes back from its endpoint before its first connection is cleaned up: then the
entry of the second goes, which is open still. -/
theorem reconnected_entry_removed :
    let back := [.packet 0 1, .packet 1 1].foldl (step fun _ => some 5)
      (new : WireGuardImpl Nat Nat)
    let cleaned := back.step (fun _ => some 5) (.finish 0)
    back.wgPeerIpTable 1 = some ⟨some 5, 1⟩ ∧ cleaned.conns 1 = .registered 1 ∧
      cleaned.wgPeerIpTable 1 = none := ⟨rfl, rfl, rfl⟩

end WireGuardImpl

end PeerLink.VpnPortal
