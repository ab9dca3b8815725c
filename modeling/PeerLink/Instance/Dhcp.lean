import PeerLink.Packet.Ip

/-!
# The DHCP loop

`check_dhcp_ip_conflict` looks for an address that no peer has and creates the interface with it.
It compares addresses together with their prefix lengths, and an interface that cannot be created
leaves the address of the last iteration in place.
-/

namespace PeerLink.Instance

open Packet

/-- What an iteration finds, with the set of used addresses in the order that it is gone through:
`created` tells if an interface can be created. -/
structure DhcpInput where
  nicClosed : Bool
  routes : List (Option (Inet 32))
  usedIpv4 : List (Inet 32)
  enumerates : ∀ ip, ip ∈ usedIpv4 ↔ some ip ∈ routes
  noTun : Bool
  created : Bool

/-- The address that the loop keeps, the one of the interface since it was last cleared, and the
global one. -/
structure DhcpState where
  currentDhcpIp : Option (Inet 32)
  nic : Option (Inet 32)
  ipv4 : Option (Inet 32)
  deriving DecidableEq

namespace DhcpInput
variable (input : DhcpInput)

def dhcpInet : Inet 32 := input.usedIpv4.head?.getD ⟨0x0a7e7e00#32, Inet.defaultLength⟩

/-- The addresses of the network in their order. -/
def networkIter : List (Inet 32) :=
  (List.range (2 ^ (32 - input.dhcpInet.networkLength.val))).map fun i =>
    ⟨input.dhcpInet.firstAddress ||| BitVec.ofNat 32 i, input.dhcpInet.networkLength⟩

def candidateIpv4Addr : Option (Inet 32) :=
  input.networkIter.find? fun ip => ip.address ≠ input.dhcpInet.firstAddress ∧
    ip.address ≠ input.dhcpInet.lastAddress ∧ ip ∉ input.usedIpv4

/-- The address is in the subnet and not conflicted. -/
def keeps (ip : Inet 32) : Bool :=
  ip.firstAddress = input.dhcpInet.firstAddress ∧
    ip.networkLength = input.dhcpInet.networkLength ∧ ip ∉ input.usedIpv4

end DhcpInput

namespace DhcpState

variable (s : DhcpState) (input : DhcpInput)

def reset : DhcpState :=
  if input.nicClosed then { s with currentDhcpIp := none } else s

/-- The change to the candidate, after `clear_nic_ctx`. -/
def change : DhcpState :=
  match input.candidateIpv4Addr with
  | none => ⟨none, none, none⟩
  | some ip =>
    if input.noTun then ⟨some ip, none, some ip⟩
    else if input.created then ⟨some ip, some ip, some ip⟩
    else { s with nic := none, ipv4 := none }

/-- Nobody is there, or the address of the last iteration stays. -/
def Stays : Prop :=
  input.routes = [] ∨ (s.reset input).currentDhcpIp.any input.keeps ∨
    (s.reset input).currentDhcpIp = input.candidateIpv4Addr
  deriving Decidable

/-- One iteration of the loop. -/
def iterate : DhcpState :=
  if s.Stays input then s.reset input else (s.reset input).change input

/-- The states that iterations lead to which all fit. -/
inductive Reached (fits : DhcpState → DhcpInput → Prop) : DhcpState → Prop
  | start (nic ipv4 : Option (Inet 32)) : Reached fits ⟨none, nic, ipv4⟩
  | iterate {s : DhcpState} {input : DhcpInput} : Reached fits s → fits s input →
      Reached fits (s.iterate input)

/-- An own address is no peer's, and neither the first nor the last of its network. -/
def Free : Prop :=
  ∀ ip ∈ s.currentDhcpIp, (∀ other, some other ∈ input.routes → other.address ≠ ip.address) ∧
    ip.address ≠ ip.firstAddress ∧ ip.address ≠ ip.lastAddress

/-- The interface and the global address are those of the loop. -/
def Configured : Prop :=
  ∀ ip ∈ s.currentDhcpIp, s.nic = some ip ∧ s.ipv4 = some ip

/-- No peer has the address that the iteration keeps or changes to with another length; and where
an interface has to be created and cannot be, the address of the last iteration is free. -/
def Agreed : Prop :=
  (∀ ip ∈ if s.Stays input then (s.reset input).currentDhcpIp else input.candidateIpv4Addr,
    ∀ other ∈ input.usedIpv4, other.address = ip.address →
      other.networkLength = ip.networkLength) ∧
  (¬ s.Stays input → input.noTun = false → input.created = false →
    ∀ ip ∈ (s.reset input).currentDhcpIp, ∀ other ∈ input.usedIpv4, other.address ≠ ip.address)
  deriving Decidable

/-- Where the address changes there are interfaces, and one can be created unless the loop has no
address. -/
def Creatable : Prop :=
  ¬ s.Stays input → input.candidateIpv4Addr.isSome → input.noTun = false ∧
    (input.created = true ∨ (s.reset input).currentDhcpIp = none)
  deriving Decidable

theorem candidate_spec {input : DhcpInput} {ip : Inet 32}
    (chosen : input.candidateIpv4Addr = some ip) :
    ip.networkLength = input.dhcpInet.networkLength ∧ ip ∉ input.usedIpv4 ∧
      ip.address ≠ ip.firstAddress ∧ ip.address ≠ ip.lastAddress := by
  have free := List.find?_some chosen
  rw [decide_eq_true_eq] at free
  obtain ⟨i, bound, rfl⟩ := List.mem_map.mp (List.mem_of_find?_eq_some chosen)
  -- the host bits of the number do not reach the network
  have host : ∀ j (inside : j < 32), 32 ≤ j + input.dhcpInet.networkLength.val →
      (BitVec.ofNat 32 i)[j] = false := by
    intro j inside high
    rw [← BitVec.getLsbD_eq_getElem, BitVec.getLsbD_ofNat]
    simp only [inside, decide_true, Bool.true_and]
    exact Nat.testBit_lt_two_pow ((List.mem_range.mp bound).trans_le
      (Nat.pow_le_pow_right (by decide) (by omega)))
  refine ⟨rfl, free.2.2, fun first => free.1 ?_, fun last => free.2.1 ?_⟩
  · refine first.trans ?_
    ext j inside
    have := host j inside
    simp [Inet.firstAddress]
    grind only
  · refine last.trans ?_
    ext j inside
    have := host j inside
    simp [Inet.firstAddress, Inet.lastAddress]
    grind only

variable {s : DhcpState} {input : DhcpInput} {ip : Inet 32}

theorem reset_eq (same : (s.reset input).currentDhcpIp = some ip) : s.reset input = s := by
  unfold reset at same ⊢
  split at same
  · cases same
  · rename_i opened
    rw [if_neg opened]

/-- Where the address after an iteration comes from. -/
theorem current_of_iterate (current : (s.iterate input).currentDhcpIp = some ip) :
    (s.reset input).currentDhcpIp = some ip ∧
        (s.Stays input ∨ ¬ s.Stays input ∧ input.noTun = false ∧ input.created = false) ∨
      ¬ s.Stays input ∧ input.candidateIpv4Addr = some ip := by
  unfold iterate at current
  split at current
  · rename_i stays
    exact .inl ⟨current, .inl stays⟩
  · rename_i changes
    unfold change at current
    split at current
    · cases current
    · rename_i chosen
      split at current
      · exact .inr ⟨changes, chosen.trans current⟩
      · split at current
        · exact .inr ⟨changes, chosen.trans current⟩
        · exact .inl ⟨current, .inr ⟨changes, by simp_all⟩⟩

/-- **The loop's address is configured** where interfaces can be created. -/
theorem configured_of_creatable (reached : Reached Creatable s) : s.Configured := by
  induction reached with
  | start => exact nofun
  | @iterate s input _ fits ih =>
    unfold iterate
    split
    · intro ip current
      have same := reset_eq current
      rw [same] at current ⊢
      exact ih ip current
    · rename_i changes
      unfold change
      split
      · exact nofun
      · rename_i chosen
        obtain ⟨tun, created⟩ := fits changes (chosen ▸ rfl)
        rw [if_neg (by simp [tun])]
        split
        · exact fun ip current => ⟨current, current⟩
        · rename_i failed
          intro ip current
          cases (created.resolve_left failed).symm.trans current

/-- An iteration with peers at these addresses, in this order. -/
def found (addresses : List (Inet 32)) (created : Bool) : DhcpInput :=
  ⟨false, addresses.map some, addresses, by simp, false, created⟩

/-- Two peers, with prefixes of two lengths. -/
def twoPeers (created : Bool) : DhcpInput :=
  found [⟨0x0a000001#32, Inet.defaultLength⟩, ⟨0x0a000109#32, Fin.last 32⟩] created

theorem created_configured :
    let s := iterate ⟨none, none, none⟩ (twoPeers true)
    (s.iterate (twoPeers false)).currentDhcpIp = some ⟨0x0a000002#32, 24⟩ ∧
      (s.iterate (twoPeers false)).Configured :=
  ⟨by decide +kernel, configured_of_creatable
    (.iterate (.iterate (.start none none) (by decide +kernel)) (by decide +kernel))⟩

/-- The address of an interface is kept when it comes into use and no other can be created. -/
theorem failed_creation_keeps :
    let own : Inet 32 := ⟨0x0a000002#32, 24⟩
    let s := iterate (iterate ⟨none, none, none⟩ (found [⟨0x0a000001#32, 24⟩] true))
      (found [own] false)
    s.currentDhcpIp = some own ∧ s.nic = none ∧ s.ipv4 = none := by
  decide +kernel

end DhcpState

end PeerLink.Instance
