import PeerLink.Route.Addresses

/-!
# Looking up the peer of an address

`get_peer_id_by_ipv4` answers from the address maps of the route table. Among proxied
networks it takes the first that contains the address, whichever the hash map hands out
first, so nested networks of several peers have no answer of their own.
-/

namespace PeerLink.Route

open Packet

namespace RouteTable

/-- The first network that contains the address, in the order of the hash map. -/
def getPeerIdForProxy (t : RouteTable) (order : IterOrder (Σ _ : Cidr, PeerIdAndVersion))
    (ipv4 : Ipv4Addr) : Option PeerId :=
  ((order.order t.cidrPeerIdMap.entries).find? fun item => item.1.contains (.v4 ipv4)).map
    (·.2.peerId)

def getPeerIdByIpv4 (t : RouteTable) (order : IterOrder (Σ _ : Cidr, PeerIdAndVersion))
    (ipv4 : Ipv4Addr) : Option PeerId :=
  match t.ipv4PeerIdMap.lookup ipv4 with
  | some p => some p.peerId
  | none => t.getPeerIdForProxy order ipv4

end RouteTable

/-! ## The most specific network -/

/-- Networks of one length that share an address are the same. -/
theorem Cidr.eq_of_contains {cidr other : Cidr} {ip : IpAddr} (here : cidr.contains ip = true)
    (there : other.contains ip = true) (same : cidr.networkLength = other.networkLength) :
    cidr = other := by
  obtain ⟨cidr, wf⟩ := cidr
  obtain ⟨other, wf'⟩ := other
  rw [Subtype.mk.injEq]
  cases cidr <;> cases other <;> cases ip <;>
    simp only [contains, Acl.IpCidr.contains, beq_iff_eq, Bool.false_eq_true] at here there
  -- what is left is of one family
  all_goals
    cases same
    rw [← wf.2, ← wf'.2, ← here, there]

/-- The entry of the longest network that contains the address. -/
structure MostSpecific (m : AddressMap Cidr) (ip : IpAddr) (cidr : Cidr) (v : PeerIdAndVersion) :
    Prop where
  stored : m.lookup cidr = some v
  contains : cidr.contains ip = true
  longest : ∀ other w, m.lookup other = some w → other.contains ip = true →
    other.networkLength ≤ cidr.networkLength

section
variable {m : AddressMap Cidr} {ip : IpAddr} {cidr other : Cidr} {v w : PeerIdAndVersion}

theorem MostSpecific.unique (h : MostSpecific m ip cidr v) (h' : MostSpecific m ip other w) :
    v = w := by
  have lengths : cidr.networkLength = other.networkLength :=
    le_antisymm (h'.longest cidr v h.stored h.contains) (h.longest other w h'.stored h'.contains)
  obtain rfl := Cidr.eq_of_contains h.contains h'.contains lengths
  exact Option.some.inj (h.stored.symm.trans h'.stored)

theorem exists_mostSpecific (stored : m.lookup cidr = some v) (inside : cidr.contains ip = true) :
    ∃ best w, MostSpecific m ip best w := by
  have keyed : ∀ {c w}, m.lookup c = some w → c ∈ m.keys.toFinset := by
    intro c w found
    rw [List.mem_toFinset, ← AList.mem_keys, ← AList.lookup_isSome, found]
    rfl
  have some_match : (m.keys.toFinset.filter (·.contains ip = true)).Nonempty :=
    ⟨cidr, Finset.mem_filter.mpr ⟨keyed stored, inside⟩⟩
  obtain ⟨best, mem, longest⟩ := Finset.exists_max_image _ Cidr.networkLength some_match
  obtain ⟨key, contains⟩ := Finset.mem_filter.mp mem
  rw [List.mem_toFinset, ← AList.mem_keys, ← AList.lookup_isSome] at key
  obtain ⟨w, found⟩ := Option.isSome_iff_exists.mp key
  refine ⟨best, w, found, contains, fun other w' found' contains' => ?_⟩
  exact longest other (Finset.mem_filter.mpr ⟨keyed found', contains'⟩)

end

/-- The order that hands out `first` before everything else. -/
def IterOrder.first {α : Type} [DecidableEq α] (first : α) : IterOrder α where
  order l := if first ∈ l then first :: l.erase first else l
  perm l := by
    by_cases mem : first ∈ l
    · rw [if_pos mem]
      exact (List.perm_cons_erase mem).symm
    · rw [if_neg mem]

section
variable {t : RouteTable} {ipv4 : Ipv4Addr} {cidr : Cidr} {v : PeerIdAndVersion}

/-- An answer is the peer of some network that contains the address. -/
theorem getPeerIdForProxy_sound {order : IterOrder (Σ _ : Cidr, PeerIdAndVersion)} {p : PeerId}
    (answer : t.getPeerIdForProxy order ipv4 = some p) :
    ∃ cidr v, t.cidrPeerIdMap.lookup cidr = some v ∧ cidr.contains (.v4 ipv4) = true ∧
      v.peerId = p := by
  obtain ⟨item, found, rfl⟩ := Option.map_eq_some_iff.mp answer
  have stored := order.mem_entries.mp (List.mem_of_find?_eq_some found)
  have inside : item.1.contains (.v4 ipv4) = true := by
    have matched := List.find?_some found
    exact matched
  exact ⟨item.1, item.2, stored, inside, rfl⟩

theorem getPeerIdForProxy_isSome (order : IterOrder (Σ _ : Cidr, PeerIdAndVersion))
    (stored : t.cidrPeerIdMap.lookup cidr = some v) (inside : cidr.contains (.v4 ipv4) = true) :
    ∃ p, t.getPeerIdForProxy order ipv4 = some p := by
  apply Option.isSome_iff_exists.mp
  rw [RouteTable.getPeerIdForProxy, Option.isSome_map, List.find?_isSome]
  exact ⟨⟨cidr, v⟩, order.mem_entries.mpr stored, inside⟩

/-- Some order answers with any of the networks. -/
theorem getPeerIdForProxy_first (stored : t.cidrPeerIdMap.lookup cidr = some v)
    (inside : cidr.contains (.v4 ipv4) = true) :
    t.getPeerIdForProxy (.first ⟨cidr, v⟩) ipv4 = some v.peerId := by
  have mem : (⟨cidr, v⟩ : Σ _ : Cidr, PeerIdAndVersion) ∈ t.cidrPeerIdMap.entries :=
    AList.mem_lookup_iff.mp stored
  simp [RouteTable.getPeerIdForProxy, IterOrder.first, mem, inside]

end

/-- **Longest prefix.** For an address in some network of the table, every order of the
hash map gives the peer of the most specific network exactly if all networks that contain
the address belong to one peer. -/
theorem proxy_longest_prefix_iff (t : RouteTable) (ipv4 : Ipv4Addr)
    (covered : ∃ cidr v, t.cidrPeerIdMap.lookup cidr = some v ∧
      cidr.contains (.v4 ipv4) = true) :
    (∀ order, ∃ cidr v, MostSpecific t.cidrPeerIdMap (.v4 ipv4) cidr v ∧
        t.getPeerIdForProxy order ipv4 = some v.peerId) ↔
      ∀ cidr v other w, t.cidrPeerIdMap.lookup cidr = some v → cidr.contains (.v4 ipv4) = true →
        t.cidrPeerIdMap.lookup other = some w → other.contains (.v4 ipv4) = true →
          v.peerId = w.peerId := by
  constructor
  · intro longest cidr v other w stored inside stored' inside'
    obtain ⟨best, b, specific, answer⟩ := longest (.first ⟨cidr, v⟩)
    obtain ⟨best', b', specific', answer'⟩ := longest (.first ⟨other, w⟩)
    rw [getPeerIdForProxy_first stored inside] at answer
    rw [getPeerIdForProxy_first stored' inside'] at answer'
    rw [Option.some.inj answer, Option.some.inj answer', specific.unique specific']
  · intro one order
    obtain ⟨cidr, v, stored, inside⟩ := covered
    obtain ⟨best, b, specific⟩ := exists_mostSpecific stored inside
    obtain ⟨p, answer⟩ := getPeerIdForProxy_isSome order stored inside
    obtain ⟨found, w, stored', inside', rfl⟩ := getPeerIdForProxy_sound answer
    refine ⟨best, b, specific, answer.trans (congrArg some ?_)⟩
    exact one found w best b stored' inside' specific.stored specific.contains

/-! ### A network inside another -/

def wideCidr : Cidr := ⟨.v4 0x0a000000#32 8, by decide⟩

/-- 10.0.0.0/8 belongs to peer 2 and 10.1.0.0/16 to peer `inner`. -/
def nestedTable (inner : PeerId) : RouteTable :=
  { RouteTable.new with
    cidrPeerIdMap := [⟨wideCidr, ⟨2, 1⟩⟩, ⟨proxyCidr, ⟨inner, 1⟩⟩].toAList }

theorem nested_covered (inner : PeerId) :
    ∃ cidr v, (nestedTable inner).cidrPeerIdMap.lookup cidr = some v ∧
      cidr.contains (.v4 0x0a010001#32) = true :=
  ⟨wideCidr, ⟨2, 1⟩, rfl, by decide⟩

theorem nested_one_peer_longest :
    (∃ cidr v, (nestedTable 2).cidrPeerIdMap.lookup cidr = some v ∧
        cidr.contains (.v4 0x0a010001#32) = true) ∧
      ∀ order, ∃ cidr v,
        MostSpecific (nestedTable 2).cidrPeerIdMap (.v4 0x0a010001#32) cidr v ∧
          (nestedTable 2).getPeerIdForProxy order 0x0a010001#32 = some v.peerId := by
  have owner : ∀ item ∈ (nestedTable 2).cidrPeerIdMap.entries, item.2.peerId = 2 := by decide
  refine ⟨nested_covered 2, ?_⟩
  refine (proxy_longest_prefix_iff (nestedTable 2) 0x0a010001#32 (nested_covered 2)).mpr ?_
  intro cidr v other w stored _ stored' _
  rw [owner ⟨cidr, v⟩ (AList.mem_lookup_iff.mp stored),
    owner ⟨other, w⟩ (AList.mem_lookup_iff.mp stored')]

/-- The wider network is handed out first, and its peer gets what is for 10.1.0.1. -/
theorem nested_not_longest :
    (∃ cidr v, (nestedTable 3).cidrPeerIdMap.lookup cidr = some v ∧
        cidr.contains (.v4 0x0a010001#32) = true) ∧
      MostSpecific (nestedTable 3).cidrPeerIdMap (.v4 0x0a010001#32) proxyCidr ⟨3, 1⟩ ∧
      (nestedTable 3).getPeerIdForProxy (.stored _) 0x0a010001#32 = some 2 := by
  refine ⟨nested_covered 3, ⟨rfl, by decide, fun other w stored _ => ?_⟩, by decide⟩
  have lengths : ∀ item ∈ (nestedTable 3).cidrPeerIdMap.entries,
      item.1.networkLength ≤ proxyCidr.networkLength := by decide
  exact lengths ⟨other, w⟩ (AList.mem_lookup_iff.mp stored)

end PeerLink.Route
