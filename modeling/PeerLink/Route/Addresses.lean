import Mathlib.Data.List.TakeWhile
import PeerLink.Acl.Rules
import PeerLink.Route.Forwarding

/-!
# Which peer has an address

`RouteTable` with the maps from addresses and proxied networks to peers. The loop of
`build_from_synced_info` that fills them is `Best.keep` with the path length as the
rank, an entry of an older build being worse than any new one.
-/

namespace PeerLink.Route

open Best Packet PeerLink.Graph

/-! ## Networks -/

/-- The prefix fits, and no bit is set behind it. -/
def CidrWellFormed : Acl.IpCidr → Prop
  | .v4 network length => length ≤ 32 ∧ network >>> (32 - length) <<< (32 - length) = network
  | .v6 network length => length ≤ 128 ∧ network >>> (128 - length) <<< (128 - length) = network

instance : DecidablePred CidrWellFormed
  | .v4 _ _ | .v6 _ _ => inferInstanceAs (Decidable (_ ≤ _ ∧ _ = _))

/-- `cidr::IpCidr`, which can only be built without host bits. -/
abbrev Cidr := {cidr : Acl.IpCidr // CidrWellFormed cidr}

namespace Cidr

def networkLength (cidr : Cidr) : Nat :=
  match cidr.1 with
  | .v4 _ length | .v6 _ length => length

def contains (cidr : Cidr) (ip : IpAddr) : Bool := cidr.1.contains ip

end Cidr

/-! ## The table -/

structure PeerIdAndVersion where
  peerId : PeerId
  version : Version
  deriving DecidableEq

abbrev AddressMap (K : Type) := AList fun _ : K => PeerIdAndVersion

structure RouteTable extends NextHopTable where
  peerInfos : PeerMap RoutePeerInfo
  ipv4PeerIdMap : AddressMap Ipv4Addr
  ipv6PeerIdMap : AddressMap Ipv6Addr
  cidrPeerIdMap : AddressMap Cidr

namespace RouteTable

def new : RouteTable := ⟨.new, ∅, ∅, ∅, ∅⟩

end RouteTable

/-- The closure `is_new_peer_better`. -/
def isNewPeerBetter (t : NextHopTable) (newPeer : PeerIdAndVersion) (newNextHop : NextHopInfo)
    (oldPeer : PeerIdAndVersion) : Bool :=
  if oldPeer.version < newPeer.version then
    true
  else if newPeer.peerId = oldPeer.peerId then
    false
  else
    match t.getNextHop oldPeer.peerId with
    | none => true
    | some oldNextHop => newNextHop.pathLen < oldNextHop.pathLen

/-- `entry(..).and_modify(..).or_insert(..)`, the same for all three maps. -/
def putAddress {K : Type} [DecidableEq K] (t : NextHopTable) (newPeer : PeerIdAndVersion)
    (newNextHop : NextHopInfo) (m : AddressMap K) (key : K) : AddressMap K :=
  match m.lookup key with
  | some oldPeer =>
    if isNewPeerBetter t newPeer newNextHop oldPeer then m.insert key newPeer else m
  | none => m.insert key newPeer

/-- An address that an info may leave out. -/
def putOptional {K : Type} [DecidableEq K] (t : NextHopTable) (newPeer : PeerIdAndVersion)
    (newNextHop : NextHopInfo) (m : AddressMap K) : Option K → AddressMap K
  | none => m
  | some key => putAddress t newPeer newNextHop m key

/-- The loop over `proxy_cidrs`. Parsing is unwrapped: the flag says that it panicked. -/
def putCidrs (parse : String → Option Cidr) (t : NextHopTable) (newPeer : PeerIdAndVersion)
    (newNextHop : NextHopInfo) : AddressMap Cidr → List String → AddressMap Cidr × Bool
  | m, [] => (m, false)
  | m, text :: rest =>
    match parse text with
    | none => (m, true)
    | some cidr =>
      putCidrs parse t newPeer newNextHop (putAddress t newPeer newNextHop m cidr) rest

def ipv6AddrOf (info : RoutePeerInfo) : Option Ipv6Addr := info.ipv6Addr.bind (·.address)

/-- One pass of the loop that fills the address maps. -/
def putPeer (parse : String → Option Cidr) (syncedInfo : SyncedRouteInfo) (t : RouteTable)
    (item : Σ _ : PeerId, NextHopInfo) : RouteTable × Bool :=
  if item.2.version < syncedInfo.version then
    (t, false)
  else
    match syncedInfo.peerInfos.lookup item.1 with
    | none => (t, false)
    | some info =>
      let hops := t.toNextHopTable
      let newPeer : PeerIdAndVersion := ⟨item.1, syncedInfo.version⟩
      let (cidrs, panicked) :=
        putCidrs parse hops newPeer item.2 t.cidrPeerIdMap info.proxyCidrs
      ({ t with
          peerInfos := t.peerInfos.insert item.1 info
          ipv4PeerIdMap := putOptional hops newPeer item.2 t.ipv4PeerIdMap info.ipv4Addr
          ipv6PeerIdMap := putOptional hops newPeer item.2 t.ipv6PeerIdMap (ipv6AddrOf info)
          cidrPeerIdMap := cidrs }, panicked)

/-- A panic ends the loop and leaves what was put before it. -/
def putPeers (parse : String → Option Cidr) (syncedInfo : SyncedRouteInfo) :
    RouteTable → List (Σ _ : PeerId, NextHopInfo) → RouteTable × Bool
  | t, [] => (t, false)
  | t, item :: rest =>
    match putPeer parse syncedInfo t item with
    | (t, true) => (t, true)
    | (t, false) => putPeers parse syncedInfo t rest

/-- `build_from_synced_info`; the flag says that it panicked. -/
def buildFromSyncedInfo (platform : Platform) (order : IterOrder (Σ _ : PeerId, NextHopInfo))
    (parse : String → Option Cidr) (t : RouteTable) (myPeerId : PeerId)
    (syncedInfo : SyncedRouteInfo) (policy : NextHopPolicy)
    (calculateCost : PeerId → PeerId → Int) : RouteTable × Bool :=
  match buildPeerGraphFromSyncedInfo platform myPeerId syncedInfo calculateCost with
  | none => (t, true)
  | some (graph, _) =>
    if graph.nodes.length = 0 then
      (t, false)
    else
      match buildNextHopMap platform t.toNextHopTable myPeerId syncedInfo policy calculateCost with
      | none => (t, true)
      | some hops =>
        putPeers parse syncedInfo { t with toNextHopTable := hops }
          (order.order hops.nextHopMap.entries)

/-! ## The loop keeps the nearest peer -/

/-- The path length of the entry's peer. An older entry, or one whose peer has no next
hop, is worse than any. -/
def pathRank (t : NextHopTable) (version : Version) (v : PeerIdAndVersion) : WithTop Nat :=
  if v.version < version then ⊤
  else
    match t.getNextHop v.peerId with
    | none => ⊤
    | some nextHop => WithTop.some nextHop.pathLen

section
variable {t : NextHopTable} {newPeer : PeerIdAndVersion} {newNextHop : NextHopInfo}

section
variable (found : t.getNextHop newPeer.peerId = some newNextHop)
include found

theorem pathRank_new : pathRank t newPeer.version newPeer = WithTop.some newNextHop.pathLen := by
  simp [pathRank, found]

/-- The three-way test compares ranks. -/
theorem isNewPeerBetter_iff (oldPeer : PeerIdAndVersion) :
    isNewPeerBetter t newPeer newNextHop oldPeer = true ↔
      pathRank t newPeer.version newPeer < pathRank t newPeer.version oldPeer := by
  rw [pathRank_new found]
  unfold isNewPeerBetter pathRank
  by_cases older : oldPeer.version < newPeer.version
  · simp [older]
  · by_cases same : newPeer.peerId = oldPeer.peerId
    · have same_hop : t.getNextHop oldPeer.peerId = some newNextHop := same ▸ found
      simp [older, same, same_hop]
    · cases t.getNextHop oldPeer.peerId with
      | none | some oldNextHop => simp [older, same]

theorem putAddress_keep {K : Type} [DecidableEq K] (m : AddressMap K) (key : K) :
    putAddress t newPeer newNextHop m key = keep (pathRank t newPeer.version) m key newPeer := by
  unfold putAddress keep
  cases m.lookup key with
  | none => rfl
  | some oldPeer => simp [isNewPeerBetter_iff found]

theorem putOptional_keep {K : Type} [DecidableEq K] (m : AddressMap K) (key : Option K) :
    putOptional t newPeer newNextHop m key =
      keepAll (pathRank t newPeer.version) m (key.toList.map fun key => (key, newPeer)) := by
  cases key with
  | none => rfl
  | some key => exact putAddress_keep found m key

end

/-- The networks that are parsed before the first text that is none. -/
def cidrsOf (parse : String → Option Cidr) (texts : List String) : List Cidr :=
  (texts.takeWhile fun text => (parse text).isSome).filterMap parse

theorem putCidrs_eq (parse : String → Option Cidr)
    (found : t.getNextHop newPeer.peerId = some newNextHop) (m : AddressMap Cidr)
    (texts : List String) :
    (putCidrs parse t newPeer newNextHop m texts).1 = keepAll (pathRank t newPeer.version) m
      ((cidrsOf parse texts).map fun cidr => (cidr, newPeer)) := by
  induction texts generalizing m with
  | nil => rfl
  | cons text rest ih =>
    unfold putCidrs
    cases parsed : parse text with
    | none => simp [cidrsOf, parsed, keepAll]
    | some cidr =>
      simp only [ih, putAddress_keep found]
      simp [cidrsOf, parsed, keepAll]

end

/-- Where all texts are networks, all are taken. -/
theorem mem_cidrsOf {parse : String → Option Cidr} {texts : List String}
    (parses : ∀ text ∈ texts, (parse text).isSome = true) {cidr : Cidr} :
    cidr ∈ cidrsOf parse texts ↔ ∃ text ∈ texts, parse text = some cidr := by
  rw [cidrsOf, List.takeWhile_eq_self_iff.mpr parses, List.mem_filterMap]

section
variable {K : Type} (syncedInfo : SyncedRouteInfo)

/-- What the loop puts into a map for one entry of the next hop map. -/
def adverts (keys : RoutePeerInfo → List K) (item : Σ _ : PeerId, NextHopInfo) :
    List (K × PeerIdAndVersion) :=
  if item.2.version < syncedInfo.version then []
  else
    match syncedInfo.peerInfos.lookup item.1 with
    | none => []
    | some info => (keys info).map fun key => (key, ⟨item.1, syncedInfo.version⟩)

theorem mem_adverts {keys : RoutePeerInfo → List K} {item : Σ _ : PeerId, NextHopInfo} {key : K}
    {v : PeerIdAndVersion} :
    (key, v) ∈ adverts syncedInfo keys item ↔ syncedInfo.version ≤ item.2.version ∧
      v = ⟨item.1, syncedInfo.version⟩ ∧
      ∃ info, syncedInfo.peerInfos.lookup item.1 = some info ∧ key ∈ keys info := by
  unfold adverts
  by_cases outdated : item.2.version < syncedInfo.version
  · simp [outdated]
  · rw [if_neg outdated]
    cases syncedInfo.peerInfos.lookup item.1 with
    | none => simp
    | some info => simp [not_lt.mp outdated, and_comm, eq_comm]

end

/-- What a run of the loop leaves in the table. -/
structure Puts (parse : String → Option Cidr) (syncedInfo : SyncedRouteInfo) (t : RouteTable)
    (items : List (Σ _ : PeerId, NextHopInfo)) (t' : RouteTable) : Prop where
  hops : t'.toNextHopTable = t.toNextHopTable
  ipv4 : t'.ipv4PeerIdMap = keepAll (pathRank t.toNextHopTable syncedInfo.version)
    t.ipv4PeerIdMap (items.flatMap (adverts syncedInfo (·.ipv4Addr.toList)))
  ipv6 : t'.ipv6PeerIdMap = keepAll (pathRank t.toNextHopTable syncedInfo.version)
    t.ipv6PeerIdMap (items.flatMap (adverts syncedInfo fun info => (ipv6AddrOf info).toList))
  cidr : t'.cidrPeerIdMap = keepAll (pathRank t.toNextHopTable syncedInfo.version)
    t.cidrPeerIdMap (items.flatMap (adverts syncedInfo fun info => cidrsOf parse info.proxyCidrs))

/-- The entry is current, and its peer advertises a text that is no network. -/
def Unparsable (parse : String → Option Cidr) (syncedInfo : SyncedRouteInfo)
    (item : Σ _ : PeerId, NextHopInfo) : Prop :=
  syncedInfo.version ≤ item.2.version ∧ ∃ info, syncedInfo.peerInfos.lookup item.1 = some info ∧
    ∃ text ∈ info.proxyCidrs, parse text = none

section
variable {parse : String → Option Cidr} {syncedInfo : SyncedRouteInfo} {t t' t'' : RouteTable}
  {item : Σ _ : PeerId, NextHopInfo} {items items' : List (Σ _ : PeerId, NextHopInfo)}

theorem Puts.nil (t : RouteTable) : Puts parse syncedInfo t [] t := ⟨rfl, rfl, rfl, rfl⟩

theorem Puts.trans (first : Puts parse syncedInfo t items t')
    (second : Puts parse syncedInfo t' items' t'') :
    Puts parse syncedInfo t (items ++ items') t'' where
  hops := second.hops.trans first.hops
  ipv4 := by rw [List.flatMap_append, keepAll_append, ← first.ipv4, second.ipv4, first.hops]
  ipv6 := by rw [List.flatMap_append, keepAll_append, ← first.ipv6, second.ipv6, first.hops]
  cidr := by rw [List.flatMap_append, keepAll_append, ← first.cidr, second.cidr, first.hops]

theorem putPeer_puts
    (found : syncedInfo.version ≤ item.2.version → t.getNextHop item.1 = some item.2) :
    Puts parse syncedInfo t [item] (putPeer parse syncedInfo t item).1 := by
  unfold putPeer
  by_cases outdated : item.2.version < syncedInfo.version
  · rw [if_pos outdated]
    constructor <;> simp [adverts, outdated, keepAll]
  · rw [if_neg outdated]
    cases known : syncedInfo.peerInfos.lookup item.1 with
    | none => constructor <;> simp [adverts, known, keepAll]
    | some info =>
      have hop : t.getNextHop (PeerIdAndVersion.mk item.1 syncedInfo.version).peerId =
          some item.2 := found (not_lt.mp outdated)
      constructor
      · rfl
      · simp [putOptional_keep hop, adverts, outdated, known]
      · simp [putOptional_keep hop, adverts, outdated, known]
      · simp [putCidrs_eq parse hop, adverts, outdated, known]

theorem putCidrs_panics (parse : String → Option Cidr) (hops : NextHopTable)
    (newPeer : PeerIdAndVersion) (newNextHop : NextHopInfo) (m : AddressMap Cidr)
    (texts : List String) :
    (putCidrs parse hops newPeer newNextHop m texts).2 =
      texts.any fun text => (parse text).isNone := by
  induction texts generalizing m with
  | nil => rfl
  | cons text rest ih =>
    unfold putCidrs
    cases parsed : parse text with
    | none => simp [parsed]
    | some cidr => simp [ih, parsed]

theorem putPeer_panics_iff :
    (putPeer parse syncedInfo t item).2 = true ↔ Unparsable parse syncedInfo item := by
  unfold putPeer Unparsable
  by_cases outdated : item.2.version < syncedInfo.version
  · simp [outdated]
  · rw [if_neg outdated]
    cases known : syncedInfo.peerInfos.lookup item.1 with
    | none => simp
    | some info => simp [putCidrs_panics, not_lt.mp outdated]

/-- The loop returns exactly if nothing is left unparsed, whatever the table holds. -/
theorem putPeers_returns_iff :
    (putPeers parse syncedInfo t items).2 = false ↔
      ∀ item ∈ items, ¬ Unparsable parse syncedInfo item := by
  induction items generalizing t with
  | nil => simp [putPeers]
  | cons item rest ih =>
    have panics := @putPeer_panics_iff parse syncedInfo t item
    unfold putPeers
    cases step : putPeer parse syncedInfo t item with
    | mk mid panicked =>
      rw [step] at panics
      cases panicked with
      | true =>
        refine iff_of_false (by simp) fun none => ?_
        exact none item (by simp) (panics.mp rfl)
      | false =>
        simp only [List.forall_mem_cons, ih]
        exact ⟨fun none => ⟨fun bad => by simpa using panics.mpr bad, none⟩, And.right⟩

/-- A loop that returns has put everything. -/
theorem putPeers_puts
    (found : ∀ item ∈ items, syncedInfo.version ≤ item.2.version →
      t.getNextHop item.1 = some item.2)
    (returns : (putPeers parse syncedInfo t items).2 = false) :
    Puts parse syncedInfo t items (putPeers parse syncedInfo t items).1 := by
  induction items generalizing t with
  | nil => exact .nil t
  | cons item rest ih =>
    have puts := @putPeer_puts parse syncedInfo t item (found item (by simp))
    unfold putPeers at returns ⊢
    cases step : putPeer parse syncedInfo t item with
    | mk mid panicked =>
      rw [step] at puts returns
      cases panicked with
      | true => cases returns
      | false =>
        have later : ∀ other ∈ rest, syncedInfo.version ≤ other.2.version →
            mid.getNextHop other.1 = some other.2 := by
          intro other mem current
          have same : mid.toNextHopTable = t.toNextHopTable := puts.hops
          rw [same]
          exact found other (by simp [mem]) current
        exact puts.trans (ih later returns)

end

/-! ## Nearest advertisers -/

/-- `me` has a way to `p` over connections between known peers. -/
def Reaches (syncedInfo : SyncedRouteInfo) (me p : PeerId) : Prop :=
  syncedInfo.Known me ∧ Reachable (links syncedInfo) me p

section
variable {K : Type} (syncedInfo : SyncedRouteInfo) (me : PeerId)
  (advertises : RoutePeerInfo → K → Prop)

/-- A reachable peer whose info advertises `key`. -/
def Advertiser (key : K) (p : PeerId) : Prop :=
  Reaches syncedInfo me p ∧
    ∃ info, syncedInfo.peerInfos.lookup p = some info ∧ advertises info key

/-- Every advertised key is mapped to an advertiser with the least path length. -/
def Nearest [DecidableEq K] (t : NextHopTable) (m : AddressMap K) : Prop :=
  ∀ key p, Advertiser syncedInfo me advertises key p →
    ∃ v nextHop, m.lookup key = some v ∧ Advertiser syncedInfo me advertises key v.peerId ∧
      t.getNextHop v.peerId = some nextHop ∧
      ∀ q, Advertiser syncedInfo me advertises key q →
        ∃ other, t.getNextHop q = some other ∧ nextHop.pathLen ≤ other.pathLen

def AdvertisesIpv4 (info : RoutePeerInfo) (ip : Ipv4Addr) : Prop := info.ipv4Addr = some ip

def AdvertisesIpv6 (info : RoutePeerInfo) (ip : Ipv6Addr) : Prop := ipv6AddrOf info = some ip

def AdvertisesCidr (parse : String → Option Cidr) (info : RoutePeerInfo) (cidr : Cidr) : Prop :=
  ∃ text ∈ info.proxyCidrs, parse text = some cidr

/-- A next hop table that was just built: its entries of this version are the peers that
can be reached. -/
structure BuiltFor (syncedInfo : SyncedRouteInfo) (me : PeerId) (t : NextHopTable) : Prop where
  version : t.nextHopMapVersion = syncedInfo.version
  reaches : ∀ p, (∃ nextHop, t.getNextHop p = some nextHop) ↔ Reaches syncedInfo me p

variable {syncedInfo me advertises} {t : NextHopTable}

section
variable (built : BuiltFor syncedInfo me t)
include built

theorem BuiltFor.getNextHop_iff {p : PeerId} {nextHop : NextHopInfo} :
    t.getNextHop p = some nextHop ↔
      t.nextHopMap.lookup p = some nextHop ∧ syncedInfo.version ≤ nextHop.version := by
  rw [getNextHop_eq_some, built.version]

variable {keys : RoutePeerInfo → List K} {items : List (Σ _ : PeerId, NextHopInfo)}

variable (entries : ∀ item, item ∈ items ↔ t.nextHopMap.lookup item.1 = some item.2)
  (same : ∀ p info, Reaches syncedInfo me p → syncedInfo.peerInfos.lookup p = some info →
    ∀ key, key ∈ keys info ↔ advertises info key)
include entries same

/-- The candidates for a key are its advertisers. -/
theorem BuiltFor.candidates {key : K} {v : PeerIdAndVersion} :
    v ∈ candidatesFor (items.flatMap (adverts syncedInfo keys)) key ↔
      v.version = syncedInfo.version ∧ Advertiser syncedInfo me advertises key v.peerId := by
  simp only [candidatesFor, Set.mem_ofPred_eq, List.mem_flatMap, mem_adverts]
  constructor
  · rintro ⟨item, mem, current, rfl, info, found, hkey⟩
    have reached : Reaches syncedInfo me item.1 :=
      (built.reaches item.1).mp ⟨item.2, built.getNextHop_iff.mpr ⟨(entries item).mp mem, current⟩⟩
    exact ⟨rfl, reached, info, found, (same _ info reached found key).mp hkey⟩
  · rintro ⟨version, reached, info, found, hkey⟩
    obtain ⟨nextHop, hop⟩ := (built.reaches v.peerId).mpr reached
    obtain ⟨stored, current⟩ := built.getNextHop_iff.mp hop
    refine ⟨⟨v.peerId, nextHop⟩, (entries _).mpr stored, current, ?_, info, found,
      (same _ info reached found key).mpr hkey⟩
    rw [← version]

/-- Keeping the best of them over entries of older builds maps each key to its nearest
advertiser. -/
theorem BuiltFor.nearest [DecidableEq K] {m : AddressMap K}
    (older : ∀ key v, m.lookup key = some v → v.version < syncedInfo.version) :
    Nearest syncedInfo me advertises t (keepAll (pathRank t syncedInfo.version) m
      (items.flatMap (adverts syncedInfo keys))) := by
  intro key p advertiser
  have best := @keepAll_isBest _ _ _ _ _ (pathRank t syncedInfo.version) m
    (items.flatMap (adverts syncedInfo keys)) key
  have rank : ∀ v nextHop, v.version = syncedInfo.version → t.getNextHop v.peerId = some nextHop →
      pathRank t syncedInfo.version v = WithTop.some nextHop.pathLen := by
    intro v nextHop version hop
    rw [← version]
    exact pathRank_new hop
  have hops : ∀ q, Advertiser syncedInfo me advertises key q →
      ∃ nextHop, t.getNextHop q = some nextHop := fun q h => (built.reaches q).mpr h.1
  -- the entry that is kept ranks below every advertiser, so it is no older one
  have below q (hq : Advertiser syncedInfo me advertises key q) :=
    best.le ⟨q, syncedInfo.version⟩ ((built.candidates entries same).mpr ⟨rfl, hq⟩)
  obtain ⟨own, hop⟩ := hops p advertiser
  obtain ⟨v, stored, le⟩ := below p advertiser
  rw [rank ⟨p, syncedInfo.version⟩ own rfl hop] at le
  have fresh : v.version = syncedInfo.version ∧
      Advertiser syncedInfo me advertises key v.peerId := by
    cases best.from_ v stored with
    | inl old =>
      have worst : pathRank t syncedInfo.version v = ⊤ := by simp [pathRank, older key v old]
      rw [worst] at le
      exact absurd le (not_le.mpr (WithTop.coe_lt_top _))
    | inr new => exact (built.candidates entries same).mp new
  obtain ⟨nextHop, vhop⟩ := hops v.peerId fresh.2
  refine ⟨v, nextHop, stored, fresh.2, vhop, fun q hq => ?_⟩
  obtain ⟨other, qhop⟩ := hops q hq
  obtain ⟨v', stored', le'⟩ := below q hq
  cases Option.some.inj (stored.symm.trans stored')
  rw [rank v nextHop fresh.1 vhop, rank ⟨q, syncedInfo.version⟩ other rfl qhop] at le'
  exact ⟨other, qhop, WithTop.coe_le_coe.mp le'⟩

end

/-! ## One build -/

/-- A node that knows itself gets a next hop table of its reachable peers. -/
theorem buildNextHopMap_builtFor (platform : Platform) (policy : NextHopPolicy)
    (calculateCost : PeerId → PeerId → Int) (known : syncedInfo.Known me)
    (before : t.Before syncedInfo.version) :
    ∃ g start hops,
      buildPeerGraphFromSyncedInfo platform me syncedInfo calculateCost = some (g, start) ∧
      g.nodes.length ≠ 0 ∧
      buildNextHopMap platform t me syncedInfo policy calculateCost = some hops ∧
      BuiltFor syncedInfo me hops := by
  obtain ⟨g, start, built, node, rep⟩ := buildPeerGraph_spec platform calculateCost known
  have inside : start < g.nodes.length := (List.getElem?_eq_some_iff.mp node).1
  have nonempty : g.nodes.length ≠ 0 := by omega
  have peers : g.nodes ≠ [] := List.length_eq_zero_iff.not.mp nonempty
  have current : max t.nextHopMapVersion syncedInfo.version = syncedInfo.version :=
    max_eq_right before.current
  have reaches : ∀ {hops Chosen}, Fills g start hops Chosen →
      ∀ p, (∃ nextHop, hops.getNextHop p = some nextHop) ↔ Reaches syncedInfo me p := by
    intro hops Chosen fills p
    rw [rep.reachable node fills p]
    exact ⟨fun reach => ⟨known, reach⟩, And.right⟩
  cases policy with
  | leastHop =>
    obtain ⟨hops, run, fills⟩ := genNextHopMapWithLeastHop_spec platform rep.wf inside before
    refine ⟨g, start, hops, built, nonempty, by simp [buildNextHopMap, built, peers, run],
      ⟨?_, reaches fills⟩⟩
    rw [genNextHopMapWithLeastHop, if_pos inside] at run
    exact (genNextHopMapWithLeastCost_version run).trans current
  | leastCost =>
    obtain ⟨hops, run, fills⟩ := genNextHopMapWithLeastCost_spec platform rep.wf inside before
    exact ⟨g, start, hops, built, nonempty, by simp [buildNextHopMap, built, peers, run],
      (genNextHopMapWithLeastCost_version run).trans current, reaches fills⟩

/-- A node that does not know itself has no start node. -/
theorem buildPeerGraph_unknown (platform : Platform) (calculateCost : PeerId → PeerId → Int)
    (unknown : ¬ syncedInfo.Known me) :
    ∃ g, buildPeerGraphFromSyncedInfo platform me syncedInfo calculateCost =
        some (g, nodeIndexEnd) ∧ g.edges = [] ∧ g.nodes.Nodup ∧
      ∀ p, p ∈ g.nodes ↔ syncedInfo.Known p := by
  obtain ⟨good, nodes⟩ := collectPeers_spec platform me syncedInfo
  have none : (collectPeers platform me syncedInfo).start = none := by
    apply Option.eq_none_iff_forall_ne_some.mpr
    intro i found
    exact unknown ((nodes me).mp (List.mem_of_getElem? ((good.start i).mp found)))
  refine ⟨_, ?_, good.edges, good.nodup, nodes⟩
  simp [buildPeerGraphFromSyncedInfo, none]

/-- Peer ids are 32 bits wide, so there are not more nodes than that. -/
theorem length_le_of_ids {nodes : List PeerId} (nodup : nodes.Nodup)
    (ids : ∀ p ∈ nodes, p < 2 ^ 32) : nodes.length ≤ 2 ^ 32 := by
  have sub : nodes ⊆ List.range (2 ^ 32) := fun p mem => List.mem_range.mpr (ids p mem)
  have card := (List.subperm_of_subset nodup sub).length_le
  rwa [List.length_range] at card

/-- There are not enough peer ids for a graph without `me` to have a node at the last index. -/
theorem length_le_nodeIndexEnd {nodes : List PeerId} (nodup : nodes.Nodup)
    (ids : ∀ p ∈ nodes, p < 2 ^ 32) (mine : me < 2 ^ 32) (other : me ∉ nodes) :
    nodes.length ≤ nodeIndexEnd := by
  have all : (me :: nodes).length ≤ 2 ^ 32 := by
    refine length_le_of_ids (List.nodup_cons.mpr ⟨other, nodup⟩) fun p mem => ?_
    obtain rfl | mem := List.mem_cons.mp mem
    · exact mine
    · exact ids p mem
  exact Nat.le_sub_one_of_lt all

theorem buildNextHopMap_none {platform : Platform} {t : NextHopTable} {policy : NextHopPolicy}
    {calculateCost : PeerId → PeerId → Int} {g : PeerGraph} {start : Nat}
    (built : buildPeerGraphFromSyncedInfo platform me syncedInfo calculateCost = some (g, start))
    (nonempty : g.nodes.length ≠ 0) (outside : g.nodes.length ≤ start) :
    buildNextHopMap platform t me syncedInfo policy calculateCost = none := by
  have no_start : ¬ start < g.nodes.length := not_lt.mpr outside
  have peers : g.nodes ≠ [] := List.length_eq_zero_iff.not.mp nonempty
  cases policy with
  | leastHop => simp [buildNextHopMap, built, peers, genNextHopMapWithLeastHop, no_start]
  | leastCost => simp [buildNextHopMap, built, peers, genNextHopMapWithLeastCost, no_start]

end

/-- Everything in the table stems from builds of older versions. -/
structure RouteTable.Older (t : RouteTable) (version : Version) : Prop where
  hops : t.Before version
  ipv4 : ∀ key v, t.ipv4PeerIdMap.lookup key = some v → v.version < version
  ipv6 : ∀ key v, t.ipv6PeerIdMap.lookup key = some v → v.version < version
  cidr : ∀ key v, t.cidrPeerIdMap.lookup key = some v → v.version < version

theorem RouteTable.new_older (version : Version) : RouteTable.new.Older version where
  hops := NextHopTable.new_before version
  ipv4 := nofun
  ipv6 := nofun
  cidr := nofun

/-- Every address and network is mapped to its nearest advertiser. -/
structure NearestTable (parse : String → Option Cidr) (syncedInfo : SyncedRouteInfo) (me : PeerId)
    (t : RouteTable) : Prop where
  ipv4 : Nearest syncedInfo me AdvertisesIpv4 t.toNextHopTable t.ipv4PeerIdMap
  ipv6 : Nearest syncedInfo me AdvertisesIpv6 t.toNextHopTable t.ipv6PeerIdMap
  cidr : Nearest syncedInfo me (AdvertisesCidr parse) t.toNextHopTable t.cidrPeerIdMap

/-- Reachable peers advertise networks that can be parsed. -/
def ProxiesParse (parse : String → Option Cidr) (syncedInfo : SyncedRouteInfo) (me : PeerId) :
    Prop :=
  ∀ p info, Reaches syncedInfo me p → syncedInfo.peerInfos.lookup p = some info →
    ∀ text ∈ info.proxyCidrs, (parse text).isSome = true

/-- The loop meets no text that is no network exactly if no reachable peer advertises one. -/
theorem BuiltFor.parses_iff {syncedInfo : SyncedRouteInfo} {me : PeerId}
    {parse : String → Option Cidr} {t : NextHopTable} {items : List (Σ _ : PeerId, NextHopInfo)}
    (built : BuiltFor syncedInfo me t)
    (entries : ∀ item, item ∈ items ↔ t.nextHopMap.lookup item.1 = some item.2) :
    (∀ item ∈ items, ¬ Unparsable parse syncedInfo item) ↔ ProxiesParse parse syncedInfo me := by
  constructor
  · intro none p info reach stored text mem
    obtain ⟨nextHop, hop⟩ := (built.reaches p).mpr reach
    obtain ⟨entry, current⟩ := built.getNextHop_iff.mp hop
    by_contra unparsed
    exact none ⟨p, nextHop⟩ ((entries _).mpr entry) ⟨current, info, stored, text, mem,
      Option.not_isSome_iff_eq_none.mp unparsed⟩
  · rintro parses item mem ⟨current, info, stored, text, htext, unparsed⟩
    have reach := (built.reaches item.1).mp
      ⟨item.2, built.getNextHop_iff.mpr ⟨(entries item).mp mem, current⟩⟩
    simpa [unparsed] using parses item.1 info reach stored text htext

section
variable {syncedInfo : SyncedRouteInfo} {me : PeerId} {parse : String → Option Cidr}
  {t : RouteTable} (platform : Platform) (order : IterOrder (Σ _ : PeerId, NextHopInfo))
  (policy : NextHopPolicy) (calculateCost : PeerId → PeerId → Int)

/-- A node that knows itself builds the table unless a reachable peer advertises a text
that is no network. -/
theorem build_known (known : syncedInfo.Known me) (older : t.Older syncedInfo.version) :
    let result := buildFromSyncedInfo platform order parse t me syncedInfo policy calculateCost
    (result.2 = false ↔ ProxiesParse parse syncedInfo me) ∧
      (result.2 = false → NearestTable parse syncedInfo me result.1) := by
  obtain ⟨g, start, hops, graph, nonempty, run, built⟩ :=
    buildNextHopMap_builtFor platform policy calculateCost known older.hops
  have entries : ∀ item, item ∈ order.order hops.nextHopMap.entries ↔
      hops.nextHopMap.lookup item.1 = some item.2 := fun _ => order.mem_entries
  have result : buildFromSyncedInfo platform order parse t me syncedInfo policy calculateCost =
      putPeers parse syncedInfo { t with toNextHopTable := hops }
        (order.order hops.nextHopMap.entries) := by
    simp [buildFromSyncedInfo, graph, nonempty, ↓reduceIte, run]
  have found : ∀ item ∈ order.order hops.nextHopMap.entries,
      syncedInfo.version ≤ item.2.version → hops.getNextHop item.1 = some item.2 :=
    fun item mem current => built.getNextHop_iff.mpr ⟨(entries item).mp mem, current⟩
  have returns := @putPeers_returns_iff parse syncedInfo { t with toNextHopTable := hops }
    (order.order hops.nextHopMap.entries)
  have parses := @BuiltFor.parses_iff syncedInfo me parse hops _ built entries
  simp only [result]
  refine ⟨returns.trans parses, fun done => ?_⟩
  have put := @putPeers_puts parse syncedInfo { t with toNextHopTable := hops } _ found done
  have all := (returns.trans parses).mp done
  have hops_eq := put.hops
  constructor
  · rw [put.ipv4, hops_eq]
    exact built.nearest entries (fun _ info _ _ key => by simp [AdvertisesIpv4]) older.ipv4
  · rw [put.ipv6, hops_eq]
    exact built.nearest entries (fun _ info _ _ key => by simp [AdvertisesIpv6]) older.ipv6
  · rw [put.cidr, hops_eq]
    refine built.nearest entries (fun p info reach stored key => ?_) older.cidr
    exact mem_cidrsOf (all p info reach stored)

theorem build_unknown (unknown : ¬ syncedInfo.Known me) (mine : me < 2 ^ 32)
    (ids : ∀ p, syncedInfo.Known p → p < 2 ^ 32) :
    (buildFromSyncedInfo platform order parse t me syncedInfo policy calculateCost).2 = false ↔
      ∀ p, ¬ syncedInfo.Known p := by
  obtain ⟨g, graph, -, nodup, nodes⟩ := buildPeerGraph_unknown platform calculateCost unknown
  by_cases empty : g.nodes.length = 0
  · have none : ∀ p, ¬ syncedInfo.Known p := by
      intro p known
      rw [← nodes p, List.length_eq_zero_iff.mp empty] at known
      simp at known
    simpa [buildFromSyncedInfo, graph, empty] using none
  · have outside := length_le_nodeIndexEnd nodup (fun p mem => ids p ((nodes p).mp mem)) mine
      fun mem => unknown ((nodes me).mp mem)
    have panics := @buildNextHopMap_none syncedInfo me platform t.toNextHopTable policy
      calculateCost g nodeIndexEnd graph empty outside
    obtain ⟨p, mem⟩ := List.exists_mem_of_length_pos (Nat.pos_of_ne_zero empty)
    refine iff_of_false ?_ fun none => none p ((nodes p).mp mem)
    simp [buildFromSyncedInfo, graph, empty, panics]

end

/-- **Nearest advertisers.** A build over a table of older versions returns, with each IPv4
address, IPv6 address and network of a reachable peer mapped to the nearest peer that
advertises it, exactly if the node knows itself (or no one) and every network that a
reachable peer advertises can be parsed. Peer ids are 32-bit. -/
theorem build_nearest_iff (platform : Platform) (order : IterOrder (Σ _ : PeerId, NextHopInfo))
    (parse : String → Option Cidr) (t : RouteTable) (me : PeerId) (syncedInfo : SyncedRouteInfo)
    (policy : NextHopPolicy) (calculateCost : PeerId → PeerId → Int)
    (older : t.Older syncedInfo.version) (mine : me < 2 ^ 32)
    (ids : ∀ p, syncedInfo.Known p → p < 2 ^ 32) :
    let result := buildFromSyncedInfo platform order parse t me syncedInfo policy calculateCost
    (result.2 = false ∧ NearestTable parse syncedInfo me result.1) ↔
      (syncedInfo.Known me ∨ ∀ p, ¬ syncedInfo.Known p) ∧ ProxiesParse parse syncedInfo me := by
  intro result
  by_cases known : syncedInfo.Known me
  · obtain ⟨returns, nearest⟩ := @build_known syncedInfo me parse t platform order policy
      calculateCost known older
    exact ⟨fun ok => ⟨.inl known, returns.mp ok.1⟩,
      fun parses => ⟨returns.mpr parses.2, nearest (returns.mpr parses.2)⟩⟩
  · have returns := @build_unknown syncedInfo me parse t platform order policy calculateCost
      known mine ids
    have parses : ProxiesParse parse syncedInfo me := fun _ _ reach => absurd reach.1 known
    have nearest : NearestTable parse syncedInfo me result.1 := by
      constructor <;> exact fun _ _ advertiser => absurd advertiser.1.1 known
    constructor
    · exact fun ok => ⟨.inr (returns.mp ok.1), parses⟩
    · rintro ⟨knows | none, -⟩
      · exact absurd knows known
      · exact ⟨returns.mpr none, nearest⟩

/-! ### Two peers with one address -/

def proxyCidr : Cidr := ⟨.v4 0x0a010000#32 16, by decide⟩

variable (text : String)

def parseProxy : Option Cidr :=
  if text = "10.1.0.0/16" then some proxyCidr else none

/-- Peer 1 is connected to peer 2, and peer 2 to peer 3. The last two have the same
address and proxy the same text. -/
def sharedInfo : SyncedRouteInfo where
  peerInfos := ([(1, none, []), (2, some 0x0a000009#32, [text]),
    (3, some 0x0a000009#32, [text])].map
    fun item : PeerId × Option (BitVec 32) × List String =>
      ⟨item.1, { RoutePeerInfo.new with
        peerId := item.1, version := 1, ipv4Addr := item.2.1, proxyCidrs := item.2.2 }⟩).toAList
  rawPeerInfos := ∅
  connMap := [⟨1, ({2}, 1)⟩, ⟨2, ({1, 3}, 1)⟩, ⟨3, ({2}, 1)⟩].toAList
  foreignNetwork := ∅
  version := 1

theorem shared_known : (sharedInfo text).Known 1 := ⟨_, rfl, by simp⟩

theorem shared_reaches : Reaches (sharedInfo text) 1 2 :=
  ⟨shared_known text, [⟨1, 2, ()⟩], ⟨shared_known text, ⟨_, rfl, by simp⟩, by
    change 2 ∈ ({2} : Finset PeerId)
    decide⟩, rfl, rfl⟩

theorem shared_nearest :
    Advertiser (sharedInfo "10.1.0.0/16") 1 AdvertisesIpv4 0x0a000009#32 2 ∧
    let result := buildFromSyncedInfo .reference (.stored _) parseProxy .new 1
      (sharedInfo "10.1.0.0/16") .leastHop fun _ _ => 0
    result.2 = false ∧ NearestTable parseProxy (sharedInfo "10.1.0.0/16") 1 result.1 := by
  refine ⟨⟨shared_reaches _, _, rfl, rfl⟩, ?_⟩
  apply (build_nearest_iff .reference (.stored _) parseProxy .new 1 (sharedInfo "10.1.0.0/16")
    .leastHop (fun _ _ => 0) (RouteTable.new_older _) (by decide) ?_).mpr
  · refine ⟨.inl (shared_known _), fun p info _ found => ?_⟩
    have parses : ∀ item ∈ (sharedInfo "10.1.0.0/16").peerInfos.entries,
        ∀ text ∈ item.2.proxyCidrs, (parseProxy text).isSome = true := by decide
    exact parses ⟨p, info⟩ (AList.mem_lookup_iff.mp found)
  · rintro p ⟨info, found, -⟩
    have small : ∀ item ∈ (sharedInfo "10.1.0.0/16").peerInfos.entries, item.1 < 2 ^ 32 := by
      decide
    exact small ⟨p, info⟩ (AList.mem_lookup_iff.mp found)

/-- A network with host bits is no network: the build of node 1 panics. -/
theorem shared_panics :
    let result := buildFromSyncedInfo .reference (.stored _) parseProxy .new 1
      (sharedInfo "10.1.0.1/16") .leastHop fun _ _ => 0
    ¬ (result.2 = false ∧ NearestTable parseProxy (sharedInfo "10.1.0.1/16") 1 result.1) := by
  intro result ok
  have parses := (build_known .reference (.stored _) .leastHop (fun _ _ => 0)
    (shared_known "10.1.0.1/16") (RouteTable.new_older _)).1.mp ok.1
  exact absurd (parses 2 _ (shared_reaches _) rfl "10.1.0.1/16" (by simp)) (by decide)

end PeerLink.Route
