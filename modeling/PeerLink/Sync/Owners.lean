import PeerLink.Route.Lookup
import PeerLink.Sync.Batch

/-!
# Who owns an address

The infos of a node and its route table over any run of received infos, rebuilds and
clean-ups. A rebuild puts the addresses of the current infos into the table and takes
none away, and the clean-up looks only at whether the peer is reachable. So a peer keeps
an address in the table that it does not advertise any more.
-/

namespace PeerLink.Route

open Best Packet

/-- `DashMap::retain` -/
def retain {K V : Type} (m : AList fun _ : K => V) (test : K → V → Bool) :
    AList fun _ : K => V where
  entries := m.entries.filter fun item => test item.1 item.2
  nodupKeys := m.nodupKeys.sublist List.filter_sublist

theorem lookup_retain {K V : Type} [DecidableEq K] {m : AList fun _ : K => V}
    {test : K → V → Bool} {k : K} {v : V} :
    (retain m test).lookup k = some v ↔ m.lookup k = some v ∧ test k v = true := by
  have stored : ∀ {m : AList fun _ : K => V}, m.lookup k = some v ↔ ⟨k, v⟩ ∈ m.entries :=
    AList.mem_lookup_iff
  rw [stored, stored]
  simp [retain, List.mem_filter]

namespace RouteTable

def cleanExpiredRouteInfo (t : RouteTable) : RouteTable :=
  let nextHopMap := retain t.nextHopMap fun _ v => t.nextHopMapVersion ≤ v.version
  { nextHopMap
    nextHopMapVersion := t.nextHopMapVersion
    peerInfos := retain t.peerInfos fun k _ => k ∈ nextHopMap
    ipv4PeerIdMap := retain t.ipv4PeerIdMap fun _ v => v.peerId ∈ nextHopMap
    ipv6PeerIdMap := retain t.ipv6PeerIdMap fun _ v => v.peerId ∈ nextHopMap
    cidrPeerIdMap := retain t.cidrPeerIdMap fun _ v => v.peerId ∈ nextHopMap }

/-- An entry of the table gives the address to the peer. -/
inductive Gives (t : RouteTable) (ip : Ipv4Addr) : PeerId → Prop
  | ipv4 {v : PeerIdAndVersion} (stored : t.ipv4PeerIdMap.lookup ip = some v) : t.Gives ip v.peerId
  | cidr {cidr : Cidr} {v : PeerIdAndVersion} (stored : t.cidrPeerIdMap.lookup cidr = some v)
      (inside : cidr.contains (.v4 ip) = true) : t.Gives ip v.peerId

end RouteTable

/-- The info has the address, or proxies a network around it. -/
def Advertises (parse : String → Option Cidr) (info : RoutePeerInfo) (ip : Ipv4Addr) : Prop :=
  AdvertisesIpv4 info ip ∨ ∃ cidr, AdvertisesCidr parse info cidr ∧ cidr.contains (.v4 ip) = true

/-- The stored info of the peer advertises the address. -/
def Owns (parse : String → Option Cidr) (syncedInfo : SyncedRouteInfo) (ip : Ipv4Addr)
    (p : PeerId) : Prop :=
  ∃ info, syncedInfo.peerInfos.lookup p = some info ∧ Advertises parse info ip

variable {t : RouteTable} {ip : Ipv4Addr} {p : PeerId}

/-- An answer stems from an entry. -/
theorem getPeerIdByIpv4_gives {order : IterOrder (Σ _ : Cidr, PeerIdAndVersion)}
    (answer : t.getPeerIdByIpv4 order ip = some p) : t.Gives ip p := by
  unfold RouteTable.getPeerIdByIpv4 at answer
  cases found : t.ipv4PeerIdMap.lookup ip with
  | some v =>
    rw [found] at answer
    cases answer
    exact .ipv4 found
  | none =>
    rw [found] at answer
    obtain ⟨cidr, v, stored, inside, rfl⟩ := getPeerIdForProxy_sound answer
    exact .cidr stored inside

theorem new_gives : ¬ RouteTable.new.Gives ip p := by
  intro gives
  cases gives with
  | ipv4 stored | cidr stored inside => simp [RouteTable.new] at stored

theorem cleanExpiredRouteInfo_gives (gives : t.cleanExpiredRouteInfo.Gives ip p) :
    t.Gives ip p := by
  cases gives with
  | ipv4 stored => exact .ipv4 (lookup_retain.mp stored).1
  | cidr stored inside => exact .cidr (lookup_retain.mp stored).1 inside

/-! ## What a rebuild adds -/

variable {K : Type} [DecidableEq K] {hops : NextHopTable} {newPeer v : PeerIdAndVersion}
  {newNextHop : NextHopInfo}

theorem putAddress_origin {m : AddressMap K} {put key : K}
    (stored : (putAddress hops newPeer newNextHop m put).lookup key = some v) :
    m.lookup key = some v ∨ key = put ∧ v = newPeer := by
  unfold putAddress at stored
  split at stored
  · split at stored
    · exact lookup_insert_origin stored
    · exact .inl stored
  · exact lookup_insert_origin stored

theorem putCidrs_origin {parse : String → Option Cidr} {m : AddressMap Cidr} {texts : List String}
    {cidr : Cidr}
    (stored : (putCidrs parse hops newPeer newNextHop m texts).1.lookup cidr = some v) :
    m.lookup cidr = some v ∨ v = newPeer ∧ ∃ text ∈ texts, parse text = some cidr := by
  induction texts generalizing m with
  | nil => exact .inl stored
  | cons text rest ih =>
    unfold putCidrs at stored
    cases parsed : parse text with
    | none =>
      rw [parsed] at stored
      exact .inl stored
    | some put =>
      rw [parsed] at stored
      obtain before | ⟨new, later, mem, found⟩ := ih stored
      · obtain old | ⟨rfl, new⟩ := putAddress_origin before
        · exact .inl old
        · exact .inr ⟨new, text, by simp, parsed⟩
      · exact .inr ⟨new, later, by simp [mem], found⟩

variable {parse : String → Option Cidr} {syncedInfo : SyncedRouteInfo}

theorem putPeer_gives {item : Σ _ : PeerId, NextHopInfo}
    (gives : (putPeer parse syncedInfo t item).1.Gives ip p) :
    t.Gives ip p ∨ Owns parse syncedInfo ip p := by
  unfold putPeer at gives
  split at gives
  · exact .inl gives
  · split at gives
    · exact .inl gives
    · rename_i info found
      cases gives with
      | ipv4 stored =>
        cases address : info.ipv4Addr with
        | none =>
          simp only [address, putOptional] at stored
          exact .inl (.ipv4 stored)
        | some own =>
          simp only [address, putOptional] at stored
          obtain old | ⟨rfl, rfl⟩ := putAddress_origin stored
          · exact .inl (.ipv4 old)
          · exact .inr ⟨info, found, .inl address⟩
      | cidr stored inside =>
        obtain old | ⟨rfl, advertised⟩ := putCidrs_origin stored
        · exact .inl (.cidr old inside)
        · exact .inr ⟨info, found, .inr ⟨_, advertised, inside⟩⟩

theorem putPeers_gives {items : List (Σ _ : PeerId, NextHopInfo)}
    (gives : (putPeers parse syncedInfo t items).1.Gives ip p) :
    t.Gives ip p ∨ Owns parse syncedInfo ip p := by
  induction items generalizing t with
  | nil => exact .inl gives
  | cons item rest ih =>
    have here : ∀ {mid panicked}, putPeer parse syncedInfo t item = (mid, panicked) →
        mid.Gives ip p → t.Gives ip p ∨ Owns parse syncedInfo ip p := by
      intro mid panicked step given
      exact putPeer_gives (by rwa [step])
    unfold putPeers at gives
    split at gives
    · rename_i step
      exact here step gives
    · rename_i step
      obtain given | owns := ih gives
      · exact here step given
      · exact .inr owns

/-- Whatever a rebuild gives, also one that panics, was given before or is advertised. -/
theorem buildFromSyncedInfo_gives {platform : Platform}
    {order : IterOrder (Σ _ : PeerId, NextHopInfo)} {me : PeerId} {policy : NextHopPolicy}
    {calculateCost : PeerId → PeerId → Int}
    (gives : (buildFromSyncedInfo platform order parse t me syncedInfo policy calculateCost).1.Gives
      ip p) : t.Gives ip p ∨ Owns parse syncedInfo ip p := by
  have next_hops : ∀ {hops : NextHopTable},
      RouteTable.Gives { t with toNextHopTable := hops } ip p → t.Gives ip p := by
    intro hops given
    cases given with
    | ipv4 stored => exact .ipv4 stored
    | cidr stored inside => exact .cidr stored inside
  unfold buildFromSyncedInfo at gives
  split at gives
  · exact .inl gives
  · split at gives
    · exact .inl gives
    · split at gives
      · exact .inl gives
      · exact (putPeers_gives gives).imp next_hops id

end PeerLink.Route

namespace PeerLink.Sync

open Route Packet SyncedRouteInfo

/-! ## Runs -/

/-- The infos of a node and the table it answers from. -/
structure RouteState where
  synced : SyncedRouteInfo
  table : RouteTable

inductive TableCall where
  /-- Infos from `dst`, and the rebuild after them. -/
  | receive (dst : PeerId) (infos : List RoutePeerInfo) (raws : List RawPeerInfo)
      (platform : Platform) (order : IterOrder (Σ _ : PeerId, NextHopInfo))
      (calculateCost : PeerId → PeerId → Int)
  | cleanExpiredRouteInfo

namespace TableCall

/-- A refused batch returns before the rebuild. -/
def apply (me : PeerId) (routeId : Nat) (parse : String → Option Cidr) (s : RouteState) :
    TableCall → RouteState
  | receive dst infos raws platform order calculateCost =>
    match s.synced.updatePeerInfos me routeId dst infos raws with
    | (synced, some _) => ⟨synced, s.table⟩
    | (synced, none) =>
      ⟨synced, (buildFromSyncedInfo platform order parse s.table me synced .leastHop
        calculateCost).1⟩
  | cleanExpiredRouteInfo => ⟨s.synced, s.table.cleanExpiredRouteInfo⟩

/-- An info that is news advertises all addresses that the table gives to its peer. -/
def WithdrawsNothing (parse : String → Option Cidr) (s : RouteState) : TableCall → Prop
  | receive _ infos _ _ _ _ => ∀ info ∈ infos, ¬ Stale s.synced info →
      ∀ ip, s.table.Gives ip info.peerId → Advertises parse info ip
  | cleanExpiredRouteInfo => True

/-- The states that node `me` reaches by calls that all meet `Allowed`. -/
inductive Run (me : PeerId) (routeId : Nat) (parse : String → Option Cidr)
    (Allowed : RouteState → TableCall → Prop) : RouteState → Prop
  | new (synced : SyncedRouteInfo) : Run me routeId parse Allowed ⟨synced, .new⟩
  | call {s : RouteState} (run : Run me routeId parse Allowed s) (call : TableCall)
      (allowed : Allowed s call) : Run me routeId parse Allowed (call.apply me routeId parse s)

/-- Every address is given to peers that advertise it. -/
def Grounded (parse : String → Option Cidr) (s : RouteState) : Prop :=
  ∀ ip p, s.table.Gives ip p → Owns parse s.synced ip p

section
variable {me : PeerId} {routeId : Nat} {parse : String → Option Cidr} {s : RouteState}

/-- Received infos leave the owners in place if they withdraw nothing. -/
theorem updatePeerInfos_owns {dst : PeerId} {infos : List RoutePeerInfo} {raws : List RawPeerInfo}
    {ip : Ipv4Addr} {p : PeerId} (owns : Owns parse s.synced ip p)
    (kept : ∀ info ∈ infos, info.peerId = p → ¬ Stale s.synced info → Advertises parse info ip) :
    Owns parse (s.synced.updatePeerInfos me routeId dst infos raws).1 ip p := by
  obtain ⟨info, stored, advertises⟩ := owns
  have held := (updatePeerInfos_le s.synced me routeId dst infos raws).1.peers p info.version
    ⟨info, stored, le_rfl⟩
  obtain ⟨info', stored', -⟩ := held
  refine ⟨info', stored', ?_⟩
  obtain before | ⟨mem, named, news⟩ := updatePeerInfos_origin stored'
  · cases Option.some.inj (stored.symm.trans before)
    exact advertises
  · exact kept info' mem named news

theorem apply_grounded {call : TableCall} (grounded : Grounded parse s)
    (nothing : call.WithdrawsNothing parse s) : Grounded parse (call.apply me routeId parse s) := by
  intro ip p gives
  cases call with
  | cleanExpiredRouteInfo => exact grounded ip p (cleanExpiredRouteInfo_gives gives)
  | receive dst infos raws platform order calculateCost =>
    have kept : s.table.Gives ip p →
        Owns parse (s.synced.updatePeerInfos me routeId dst infos raws).1 ip p := by
      intro given
      refine updatePeerInfos_owns (grounded ip p given) ?_
      rintro info mem rfl news
      exact nothing info mem news ip given
    simp only [apply] at gives ⊢
    split at gives
    · rename_i result
      rw [result] at kept
      exact kept gives
    · rename_i result
      rw [result] at kept
      exact (buildFromSyncedInfo_gives gives).elim kept id

theorem Run.grounded
    (run : Run me routeId parse (fun s call => call.WithdrawsNothing parse s) s) :
    Grounded parse s := by
  induction run with
  | new synced => exact fun ip p gives => absurd gives new_gives
  | call _ call allowed ih => exact apply_grounded ih allowed

end

/-- **No stale owner.** As long as no info withdraws an address that the table gives to its
peer, every peer that is answered for an address advertises it. -/
theorem answered_peer_owns {me : PeerId} {routeId : Nat} {parse : String → Option Cidr}
    {s : RouteState} (run : Run me routeId parse (fun s call => call.WithdrawsNothing parse s) s)
    (order : IterOrder (Σ _ : Cidr, PeerIdAndVersion)) (ip : Ipv4Addr) (p : PeerId)
    (answer : s.table.getPeerIdByIpv4 order ip = some p) : Owns parse s.synced ip p :=
  run.grounded ip p (getPeerIdByIpv4_gives answer)

/-! ### A peer with a new address -/

/-- Node 1 and peer 2 are connected, and node 1 knows itself only. -/
def connectedPair : SyncedRouteInfo :=
  { SyncedRouteInfo.new with
    peerInfos := [⟨1, { RoutePeerInfo.new with peerId := 1, version := 1 }⟩].toAList
    connMap := [⟨1, ({2}, 1)⟩, ⟨2, ({1}, 1)⟩].toAList }

def infoOfTwo (version : Version) (ip : Ipv4Addr) (proxyCidrs : List String) : RoutePeerInfo :=
  { RoutePeerInfo.new with peerId := 2, version, ipv4Addr := some ip, proxyCidrs }

/-- Peer 2 sends its info. -/
def receiveFromTwo (info : RoutePeerInfo) : TableCall :=
  .receive 2 [info] [⟨info, []⟩] .reference (.stored _) fun _ _ => 0

def firstAddress : RouteState :=
  (receiveFromTwo (infoOfTwo 1 0x0a000002#32 [])).apply 1 0 parseProxy ⟨connectedPair, .new⟩

/-- Peer 2 changes its address, and the table is cleaned. -/
def renumbered : RouteState :=
  cleanExpiredRouteInfo.apply 1 0 parseProxy
    ((receiveFromTwo (infoOfTwo 2 0x0a000003#32 [])).apply 1 0 parseProxy firstAddress)

/-- The old address still belongs to peer 2. -/
theorem renumbered_stale_owner :
    Run 1 0 parseProxy (fun _ _ => True) renumbered ∧
      renumbered.table.getPeerIdByIpv4 (.stored _) 0x0a000002#32 = some 2 ∧
      ¬ Owns parseProxy renumbered.synced 0x0a000002#32 2 := by
  refine ⟨.call (.call (.call (.new _) _ trivial) _ trivial) _ trivial, by decide +kernel, ?_⟩
  have current : renumbered.synced.peerInfos.lookup 2 = some (infoOfTwo 2 0x0a000003#32 []) := by
    decide +kernel
  rintro ⟨info, stored, advertises⟩
  cases Option.some.inj (current.symm.trans stored)
  obtain address | ⟨cidr, ⟨text, mem, -⟩, -⟩ := advertises
  · simp [AdvertisesIpv4, infoOfTwo] at address
  · simp [infoOfTwo] at mem

/-- Peer 2 proxies a network besides its address. -/
def alsoProxies : RouteState :=
  (receiveFromTwo (infoOfTwo 2 0x0a000002#32 ["10.1.0.0/16"])).apply 1 0 parseProxy firstAddress

theorem alsoProxies_owns :
    alsoProxies.table.getPeerIdByIpv4 (.stored _) 0x0a010001#32 = some 2 ∧
      Owns parseProxy alsoProxies.synced 0x0a010001#32 2 := by
  have answer : alsoProxies.table.getPeerIdByIpv4 (.stored _) 0x0a010001#32 = some 2 := by
    decide +kernel
  have first : Run 1 0 parseProxy (fun s call => call.WithdrawsNothing parseProxy s)
      firstAddress := by
    refine .call (.new connectedPair) (receiveFromTwo _) ?_
    exact fun info _ _ ip gives => absurd gives new_gives
  refine ⟨answer, answered_peer_owns (.call first (receiveFromTwo _) ?_) (.stored _) _ 2 answer⟩
  -- what the table gives to peer 2 is the address that its first info advertises
  intro info mem _ ip gives
  obtain rfl := List.mem_singleton.mp mem
  obtain ⟨old, stored, advertises⟩ := first.grounded ip 2 gives
  have known : firstAddress.synced.peerInfos.lookup 2 = some (infoOfTwo 1 0x0a000002#32 []) := by
    decide +kernel
  cases Option.some.inj (known.symm.trans stored)
  obtain address | ⟨cidr, ⟨text, none, -⟩, -⟩ := advertises
  · exact .inl address
  · simp [infoOfTwo] at none

end TableCall

end PeerLink.Sync
