import PeerLink.Route.Synced

/-!
# Which peer is the center

Every node chooses the peer center from its own routes. A route to a public server is passed over,
but a node does not ask whether it is a public server itself. The choice is the least of the
candidates, so the nodes agree if and only if the least of all members may be chosen by the others.
-/

namespace PeerLink.PeerCenter

open Route (PeerId)

/-- A route as `list_routes` shows it. `none` is a peer that has sent no feature flags. -/
structure ListedRoute where
  peerId : PeerId
  isPublicServer : Option Bool
  deriving DecidableEq

/-- The filter of `select_center_peer`. -/
def ListedRoute.mayBeCenter (route : ListedRoute) : Bool :=
  (route.isPublicServer.map not).getD true

/-- One round of the loop. -/
def lesserPeer (minPeer : PeerId) (peer : ListedRoute) : PeerId :=
  if peer.peerId < minPeer then peer.peerId else minPeer

def selectCenterPeer (myPeerId : PeerId) (peers : List ListedRoute) : Option PeerId :=
  if peers.isEmpty then
    none
  else
    some ((peers.filter ListedRoute.mayBeCenter).foldl lesserPeer myPeerId)

/-! ## The choice as a minimum -/

/-- The peers that a node chooses from. -/
def candidates (myPeerId : PeerId) (peers : List ListedRoute) : Set PeerId :=
  {id | id = myPeerId ∨ ∃ peer ∈ peers, peer.mayBeCenter ∧ peer.peerId = id}

/-- A node with a route chooses the least of its candidates. -/
theorem selectCenterPeer_eq_some {me center : PeerId} {peers : List ListedRoute}
    (routed : peers ≠ []) :
    selectCenterPeer me peers = some center ↔ IsLeast (candidates me peers) center := by
  have notEmpty : ¬peers.isEmpty := by simpa using routed
  have lesser : lesserPeer = fun minPeer peer => min minPeer peer.peerId := by
    funext minPeer peer
    unfold lesserPeer
    split_ifs with less
    · exact (min_eq_right less.le).symm
    · exact (min_eq_left (not_lt.mp less)).symm
  have members : candidates me peers =
      {id | id ∈ me :: (peers.filter ListedRoute.mayBeCenter).map ListedRoute.peerId} := by
    ext id
    simp [candidates, and_assoc]
  rw [selectCenterPeer, if_neg notEmpty, lesser, ← List.foldl_map, ← List.min?_cons',
    List.min?_eq_some_iff, members]
  exact .rfl

/-! ## Agreement -/

/-- The peers of a network, each as the others list it. -/
structure Membership where
  members : List ListedRoute
  distinct : (members.map ListedRoute.peerId).Nodup
  atLeastTwo : 2 ≤ members.length

namespace Membership
variable (network : Membership)

variable (routes : ListedRoute → List ListedRoute)

/-- The routes of each member are the other members, in any order. -/
def Listed : Prop :=
  ∀ node ∈ network.members, ∀ route,
    route ∈ routes node ↔ route ∈ network.members ∧ route ≠ node

/-- The routes of each member in the order of the membership. -/
def routesOf (node : ListedRoute) : List ListedRoute := network.members.filter (· ≠ node)

theorem listed_routesOf : network.Listed network.routesOf := by
  intro node _ route
  simp [routesOf]

/-- All members choose the same center. -/
def Agree : Prop :=
  ∃ center, ∀ node ∈ network.members, selectCenterPeer node.peerId (routes node) = some center

variable {network}

theorem eq_of_peerId {a b : ListedRoute} (memberA : a ∈ network.members)
    (memberB : b ∈ network.members) (same : a.peerId = b.peerId) : a = b :=
  List.inj_on_of_nodup_map network.distinct memberA memberB same

theorem exists_other (network : Membership) (node : ListedRoute) :
    ∃ other ∈ network.members, other ≠ node := by
  by_contra alone
  push Not at alone
  have single : network.members = List.replicate network.members.length node :=
    List.eq_replicate_of_mem alone
  have distinct := List.Nodup.of_map _ network.distinct
  rw [single, List.nodup_replicate] at distinct
  have many := network.atLeastTwo
  omega

theorem exists_least (network : Membership) : ∃ node ∈ network.members, ∀ other ∈ network.members,
    node.peerId ≤ other.peerId := by
  have some : network.members ≠ [] := by
    intro empty
    have many := network.atLeastTwo
    rw [empty] at many
    simp at many
  obtain ⟨node, member, least⟩ :=
    network.members.toFinset.exists_min_image ListedRoute.peerId (by simpa using some)
  exact ⟨node, by simpa using member, fun other there => least other (by simpa using there)⟩

section
variable {routes : ListedRoute → List ListedRoute}

variable (listed : network.Listed routes)
include listed

theorem Listed.routes_ne_nil {node : ListedRoute} (member : node ∈ network.members) :
    routes node ≠ [] := by
  obtain ⟨other, there, apart⟩ := network.exists_other node
  exact List.ne_nil_of_mem ((listed node member other).mpr ⟨there, apart⟩)

/-- The least member chooses itself. -/
theorem Listed.least_chooses_itself {node : ListedRoute} (member : node ∈ network.members)
    (least : ∀ other ∈ network.members, node.peerId ≤ other.peerId) :
    selectCenterPeer node.peerId (routes node) = some node.peerId := by
  apply (selectCenterPeer_eq_some (listed.routes_ne_nil member)).mpr
  refine ⟨.inl rfl, ?_⟩
  rintro id (rfl | ⟨peer, routed, -, rfl⟩)
  · exact le_rfl
  · exact least peer ((listed node member peer).mp routed).1

/-- Another member chooses the least one if and only if the least one may be the center. -/
theorem Listed.other_chooses_least {node other : ListedRoute} (member : node ∈ network.members)
    (least : ∀ other ∈ network.members, node.peerId ≤ other.peerId)
    (there : other ∈ network.members) (apart : other ≠ node) :
    selectCenterPeer other.peerId (routes other) = some node.peerId ↔ node.mayBeCenter := by
  rw [selectCenterPeer_eq_some (listed.routes_ne_nil there)]
  constructor
  · rintro ⟨own | ⟨peer, routed, may, same⟩, -⟩
    · exact absurd (eq_of_peerId member there own).symm apart
    · have listedPeer := ((listed other there peer).mp routed).1
      rw [eq_of_peerId listedPeer member same] at may
      exact may
  · intro may
    refine ⟨.inr ⟨node, (listed other there node).mpr ⟨member, apart.symm⟩, may, rfl⟩, ?_⟩
    rintro id (rfl | ⟨peer, routed, -, rfl⟩)
    · exact least other there
    · exact least peer ((listed other there peer).mp routed).1

end

/-- **The members agree on the center** exactly when the member with the least id is not a public
server. -/
theorem agree_iff {routes : ListedRoute → List ListedRoute} (listed : network.Listed routes) :
    network.Agree routes ↔
      ∃ node ∈ network.members, node.mayBeCenter ∧
        ∀ other ∈ network.members, node.peerId ≤ other.peerId := by
  constructor
  · rintro ⟨center, chosen⟩
    obtain ⟨node, member, least⟩ := network.exists_least
    obtain ⟨other, there, apart⟩ := network.exists_other node
    have own := listed.least_chooses_itself member least
    rw [chosen node member, Option.some.injEq] at own
    subst own
    have may := (listed.other_chooses_least member least there apart).mp (chosen other there)
    exact ⟨node, member, may, least⟩
  · rintro ⟨node, member, may, least⟩
    refine ⟨node.peerId, ?_⟩
    intro other there
    by_cases same : other = node
    · rw [same]
      exact listed.least_chooses_itself member least
    · exact (listed.other_chooses_least member least there same).mpr may

end Membership

/-! ## Two networks -/

/-- A public server among three peers, with the id `server`. -/
def withServer (server : PeerId) (apart : server ≠ 5 ∧ server ≠ 7) : Membership where
  members := [⟨server, some true⟩, ⟨5, some false⟩, ⟨7, none⟩]
  distinct := by simp [apart.1, apart.2]
  atLeastTwo := by simp

/-- With the server's id above another's, the peer with the least id is the center of all three. -/
theorem agree_on_least_peer :
    (withServer 6 (by decide)).Agree (withServer 6 (by decide)).routesOf :=
  (Membership.agree_iff (Membership.listed_routesOf _)).mpr
    ⟨⟨5, some false⟩, by decide, by decide, by decide⟩

/-- With the least id the server chooses itself and the others do not. -/
theorem server_chooses_itself :
    let network := withServer 1 (by decide)
    network.Listed network.routesOf ∧
      selectCenterPeer 1 (network.routesOf ⟨1, some true⟩) = some 1 ∧
      selectCenterPeer 5 (network.routesOf ⟨5, some false⟩) = some 5 ∧
      selectCenterPeer 7 (network.routesOf ⟨7, none⟩) = some 5 ∧
      ¬network.Agree network.routesOf := by
  intro network
  refine ⟨network.listed_routesOf, by decide, by decide, by decide, ?_⟩
  rintro ⟨center, chosen⟩
  have server : some 1 = some center := chosen ⟨1, some true⟩ (by decide)
  have peer : some 5 = some center := chosen ⟨5, some false⟩ (by decide)
  cases server
  exact absurd peer (by decide)

end PeerLink.PeerCenter
