import Mathlib.Data.List.AList
import Mathlib.Data.List.Dedup
import PeerLink.Text.Words

/-!
# The magic DNS server

Clients report the routes of their networks for a zone. The server keeps the routes of every
client and zone, and after each report and each disconnection builds the authority of every zone
that it still has routes for.
-/

namespace PeerLink.MagicDns

structure Ipv4Inet where
  address : Option UInt32
  networkLength : Nat
  deriving DecidableEq, Inhabited

structure Route where
  hostname : String
  ipv4Addr : Option Ipv4Inet

/-- `Name::from_str`, where names are the same if they differ in case only, and the order in which
the `DashMap` goes through the zones. -/
structure Library (Name : Type) where
  parse : String → Option Name
  arrange : List String → List String
  mem_arrange : ∀ zones zone, zone ∈ arrange zones ↔ zone ∈ zones

structure TunnelInfo (Url : Type) where
  remoteAddr : Option Url

inductive Operation (Url : Type) where
  | updateDnsRecord (tunnelInfo : Option (TunnelInfo Url)) (zone : String) (routes : List Route)
  | clientDisconnected (tunnelInfo : Option (TunnelInfo Url))

/-- The routes of one client for one zone. -/
structure Entry (Url : Type) where
  zone : String
  client : Url
  routes : List Route

/-- A zone without clients is not kept, so the map of multimaps is a list of entries. Of an
authority only the A records are kept. `history` are the operations so far, the latest first. No
code reads it. -/
structure MagicDnsServerInstanceData (Name Url : Type) where
  routeInfos : List (Entry Url)
  authorities : AList fun _ : Name => List (Name × UInt32)
  history : List (Operation Url)

section
variable {Name Url : Type} [DecidableEq Name] [DecidableEq Url] (lib : Library Name)

/-! ## Authorities -/

variable (entries : List (Entry Url)) (zone : String)

/-- The A record of a route, if it has a host name and an address and the name is valid. -/
def aRecord (route : Route) : Option (Name × UInt32) :=
  if route.hostname.isEmpty then none
  else do
    let ipv4Addr ← (route.ipv4Addr.getD default).address
    let name ← lib.parse (route.hostname ++ "." ++ zone)
    return (name, ipv4Addr)

def records (routes : List Route) : List (Name × UInt32) :=
  routes.filterMap (aRecord lib zone)

def soaValue : String :=
  "ns." ++ zone ++ " hostmaster." ++ zone ++ " 2023101001 7200 3600 1209600 86400"

/-- The SOA record can be built: it has seven parts, and its names are valid. -/
def soaBuilds : Bool :=
  match Text.splitWhitespace (soaValue zone) with
  | [mname, rname, _, _, _, _, _] => (lib.parse mname).isSome && (lib.parse rname).isSome
  | _ => false

/-- When it fails, the zone keeps the authority that it has. -/
def updateDnsRecords (authorities : AList fun _ : Name => List (Name × UInt32)) (zone : String)
    (routes : List Route) : AList fun _ : Name => List (Name × UInt32) :=
  match lib.parse zone with
  | none => authorities
  | some name =>
    if soaBuilds lib zone then authorities.insert name (records lib zone routes) else authorities

/-! ## Entries -/

/-- `insert_many` appends to the routes that are there. -/
def insertMany (client : Url) (routes : List Route) : List (Entry Url) :=
  if entries.any fun entry => entry.zone = zone ∧ entry.client = client then
    entries.map fun entry =>
      if entry.zone = zone ∧ entry.client = client then
        { entry with routes := entry.routes ++ routes }
      else
        entry
  else
    entries ++ [⟨zone, client, routes⟩]

def storedRoutes : List Route :=
  (entries.filter fun entry => entry.zone = zone).flatMap Entry.routes

def zones : List String := (entries.map Entry.zone).dedup

namespace MagicDnsServerInstanceData

variable (data : MagicDnsServerInstanceData Name Url)

def update : MagicDnsServerInstanceData Name Url :=
  { data with
    authorities := (lib.arrange (zones data.routeInfos)).foldl
      (fun authorities zone =>
        updateDnsRecords lib authorities zone (storedRoutes data.routeInfos zone))
      data.authorities }

variable (tunnelInfo : Option (TunnelInfo Url))

def updateDnsRecord (zone : String) (routes : List Route) :
    Except String (MagicDnsServerInstanceData Name Url) := do
  let some tunnelInfo := tunnelInfo | throw "No tunnel info"
  let some remoteAddr := tunnelInfo.remoteAddr | throw "No remote addr"
  return { data with
    routeInfos := insertMany data.routeInfos zone remoteAddr routes }.update lib

def onClientDisconnected : MagicDnsServerInstanceData Name Url :=
  match tunnelInfo.bind TunnelInfo.remoteAddr with
  | none => data
  | some remoteAddr =>
    { data with
      routeInfos := data.routeInfos.filter fun entry => entry.client ≠ remoteAddr }.update lib

end MagicDnsServerInstanceData

open MagicDnsServerInstanceData

variable (data : MagicDnsServerInstanceData Name Url)

/-- A report that fails changes nothing. -/
def operate : Operation Url → MagicDnsServerInstanceData Name Url
  | .updateDnsRecord tunnelInfo zone routes =>
    (data.updateDnsRecord lib tunnelInfo zone routes).toOption.getD data
  | .clientDisconnected tunnelInfo => data.onClientDisconnected lib tunnelInfo

def step (operation : Operation Url) : Option (MagicDnsServerInstanceData Name Url) :=
  some { operate lib data operation with history := operation :: data.history }

def new : MagicDnsServerInstanceData Name Url := ⟨[], ∅, []⟩

end

/-! ## What should be served -/

variable {Name Url : Type} [DecidableEq Url]

/-- The latest route list that a client has reported for a zone since it is connected. -/
def lastReport (zone : String) (client : Url) : List (Operation Url) → Option (List Route)
  | [] => none
  | .updateDnsRecord (some ⟨some remoteAddr⟩) zone' routes :: earlier =>
    if zone' = zone ∧ remoteAddr = client then some routes else lastReport zone client earlier
  | .clientDisconnected (some ⟨some remoteAddr⟩) :: earlier =>
    if remoteAddr = client then none else lastReport zone client earlier
  | _ :: earlier => lastReport zone client earlier

end PeerLink.MagicDns
