import Mathlib.Data.List.Basic

/-!
# The configuration loader

`TomlConfigLoader` with the getters and setters that the export and the import of a configuration
use. Addresses, CIDRs and flags are data; URLs and UUIDs are any types that are printed and
parsed.
-/

namespace PeerLink.Launcher

/-! ## Addresses -/

structure Ipv4Addr where
  a : UInt8
  b : UInt8
  c : UInt8
  d : UInt8
  deriving DecidableEq

structure Ipv6Addr where
  bits : BitVec 128

inductive IpAddr where
  | v4 (ip : Ipv4Addr)
  | v6 (ip : Ipv6Addr)

inductive SocketAddr where
  | v4 (ip : Ipv4Addr) (port : UInt16)
  | v6 (ip : Ipv6Addr) (port : UInt16) (flowinfo scopeId : UInt32)

namespace SocketAddr

def ip : SocketAddr → IpAddr
  | .v4 ip _ => .v4 ip
  | .v6 ip _ _ _ => .v6 ip

def port : SocketAddr → UInt16
  | .v4 _ port | .v6 _ port _ _ => port

def isIpv4 : SocketAddr → Bool
  | .v4 _ _ => true
  | .v6 _ _ _ _ => false

end SocketAddr

structure Ipv4Cidr where
  firstAddress : Ipv4Addr
  networkLength : UInt8
  deriving DecidableEq

structure Ipv4Inet where
  address : Ipv4Addr
  networkLength : UInt8

structure Ipv6Cidr where
  firstAddress : Ipv6Addr
  networkLength : UInt8

inductive IpCidr where
  | v4 (cidr : Ipv4Cidr)
  | v6 (cidr : Ipv6Cidr)

/-! ## Texts -/

/-- `Display` and `FromStr` of a type. -/
structure Format (α : Type) where
  print : α → String
  parse : String → Option α
  parse_print : ∀ value, parse (print value) = some value

/-- What the code takes from its libraries. No address or URL is the empty text, and no CIDR has a
dash in it. An address with a port is `ip:port` for IPv4 and `[ip]:port` for IPv6, and only the
text of an IPv6 address has colons, at least two of them. -/
structure Library (Url Uuid : Type) where
  uuid : Format Uuid
  url : Format Url
  port : Url → Option UInt16
  ip : Format IpAddr
  ipv4Cidr : Format Ipv4Cidr
  ipv4Inet : Format Ipv4Inet
  ipCidr : Format IpCidr
  parseSocketAddr : String → Option SocketAddr
  /-- The text between quotes that `{:?}` shows. -/
  escape : String → String
  gethostname : String
  url_empty : url.parse "" = none
  ip_empty : ip.parse "" = none
  cidr_dashless : ∀ cidr, '-' ∉ (ipv4Cidr.print cidr).toList
  parse_ipv4_port : ∀ addr port,
    parseSocketAddr (ip.print (.v4 addr) ++ ":" ++ toString (UInt16.toNat port)) =
      some (.v4 addr port)
  colons_ipv4_port : ∀ text addr port, parseSocketAddr text = some (.v4 addr port) →
    text.toList.count ':' = 1
  bracket_ipv6_port : ∀ text addr port flowinfo scopeId,
    parseSocketAddr text = some (.v6 addr port flowinfo scopeId) → text.toList.head? = some '['
  colons_ipv6 : ∀ addr, 2 ≤ (ip.print (.v6 addr)).toList.count ':'
  bracket_ipv6 : ∀ addr, (ip.print (.v6 addr)).toList.head? ≠ some '['

/-! ## Flags -/

structure Flags where
  defaultProtocol : String
  devName : String
  enableEncryption : Bool
  enableIpv6 : Bool
  mtu : UInt32
  latencyFirst : Bool
  enableExitNode : Bool
  noTun : Bool
  useSmoltcp : Bool
  relayNetworkWhitelist : String
  disableP2p : Bool
  relayAllPeerRpc : Bool
  disableUdpHolePunching : Bool
  multiThread : Bool
  dataCompressAlgo : Int32
  bindDevice : Bool
  enableKcpProxy : Bool
  disableKcpInput : Bool
  disableRelayKcp : Bool
  proxyForwardBySystem : Bool
  acceptDns : Bool
  privateMode : Bool
  enableQuicProxy : Bool
  disableQuicInput : Bool
  foreignRelayBpsLimit : UInt64
  multiThreadCount : UInt32
  enableRelayForeignNetworkKcp : Bool
  encryptionAlgorithm : String
  disableSymHolePunching : Bool
  deriving DecidableEq, Inhabited

def genDefaultFlags : Flags where
  defaultProtocol := "tcp"
  devName := ""
  enableEncryption := true
  enableIpv6 := true
  mtu := 1380
  latencyFirst := false
  enableExitNode := false
  proxyForwardBySystem := false
  noTun := false
  useSmoltcp := false
  relayNetworkWhitelist := "*"
  disableP2p := false
  relayAllPeerRpc := false
  disableUdpHolePunching := false
  multiThread := true
  dataCompressAlgo := 1
  bindDevice := true
  enableKcpProxy := false
  disableKcpInput := false
  disableRelayKcp := false
  enableRelayForeignNetworkKcp := false
  acceptDns := false
  privateMode := false
  enableQuicProxy := false
  disableQuicInput := false
  foreignRelayBpsLimit := 0xffffffffffffffff
  multiThreadCount := 2
  encryptionAlgorithm := "aes-gcm"
  disableSymHolePunching := false

/-! ## The loader -/

structure NetworkIdentity where
  networkName : String
  networkSecret : Option String
  networkSecretDigest : Option (List UInt8)

def NetworkIdentity.new (networkName : String) : NetworkIdentity := ⟨networkName, none, none⟩

structure ProxyNetworkConfig where
  cidr : Ipv4Cidr
  mappedCidr : Option Ipv4Cidr
  allow : Option (List String)

structure VpnPortalConfig where
  clientCidr : Ipv4Cidr
  wireguardListen : SocketAddr

structure PortForwardConfig where
  bindAddr : SocketAddr
  dstAddr : SocketAddr
  proto : String

/-- The fields of the configuration that are exported or imported. A peer is its URI. -/
structure TomlConfigLoader (Url Uuid : Type) where
  hostname : Option String
  instanceName : Option String
  instanceId : Option Uuid
  ipv4 : Option String
  dhcp : Option Bool
  networkIdentity : Option NetworkIdentity
  listeners : Option (List Url)
  mappedListeners : Option (List Url)
  exitNodes : Option (List IpAddr)
  peer : Option (List Url)
  proxyNetwork : Option (List ProxyNetworkConfig)
  rpcPortal : Option SocketAddr
  rpcPortalWhitelist : Option (List IpCidr)
  vpnPortalConfig : Option VpnPortalConfig
  routes : Option (List Ipv4Cidr)
  socks5Proxy : Option Url
  portForward : Option (List PortForwardConfig)
  flagsStruct : Option Flags

namespace TomlConfigLoader

variable {Url Uuid : Type} (config : TomlConfigLoader Url Uuid)

/-- The loader of the empty text. -/
def default : TomlConfigLoader Url Uuid where
  hostname := none
  instanceName := none
  instanceId := none
  ipv4 := none
  dhcp := none
  networkIdentity := some (.new "default")
  listeners := none
  mappedListeners := none
  exitNodes := none
  peer := none
  proxyNetwork := none
  rpcPortal := none
  rpcPortalWhitelist := none
  vpnPortalConfig := none
  routes := none
  socks5Proxy := none
  portForward := none
  flagsStruct := some genDefaultFlags

/-- A loader without an id gets a fresh one. -/
def getId (fresh : Uuid) : Uuid × TomlConfigLoader Url Uuid :=
  match config.instanceId with
  | none => (fresh, { config with instanceId := some fresh })
  | some id => (id, config)

/-- `char::is_control`. -/
def isControl (c : Char) : Bool := c.toNat < 0x20 || 0x7f ≤ c.toNat && c.toNat < 0xa0

/-- The name is cut and stored so; without one it is that of the host. -/
def getHostname (gethostname : String) : String × TomlConfigLoader Url Uuid :=
  match config.hostname with
  | none => (gethostname, config)
  | some hostname =>
    let hostname := String.ofList ((hostname.toList.filter fun c => !isControl c).take 32)
    if hostname.isEmpty then (gethostname, { config with hostname := none })
    else (hostname, { config with hostname := some hostname })

def getIpv4 (parse : String → Option Ipv4Inet) : Option Ipv4Inet :=
  (config.ipv4.bind parse).map fun inet =>
    if inet.networkLength = 32 then { inet with networkLength := 24 } else inet

def getDhcp : Bool := config.dhcp.getD false

def getNetworkIdentity : NetworkIdentity := config.networkIdentity.getD (.new "default")

def getPeers : List Url := config.peer.getD []

def getListeners : Option (List Url) := config.listeners

def getMappedListeners : List Url := config.mappedListeners.getD []

def getProxyCidrs : List ProxyNetworkConfig := config.proxyNetwork.getD []

def getPortForwards : List PortForwardConfig := config.portForward.getD []

def getRoutes : Option (List Ipv4Cidr) := config.routes

def getExitNodes : List IpAddr := config.exitNodes.getD []

def getFlags : Flags := config.flagsStruct.getD Inhabited.default

/-- The networks after `add_proxy_cidr`, or its error. -/
def addProxyCidr (proxyNetwork : Option (List ProxyNetworkConfig)) (cidr : Ipv4Cidr)
    (mappedCidr : Option Ipv4Cidr) : Except String (List ProxyNetworkConfig) := do
  let networks := proxyNetwork.getD []
  if let some mapped := mappedCidr then
    if cidr.networkLength ≠ mapped.networkLength then
      throw ("Mapped CIDR must have the same network length as the original CIDR: " ++
        toString cidr.networkLength ++ " != " ++ toString mapped.networkLength)
  if networks.any fun c => c.cidr = cidr ∧ c.mappedCidr = mappedCidr then
    return networks
  return networks ++ [⟨cidr, mappedCidr, none⟩]

end TomlConfigLoader

end PeerLink.Launcher
